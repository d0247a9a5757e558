import RestartManager.Session.HandleInvariant

/-! The life of one native handle: what holds of every interleaving of its
owner and its cancellers. -/
namespace RestartManager

open Interaction Transition

/-- The two calls that need an open session. -/
def Call.IsEndOrCancel : Call → Prop
  | .rmEndSession _ | .rmCancelCurrentTask _ => True
  | _ => False

namespace Cancellation

section

variable [Platform]

/-! ### Calls in progress -/

/-- The thread has issued this call, and waits for it to return. -/
def State.InProgress (s : State) (c : Call) : Agent → Prop
  | .owner => (∃ next, s.owner = .starting (.call c next)) ∨
      (∃ next, s.owner = .ending (.call c next)) ∨ ∃ next, s.owner = .releasing (.call c next)
  | .canceller i => (∃ next, s.canceller i = .cancelling (.call c next)) ∨
      ∃ next result, s.canceller i = .releasing (.call c next) result

/-- The last strong reference to the handle of the session is gone. -/
def State.Released (s : State) : Prop := s.owner = .failed ∨ (s.Shared ∧ s.strong = 0)

/-- The canceller makes no call, and reports nothing but the end of the
session. -/
def Label.Denies (i : Nat) : Label → Prop
  | .call a _ => a ≠ .canceller i
  | .returned j result => j = i → result = .error sessionEndedError
  | .silent => True

/-- A call was in progress before it was answered. -/
theorem Step.inProgress {s t : State} {a : Agent} {event : Event} (step : Step s (.call a event) t) :
    s.InProgress event.1 a := by
  cases step with
  | startCall h => exact .inl ⟨_, h⟩
  | endCall h => exact .inr (.inl ⟨_, h⟩)
  | ownerReleasingCall h => exact .inr (.inr ⟨_, h⟩)
  | cancelCall h => exact .inl ⟨_, h⟩
  | cancelReleasingCall h => exact .inr ⟨_, _, h⟩

namespace State

section Progress

variable {s : State} {codes : List UInt32} {opened : Bool × List UInt32} {a b : Agent}
  {raw raw' : UInt32}

/-- While a session is opened, an end is only in progress after it began. -/
theorem Private.end_inProgress (h : s.Private opened) (ha : s.InProgress (.rmEndSession raw) a) :
    a = .owner ∧ opened = (true, []) := by
  obtain ⟨rest, hOwner, hRest⟩ | ⟨hOwner, -⟩ := h.opening
  · cases a with
    | owner =>
        obtain ⟨next, h'⟩ | ⟨next, h'⟩ | ⟨next, h'⟩ := ha
        · cases h'.symm.trans hOwner
          exact ⟨rfl, hRest.1⟩
        · cases h'.symm.trans hOwner
        · cases h'.symm.trans hOwner
    | canceller i => simp [InProgress, h.idle] at ha
  · cases a with
    | owner => simp [InProgress, hOwner] at ha
    | canceller i => simp [InProgress, h.idle] at ha

/-- No one can cancel before the session is handed out. -/
theorem Private.no_cancel (h : s.Private opened) :
    ¬s.InProgress (.rmCancelCurrentTask raw) a := by
  intro ha
  obtain ⟨rest, hOwner, hRest⟩ | ⟨hOwner, -⟩ := h.opening
  · cases a with
    | owner =>
        obtain ⟨next, h'⟩ | ⟨next, h'⟩ | ⟨next, h'⟩ := ha
        · cases h'.symm.trans hOwner
          exact hRest.1
        · cases h'.symm.trans hOwner
        · cases h'.symm.trans hOwner
    | canceller i => simp [InProgress, h.idle] at ha
  · cases a with
    | owner => simp [InProgress, hOwner] at ha
    | canceller i => simp [InProgress, h.idle] at ha

/-- Where an end can be in progress: in the section of the owner, or in the
only destructor. -/
theorem Public.end_inProgress (h : s.Public codes) (ha : s.InProgress (.rmEndSession raw) a) :
    Settled codes false ∧ ((a = .owner ∧ s.Guards .owner) ∨
      (s.strong = 0 ∧ (∃ rest, s.Destroys rest a) ∧ ∀ b rest, s.Destroys rest b → b = a)) := by
  have hSection (next) (hOwner : s.owner = .ending (.call (.rmEndSession raw) next)) :
      Settled codes false := by
    obtain ⟨rfl, -, -⟩ | ⟨code, -, hEnd⟩ := h.of_ending hOwner
    · exact .fresh
    · cases hEnd
  have hDestructor (next) (ha : s.Destroys (.call (.rmEndSession raw) next) a) :
      Settled codes false ∧ s.strong = 0 ∧ (∃ rest, s.Destroys rest a) ∧
        ∀ b rest, s.Destroys rest b → b = a := by
    have hGone := h.unreferenced _ _ ha
    obtain ⟨-, -, hSettled, hAlone⟩ := h.attempts.of_call h.counted hGone ha
    exact ⟨hSettled, hGone, ⟨_, ha⟩, hAlone⟩
  cases a with
  | owner =>
      obtain ⟨next, h'⟩ | ⟨next, h'⟩ | ⟨next, h'⟩ := ha
      · have hShared := h.shared
        simp [Shared, h'] at hShared
      · exact ⟨hSection next h', .inl ⟨rfl, _, h'⟩⟩
      · obtain ⟨hSettled, hOnly⟩ := hDestructor next h'
        exact ⟨hSettled, .inr hOnly⟩
  | canceller i =>
      obtain ⟨next, h'⟩ | ⟨next, result, h'⟩ := ha
      · cases (h.cancelling.of_call h').2
      · obtain ⟨hSettled, hOnly⟩ := hDestructor next ⟨result, h'⟩
        exact ⟨hSettled, .inr hOnly⟩

/-- A cancel is in progress inside a section, with the flag not set. -/
theorem Public.cancel_inProgress (h : s.Public codes)
    (ha : s.InProgress (.rmCancelCurrentTask raw) a) :
    a ≠ .owner ∧ s.Guards a ∧ s.strong ≠ 0 ∧ s.handle.ended = false := by
  have hDestructor (next) (ha : s.Destroys (.call (.rmCancelCurrentTask raw) next) a) : False := by
    obtain ⟨hDrop, hLive, -⟩ := h.attempts.of_call h.counted (h.unreferenced _ _ ha) ha
    rw [drop_eq, hLive] at hDrop
    cases hDrop
  cases a with
  | owner =>
      obtain ⟨next, h'⟩ | ⟨next, h'⟩ | ⟨next, h'⟩ := ha
      · have hShared := h.shared
        simp [Shared, h'] at hShared
      · obtain ⟨-, -, hEnd⟩ | ⟨code, -, hEnd⟩ := h.of_ending h'
        · cases hEnd
        · cases hEnd
      · exact (hDestructor next h').elim
  | canceller i =>
      obtain ⟨next, h'⟩ | ⟨next, result, h'⟩ := ha
      · have hHolds : (s.canceller i).Holds := by
          rw [h']
          trivial
        refine ⟨?_, ⟨_, h'⟩, h.counted.canceller_pos hHolds, (h.cancelling.of_call h').1⟩
        intro hOwner
        cases hOwner
      · exact (hDestructor next ⟨result, h'⟩).elim

/-- Whoever else is inside a section, the owner is not. -/
theorem Public.unlocked (h : s.Public codes) (hGuards : s.Guards a) (hOther : a ≠ .owner) (rest) :
    s.owner ≠ .ending rest := by
  intro hOwner
  have hGuardsOwner : s.Guards .owner := ⟨_, hOwner⟩
  exact hOther (h.exclusive.same hGuards hGuardsOwner)

/-- There were no attempts, or as many as there will be. -/
theorem Public.attempts_made (h : s.Public codes) : codes = [] ∨ Exhausted codes := by
  have hSettled {ended : Bool} (hSettled : Settled codes ended) : codes = [] ∨ Exhausted codes := by
    cases hSettled with
    | fresh => exact .inl rfl
    | ended => exact .inr (.once _)
    | refused _ => exact .inr (.once _)
  cases h.attempts with
  | held _ _ _ settled => exact hSettled settled
  | ending => exact .inl rfl
  | answered => exact .inr (.once _)
  | destroying _ _ _ _ settled => exact hSettled settled
  | destroyed _ _ exhausted => exact .inr exhausted

/-- A handle that no one refers to has been ended or is about to be. -/
theorem Public.attempted (h : s.Public codes) (hGone : s.strong = 0) :
    codes ≠ [] ∨ ∃ a raw, s.InProgress (.rmEndSession raw) a := by
  cases h.attempts with
  | held alive => exact absurd hGone alive
  | ending h' => exact absurd h' (h.counted.not_ending hGone _)
  | answered => exact .inl nofun
  | @destroying _ a _ ha _ live _ =>
      rw [drop_eq, live] at ha
      refine .inr ⟨a, s.handle.raw, ?_⟩
      cases a with
      | owner => exact .inr (.inr ⟨_, ha⟩)
      | canceller i =>
          obtain ⟨result, ha⟩ := ha
          exact .inr ⟨_, result, ha⟩
  | destroyed _ _ exhausted =>
      cases exhausted with
      | once => exact .inl nofun
      | retried => exact .inl nofun

end Progress

section Tracked

variable {s : State} {history : List Label} {a b : Agent} {raw raw' : UInt32}

/-- An end in progress is of a session that began and was not ended. -/
theorem Tracked.end_inProgress (h : s.Tracked history) (ha : s.InProgress (.rmEndSession raw) a) :
    began history = true ∧ Settled (endCodes history) false := by
  cases h with
  | opening h =>
      obtain ⟨hBegan, hCodes⟩ := Prod.mk.inj (h.end_inProgress ha).2
      exact ⟨hBegan, hCodes ▸ .fresh⟩
  | shared hBegan h => exact ⟨hBegan, (h.end_inProgress ha).1⟩

/-- Only one thread ends it. -/
theorem Tracked.end_alone (h : s.Tracked history) (ha : s.InProgress (.rmEndSession raw) a)
    (hb : s.InProgress (.rmEndSession raw') b) : a = b := by
  cases h with
  | opening h => rw [(h.end_inProgress ha).1, (h.end_inProgress hb).1]
  | shared _ h =>
      obtain ⟨-, ⟨rfl, hGuards⟩ | ⟨hGone, ⟨rest, hDestroys⟩, -⟩⟩ := h.end_inProgress ha
      · obtain ⟨-, ⟨rfl, -⟩ | ⟨hGone, -⟩⟩ := h.end_inProgress hb
        · rfl
        · obtain ⟨rest, hOwner⟩ := hGuards
          exact absurd hOwner (h.counted.not_ending hGone rest)
      · obtain ⟨-, ⟨rfl, rest, hOwner⟩ | ⟨-, -, hAlone⟩⟩ := h.end_inProgress hb
        · exact absurd hOwner (h.counted.not_ending hGone rest)
        · exact hAlone a rest hDestroys

/-- No cancellation is in progress while a thread ends the session. -/
theorem Tracked.end_excludes_cancel (h : s.Tracked history)
    (ha : s.InProgress (.rmEndSession raw) a) : ¬s.InProgress (.rmCancelCurrentTask raw') b := by
  intro hb
  cases h with
  | opening h => exact h.no_cancel hb
  | shared _ h =>
      obtain ⟨hOther, hGuards, hAlive, -⟩ := h.cancel_inProgress hb
      obtain ⟨-, ⟨-, rest, hOwner⟩ | ⟨hGone, -⟩⟩ := h.end_inProgress ha
      · exact h.unlocked hGuards hOther rest hOwner
      · exact hAlive hGone

/-- After an end that succeeded, no end and no cancel is in progress. -/
theorem Tracked.closed (h : s.Tracked history) (hEnded : ERROR_SUCCESS ∈ endCodes history) :
    ¬s.InProgress (.rmEndSession raw) a ∧ ¬s.InProgress (.rmCancelCurrentTask raw) a := by
  constructor
  · intro ha
    have := (h.end_inProgress ha).2.ended_iff.mp hEnded
    cases this
  · intro ha
    cases h with
    | opening h => exact h.no_cancel ha
    | shared _ h =>
        obtain ⟨hOther, hGuards, hAlive, hLive⟩ := h.cancel_inProgress ha
        obtain ⟨-, hSettled⟩ := h.attempts.alive hAlive (h.unlocked hGuards hOther)
        rw [hSettled.ended_iff.mp hEnded] at hLive
        cases hLive

/-- The attempts over a whole run. -/
theorem Tracked.attempts (h : s.Tracked history) :
    endCodes history = [] ∨ (began history = true ∧ Exhausted (endCodes history)) := by
  cases h with
  | opening h =>
      obtain h | h | ⟨code, h⟩ := h.reached
      · exact .inl (Prod.mk.inj h).2
      · exact .inl (Prod.mk.inj h).2
      · obtain ⟨hBegan, hCodes⟩ := Prod.mk.inj h
        exact .inr ⟨hBegan, hCodes ▸ .once code⟩
  | shared hBegan h =>
      obtain h | h := h.attempts_made
      · exact .inl h
      · exact .inr ⟨hBegan, h⟩

/-- A released session that began has been ended, or its end is in progress. -/
theorem Tracked.attempted (h : s.Tracked history) (hReleased : s.Released)
    (hBegan : began history = true) :
    endCodes history ≠ [] ∨ ∃ a raw, s.InProgress (.rmEndSession raw) a := by
  cases h with
  | opening h =>
      obtain ⟨rest, hOwner, -⟩ | ⟨-, error, h' | ⟨code, h'⟩⟩ := h.opening
      · rcases hReleased with h' | ⟨h', -⟩
        · simp [hOwner] at h'
        · simp [Shared, hOwner] at h'
      · simp [hBegan] at h'
      · exact .inl (by simp [(Prod.mk.inj h').2])
  | shared _ h =>
      obtain hFailed | ⟨-, hGone⟩ := hReleased
      · have hShared := h.shared
        simp [Shared, hFailed] at hShared
      · exact h.attempted hGone

end Tracked

/-! ### A cancel that comes too late -/

/-- A cancel that has reported nothing but the end of the session. -/
def Denied (s : State) (i : Nat) : Prop :=
  match s.canceller i with
  | .idle | .upgraded => True
  | .cancelling rest => rest = .done (.error .sessionEnded)
  | .leaving result => result = .error .sessionEnded
  | .releasing rest result => rest = .done () ∧ result = .error .sessionEnded

/-- A session that is over: ended, or without a reference. -/
def Over (s : State) (codes : List UInt32) : Prop := ERROR_SUCCESS ∈ codes ∨ s.strong = 0

section Denied

variable {s t : State} {l : Label} {codes : List UInt32} {i : Nat}

/-- A canceller that did not move is denied as before. -/
theorem Denied.of_same (h : s.Denied i) (hCancel : t.canceller i = s.canceller i) : t.Denied i := by
  rw [Denied, hCancel]
  exact h

/-- A reference that is left outside the section of the owner, when the
session is over, is one to a handle that was ended. -/
theorem Public.ended (h : s.Public codes) (hOver : s.Over codes) (hAlive : s.strong ≠ 0)
    (hUnlocked : ∀ rest, s.owner ≠ .ending rest) : s.handle.ended = true :=
  (h.attempts.alive hAlive hUnlocked).2.ended_iff.mp (hOver.resolve_right hAlive)

/-- After the end every cancellation is denied. -/
theorem Public.denied_step (h : s.Public codes) (hOver : s.Over codes) (hDenied : s.Denied i)
    (step : Step s l t) : t.Denied i ∧ l.Denies i := by
  have hOther {j : Nat} (hj : j ≠ i) {phase : CancelPhase} {t : State}
      (hCancel : t.canceller = Function.update s.canceller j phase) : t.Denied i :=
    hDenied.of_same (by rw [hCancel, Function.update_of_ne (Ne.symm hj)])
  cases step with
  | startCall h' | started h' | startFailed h' =>
      have hShared := h.shared
      simp [Shared, h'] at hShared
  | endCall | ownerReleasingCall =>
      refine ⟨hDenied, ?_⟩
      intro hOwner
      cases hOwner
  | lockEnd | unlockEnd | ownerRelease | ownerReleased => exact ⟨hDenied, trivial⟩
  | @upgrade j =>
      by_cases hj : j = i
      · subst hj
        exact ⟨by simp [Denied], trivial⟩
      · exact ⟨hOther hj rfl, trivial⟩
  | upgradeFailed => exact ⟨hDenied, fun _ => rfl⟩
  | @lockCancel j h' hFree =>
      by_cases hj : j = i
      · subst hj
        have hHolds : (s.canceller j).Holds := by
          rw [h']
          trivial
        have hUnlocked (rest) : s.owner ≠ .ending rest := by
          intro hOwner
          have hGuards : s.Guards .owner := ⟨rest, hOwner⟩
          have hHolder := (h.exclusive .owner).mpr hGuards
          simp [hFree] at hHolder
        have hEnded := h.ended hOver (h.counted.canceller_pos hHolds) hUnlocked
        exact ⟨by simp [Denied, cancel_eq, hEnded], trivial⟩
      · exact ⟨hOther hj rfl, trivial⟩
  | @cancelCall j c next response h' =>
      by_cases hj : j = i
      · subst hj
        simp [Denied, h'] at hDenied
      · exact ⟨hOther hj rfl, fun h => hj (Agent.canceller.inj h)⟩
  | @unlockCancel j result h' =>
      by_cases hj : j = i
      · subst hj
        simp only [Denied, h'] at hDenied
        cases hDenied
        exact ⟨by simp [Denied], trivial⟩
      · exact ⟨hOther hj rfl, trivial⟩
  | @cancelRelease j result n h' hCount =>
      by_cases hj : j = i
      · subst hj
        simp only [Denied, h'] at hDenied
        subst hDenied
        exact ⟨by simp [Denied], fun _ => rfl⟩
      · exact ⟨hOther hj rfl, fun h => absurd h hj⟩
  | @cancelLast j result h' hCount =>
      by_cases hj : j = i
      · subst hj
        have hHolds : (s.canceller j).Holds := by
          rw [h']
          trivial
        have hUnlocked (rest) : s.owner ≠ .ending rest := by
          intro hOwner
          have hRefs := h.counted.last hHolds hCount
          simp [hOwner, OwnerPhase.refs] at hRefs
        have hEnded := h.ended hOver (by omega) hUnlocked
        simp only [Denied, h'] at hDenied
        exact ⟨by simp [Denied, drop_eq, hEnded, hDenied], trivial⟩
      · exact ⟨hOther hj rfl, trivial⟩
  | @cancelReleasingCall j _ _ _ _ h' =>
      by_cases hj : j = i
      · subst hj
        simp [Denied, h'] at hDenied
      · exact ⟨hOther hj rfl, fun h => hj (Agent.canceller.inj h)⟩
  | @cancelReleased j result h' =>
      by_cases hj : j = i
      · subst hj
        simp only [Denied, h'] at hDenied
        obtain ⟨-, rfl⟩ := hDenied
        exact ⟨by simp [Denied], fun _ => rfl⟩
      · exact ⟨hOther hj rfl, fun h => absurd h hj⟩

/-- Before the handle is shared no canceller moves. -/
theorem Private.denied_step {opened : Bool × List UInt32} (h : s.Private opened)
    (step : Step s l t) : s.owner ≠ .failed ∧ t.canceller = s.canceller ∧ l.Denies i := by
  have hUnshared := h.unshared
  cases step with
  | startCall h' => exact ⟨by simp [h'], rfl, nofun⟩
  | started h' | startFailed h' => exact ⟨by simp [h'], rfl, trivial⟩
  | lockEnd h' | endCall h' | unlockEnd h' | ownerReleasingCall h' | ownerReleased h' =>
      simp [Shared, h'] at hUnshared
  | ownerRelease h' => rcases h' with h' | h' <;> simp [Shared, h'] at hUnshared
  | upgrade _ shared | upgradeFailed _ shared => exact absurd shared hUnshared
  | lockCancel h' | cancelCall h' | unlockCancel h' | cancelRelease h' | cancelLast h'
  | cancelReleasingCall h' | cancelReleased h' => simp [h.idle] at h'

end Denied

/-- A session that is over, and a canceller that comes to it too late. -/
structure Late (i : Nat) (history later : List Label) (s : State) : Prop where
  tracked : s.Tracked (history ++ later)
  closed : ERROR_SUCCESS ∈ endCodes (history ++ later) ∨ s.Released
  denied : s.Denied i
  denies : ∀ l ∈ later, l.Denies i

/-- Every step after the end keeps the late canceller out. -/
theorem Late.step {s t : State} {l : Label} {history later : List Label} {i : Nat}
    (h : s.Late i history later) (step : Step s l t) : t.Late i history (later ++ [l]) := by
  have hTracked : t.Tracked (history ++ (later ++ [l])) := by
    rw [← List.append_assoc]
    exact h.tracked.step step
  have hEnded (hEnd : ERROR_SUCCESS ∈ endCodes (history ++ later)) :
      ERROR_SUCCESS ∈ endCodes (history ++ (later ++ [l])) := by
    rw [← List.append_assoc, endCodes_snoc]
    exact List.mem_append_left _ hEnd
  have hDenies (hLast : l.Denies i) : ∀ l' ∈ later ++ [l], l'.Denies i := by
    intro l' hMem
    rcases List.mem_append.mp hMem with hMem | hMem
    · exact h.denies l' hMem
    · obtain rfl := List.mem_singleton.mp hMem
      exact hLast
  cases h.tracked with
  | opening hPrivate =>
      obtain ⟨hOpening, hCancel, hLast⟩ := hPrivate.denied_step step
      refine ⟨hTracked, ?_, h.denied.of_same (congrFun hCancel i), hDenies hLast⟩
      rcases h.closed with hEnd | hFailed | ⟨hShared, -⟩
      · exact .inl (hEnded hEnd)
      · exact absurd hFailed hOpening
      · exact absurd hShared hPrivate.unshared
  | shared _ hPublic =>
      have hOver : s.Over (endCodes (history ++ later)) := by
        rcases h.closed with hEnd | hFailed | ⟨-, hGone⟩
        · exact .inl hEnd
        · have hShared := hPublic.shared
          simp [Shared, hFailed] at hShared
        · exact .inr hGone
      obtain ⟨hDenied, hLast⟩ := hPublic.denied_step hOver h.denied step
      refine ⟨hTracked, ?_, hDenied, hDenies hLast⟩
      rcases hOver with hEnd | hGone
      · exact .inl (hEnded hEnd)
      · exact .inr (.inr ⟨hPublic.shared.step step, strong_zero hPublic.shared hGone step⟩)

end State

/-! ### The life of a handle -/

/-- What holds of a handle in a state that the history leads to. -/
structure HandleLife (history : List Label) (s : State) : Prop where
  /-- After an end that succeeded, no end and no cancel is issued again. -/
  closed : ∀ first a raw second, history = first ++ .call a ⟨.rmEndSession raw, ERROR_SUCCESS⟩ :: second →
    (∀ b event, Label.call b event ∈ second → ¬event.1.IsEndOrCancel) ∧
    ∀ b raw, ¬s.InProgress (.rmEndSession raw) b ∧ ¬s.InProgress (.rmCancelCurrentTask raw) b
  /-- The end is attempted at most twice, for a session that began, and one
  attempt at a time. -/
  twice : (endCodes history).length ≤ 2
  once_more : ∀ a raw, s.InProgress (.rmEndSession raw) a → (endCodes history).length ≤ 1
  alone : ∀ a b raw raw', s.InProgress (.rmEndSession raw) a → s.InProgress (.rmEndSession raw') b →
    a = b
  attempted_began : (endCodes history ≠ [] ∨ ∃ a raw, s.InProgress (.rmEndSession raw) a) →
    began history = true
  /-- A second attempt follows a first one that failed. -/
  retried : ∀ first rest, endCodes history = first :: rest →
    (rest ≠ [] ∨ ∃ a raw, s.InProgress (.rmEndSession raw) a) → first ≠ ERROR_SUCCESS
  /-- Without a reference, the end of a session that began was attempted. -/
  attempted : s.Released → began history = true →
    endCodes history ≠ [] ∨ ∃ a raw, s.InProgress (.rmEndSession raw) a
  /-- No cancel is in progress while an end is. -/
  exclusive : ∀ a b raw raw', s.InProgress (.rmEndSession raw) a →
    ¬s.InProgress (.rmCancelCurrentTask raw') b
  /-- A cancel that finds the session over makes no call and says so. -/
  denied : ∀ i, s.canceller i = .idle ∨ s.canceller i = .upgraded →
    (ERROR_SUCCESS ∈ endCodes history ∨ s.Released) →
    ∀ later t, Run Step s later t → ∀ l ∈ later, l.Denies i

/-- An end in the history has its code among the attempts. -/
theorem endCodes_mem {first second : List Label} {a : Agent} {raw code : UInt32} :
    code ∈ endCodes (first ++ .call a ⟨.rmEndSession raw, code⟩ :: second) := by
  rw [endCodes_append]
  exact List.mem_append_right _ List.mem_cons_self

/-- Every interleaving of an owner, which may end its session, drop it or fail
to open it, with any number of cancellers, whatever Windows answers. -/
theorem handle_life {start : Native (Except Error SessionCore)} {history : List Label} {s : State}
    (hStart : Opening start) (run : Run Step (State.init start) history s) :
    HandleLife history s := by
  have h := State.Tracked.of_run hStart run
  have hShape := h.attempts
  constructor
  · rintro first a raw second rfl
    constructor
    · intro b event hMem hCall
      obtain ⟨before, after, rfl⟩ := List.append_of_mem hMem
      rw [← List.cons_append, ← List.append_assoc] at run
      obtain ⟨t, t', runBefore, step, -⟩ := run.split
      have hClosed (raw') := @State.Tracked.closed _ t _ b raw' (.of_run hStart runBefore) endCodes_mem
      have hProgress := step.inProgress
      obtain ⟨c, response⟩ := event
      cases c with
      | rmEndSession raw' => exact (hClosed raw').1 hProgress
      | rmCancelCurrentTask raw' => exact (hClosed raw').2 hProgress
      | _ => exact hCall
    · exact fun b raw' => h.closed endCodes_mem
  · rcases hShape with hNone | ⟨-, hSome⟩
    · simp [hNone]
    · exact hSome.length_le
  · exact fun a raw ha => (h.end_inProgress ha).2.length_le
  · exact fun a b raw raw' ha hb => h.end_alone ha hb
  · rintro (hSome | ⟨a, raw, ha⟩)
    · exact (hShape.resolve_left hSome).1
    · exact (h.end_inProgress ha).1
  · rintro first rest hCodes (hRest | ⟨a, raw, ha⟩)
    · rw [hCodes] at hShape
      obtain hNone | ⟨-, hSome⟩ := hShape
      · cases hNone
      · cases hSome with
        | once => exact absurd rfl hRest
        | retried hFirst => exact hFirst
    · have hSettled := (h.end_inProgress ha).2
      rw [hCodes] at hSettled
      cases hSettled with
      | refused hFirst => exact hFirst
  · exact h.attempted
  · exact fun a b raw raw' ha => h.end_excludes_cancel ha
  · intro i hIdle hOver later t later_run
    have hDenied : s.Denied i := by
      rcases hIdle with hIdle | hIdle <;> simp [State.Denied, hIdle]
    have hInit : s.Late i history [] :=
      ⟨by rwa [List.append_nil], by rwa [List.append_nil], hDenied, by simp⟩
    have hLate : t.Late i history later :=
      later_run.invariant hInit fun _ _ _ _ h step => h.step step
    exact hLate.denies

end

section

attribute [local instance] Platform.driveLetters

/-- The explicit end of a joined session fails while a cancel holds a
reference, so the canceller ends it as the last owner. -/
def contended : List Label :=
  [.call .owner ⟨.rmJoinSession ⟨List.replicate 32 0x30 ++ [0]⟩, ⟨ERROR_SUCCESS, 3⟩⟩, .silent, .silent,
    .silent, .call .owner ⟨.rmEndSession 3, ERROR_FAIL_RESTART⟩, .silent, .silent, .silent,
    .call (.canceller 0) ⟨.rmCancelCurrentTask 3, ERROR_SUCCESS⟩, .silent, .silent,
    .call (.canceller 0) ⟨.rmEndSession 3, ERROR_SUCCESS⟩, .returned 0 (.ok ()),
    .returned 0 (.error sessionEndedError)]

theorem handle_life_contended : ∃ s, HandleLife contended s := by
  let key : SessionKey := ⟨List.replicate 32 0x30, by decide⟩
  have run : ∃ s, Run Step (State.init (SessionCore.join key).run) contended s := by
    apply Exists.intro
    apply Run.cons (.startCall rfl)
    apply Run.cons (.started rfl)
    apply Run.cons (@Step.upgrade _ _ 0 rfl (by trivial) one_ne_zero)
    apply Run.cons (.lockEnd rfl rfl)
    apply Run.cons (.endCall rfl)
    apply Run.cons (.unlockEnd rfl)
    apply Run.cons (.ownerRelease (.inr rfl) rfl)
    apply Run.cons (@Step.lockCancel _ _ 0 rfl rfl)
    apply Run.cons (.cancelCall rfl)
    apply Run.cons (@Step.unlockCancel _ _ 0 _ rfl)
    apply Run.cons (@Step.cancelLast _ _ 0 _ rfl rfl)
    apply Run.cons (.cancelReleasingCall rfl)
    apply Run.cons (@Step.cancelReleased _ _ 0 (.ok ()) rfl)
    apply Run.cons (.upgradeFailed rfl (by trivial) rfl)
    exact .refl
  obtain ⟨s, run⟩ := run
  exact ⟨s, handle_life (.join key) run⟩

end
end Cancellation
end RestartManager

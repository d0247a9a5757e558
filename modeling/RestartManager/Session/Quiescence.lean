import Mathlib.Order.GameAdd
import RestartManager.Session.HandleLife

/-! A session handle comes to rest. The mutex and the reference count make
threads wait for one another, but for no longer than a native call takes:
every `cancel` that began returns, and the session of an owner that is through
with it is released. -/
namespace RestartManager

open Interaction Transition

namespace Cancellation

section

variable [Platform]

/-- A step with which no `cancel` begins. -/
def Finishes (s : State) (l : Label) (t : State) : Prop :=
  Step s l t ∧ ∀ i, s.canceller i = .idle → t.canceller i = .idle ∧ ∀ result, l ≠ .returned i result

/-- The owner is through, no `cancel` is under way, and the handle is gone. -/
structure State.AtRest (s : State) : Prop where
  owner : s.owner = .failed ∨ s.owner = .finished
  idle : ∀ i, s.canceller i = .idle
  free : s.holder = none
  released : s.Released

/-- Whether a `cancel` has still to return. -/
def CancelPhase.pending : CancelPhase → Nat
  | .idle => 0
  | _ => 1

/-- The returns of the `cancel` of `i`. -/
def Label.returns (i : Nat) : Label → Nat
  | .returned j _ => if j = i then 1 else 0
  | _ => 0

/-! ### What is left to do -/

/-- The steps of the owner. -/
inductive OwnerPhase.Next : OwnerPhase → OwnerPhase → Prop
  | startCall {c : Call} {next : c.Response → Native (Except Error SessionCore)}
      (response : c.Response) : Next (.starting (.call c next)) (.starting (next response))
  | started (core : SessionCore) : Next (.starting (.done (.ok core))) .holding
  | startFailed (error : Error) : Next (.starting (.done (.error error))) .failed
  | lockEnd (rest : Native (SysResult Unit × SessionHandle)) : Next .holding (.ending rest)
  | endCall {c : Call} {next : c.Response → Native (SysResult Unit × SessionHandle)}
      (response : c.Response) : Next (.ending (.call c next)) (.ending (next response))
  | unlockEnd (result : SysResult Unit × SessionHandle) : Next (.ending (.done result)) .leaving
  | release {phase : OwnerPhase} (h : phase = .holding ∨ phase = .leaving) (rest : Native Unit) :
      Next phase (.releasing rest)
  | leave {phase : OwnerPhase} (h : phase = .holding ∨ phase = .leaving) : Next phase .finished
  | releasingCall {c : Call} {next : c.Response → Native Unit} (response : c.Response) :
      Next (.releasing (.call c next)) (.releasing (next response))
  | released : Next (.releasing (.done ())) .finished

namespace OwnerPhase

theorem finite_of_steps {phase : OwnerPhase} (h : ∀ phase', Next phase phase' → Acc (flip Next) phase') :
    Acc (flip Next) phase := .intro _ h

theorem finite_finished : Acc (flip Next) .finished := by
  apply finite_of_steps
  intro phase step
  cases step with
  | release h | leave h => simp at h

theorem finite_failed : Acc (flip Next) .failed := by
  apply finite_of_steps
  intro phase step
  cases step with
  | release h | leave h => simp at h

theorem finite_releasing (rest : Native Unit) : Acc (flip Next) (.releasing rest) := by
  induction rest with
  | done result =>
      apply finite_of_steps
      intro phase step
      cases step with
      | release h | leave h => simp at h
      | released => exact finite_finished
  | call c next ih =>
      apply finite_of_steps
      intro phase step
      cases step with
      | release h | leave h => simp at h
      | releasingCall response => exact ih response

theorem finite_leaving : Acc (flip Next) .leaving := by
  apply finite_of_steps
  intro phase step
  cases step with
  | release _ rest => exact finite_releasing rest
  | leave _ => exact finite_finished

theorem finite_ending (rest : Native (SysResult Unit × SessionHandle)) :
    Acc (flip Next) (.ending rest) := by
  induction rest with
  | done result =>
      apply finite_of_steps
      intro phase step
      cases step with
      | release h | leave h => simp at h
      | unlockEnd => exact finite_leaving
  | call c next ih =>
      apply finite_of_steps
      intro phase step
      cases step with
      | release h | leave h => simp at h
      | endCall response => exact ih response

theorem finite_holding : Acc (flip Next) .holding := by
  apply finite_of_steps
  intro phase step
  cases step with
  | lockEnd rest => exact finite_ending rest
  | release _ rest => exact finite_releasing rest
  | leave _ => exact finite_finished

theorem finite_starting (rest : Native (Except Error SessionCore)) :
    Acc (flip Next) (.starting rest) := by
  induction rest with
  | done result =>
      apply finite_of_steps
      intro phase step
      cases step with
      | release h | leave h => simp at h
      | started => exact finite_holding
      | startFailed => exact finite_failed
  | call c next ih =>
      apply finite_of_steps
      intro phase step
      cases step with
      | release h | leave h => simp at h
      | startCall response => exact ih response

/-- However the owner goes on, it takes finitely many steps. -/
theorem finite (phase : OwnerPhase) : Acc (flip Next) phase := by
  cases phase with
  | starting rest => exact finite_starting rest
  | failed => exact finite_failed
  | holding => exact finite_holding
  | ending rest => exact finite_ending rest
  | leaving => exact finite_leaving
  | releasing rest => exact finite_releasing rest
  | finished => exact finite_finished

end OwnerPhase

/-- The most steps that a `cancel` can still take. -/
def CancelPhase.left : CancelPhase → Nat
  | .idle => 0
  | .releasing (.done _) _ => 1
  | .releasing (.call ..) _ => 2
  | .leaving _ => 3
  | .cancelling (.done _) => 4
  | .cancelling (.call ..) => 5
  | .upgraded => 6

namespace State

section

variable {start : Native (Except Error SessionCore)} {history : List Label} {s t : State} {l : Label}
  {i : Nat}

/-- The section of a `cancel` makes one call. -/
theorem Tracked.of_cancelling (h : s.Tracked history) {c : Call}
    {next : c.Response → Native (SysResult Unit)} (hCall : s.canceller i = .cancelling (.call c next))
    (response : c.Response) : ∃ result, next response = .done result := by
  cases h with
  | opening h => simp [h.idle] at hCall
  | shared _ h =>
      cases (h.cancelling.of_call hCall).2
      exact ⟨_, rfl⟩

/-- The drop of the handle makes one call, and returns after it. -/
theorem Tracked.of_releasing (h : s.Tracked history) {c : Call} {next : c.Response → Native Unit}
    {result : SysResult Unit} (hCall : s.canceller i = .releasing (.call c next) result)
    (response : c.Response) : next response = .done () := by
  cases h with
  | opening h => simp [h.idle] at hCall
  | shared _ h =>
      have hDestroys : s.Destroys (.call c next) (.canceller i) := ⟨result, hCall⟩
      have hGone := h.unreferenced _ _ hDestroys
      obtain ⟨hDrop, hLive, -⟩ := h.attempts.of_call h.counted hGone hDestroys
      rw [drop_eq, hLive] at hDrop
      cases hDrop
      rfl

/-- Each step takes the owner or one `cancel` further. -/
theorem Tracked.moves (h : s.Tracked history) (step : Finishes s l t) :
    (OwnerPhase.Next s.owner t.owner ∧ t.canceller = s.canceller) ∨
    (t.owner = s.owner ∧ ∃ i phase, t.canceller = Function.update s.canceller i phase ∧
      phase.left < (s.canceller i).left) := by
  obtain ⟨step, hBegins⟩ := step
  cases step with
  | startCall h' =>
      rw [h']
      exact .inl ⟨.startCall _, rfl⟩
  | started h' =>
      rw [h']
      exact .inl ⟨.started _, rfl⟩
  | startFailed h' =>
      rw [h']
      exact .inl ⟨.startFailed _, rfl⟩
  | lockEnd h' =>
      rw [h']
      exact .inl ⟨.lockEnd _, rfl⟩
  | endCall h' =>
      rw [h']
      exact .inl ⟨.endCall _, rfl⟩
  | unlockEnd h' =>
      rw [h']
      exact .inl ⟨.unlockEnd _, rfl⟩
  | @ownerRelease n h' =>
      refine .inl ⟨?_, rfl⟩
      by_cases hLast : n = 0
      · simpa [hLast] using OwnerPhase.Next.release h' s.handle.drop
      · simpa [hLast] using OwnerPhase.Next.leave h'
  | ownerReleasingCall h' =>
      rw [h']
      exact .inl ⟨.releasingCall _, rfl⟩
  | ownerReleased h' =>
      rw [h']
      exact .inl ⟨.released, rfl⟩
  | @upgrade i h' =>
      have := (hBegins i h').1
      simp [setCanceller] at this
  | @upgradeFailed i h' => exact absurd rfl ((hBegins i h').2 _)
  | lockCancel h' =>
      refine .inr ⟨rfl, _, _, rfl, ?_⟩
      rw [h']
      cases s.handle.cancel.run <;> simp [CancelPhase.left]
  | @cancelCall i _ _ response h' =>
      obtain ⟨result, hDone⟩ := h.of_cancelling h' response
      refine .inr ⟨rfl, i, _, rfl, ?_⟩
      rw [h', hDone]
      simp [CancelPhase.left]
  | unlockCancel h' | cancelRelease h' | cancelReleased h' =>
      refine .inr ⟨rfl, _, _, rfl, ?_⟩
      simp [h', CancelPhase.left]
  | cancelLast h' =>
      refine .inr ⟨rfl, _, _, rfl, ?_⟩
      rw [h']
      cases s.handle.drop <;> simp [CancelPhase.left]
  | @cancelReleasingCall i _ _ response _ h' =>
      have hDone := h.of_releasing h' response
      refine .inr ⟨rfl, i, _, rfl, ?_⟩
      rw [h', hDone]
      simp [CancelPhase.left]

/-- Each step of any thread moves at most one canceller. -/
theorem Step.canceller_eq (step : Step s l t) : ∃ i, ∀ j, j ≠ i → t.canceller j = s.canceller j := by
  cases step with
  | @upgrade i | @lockCancel i | @cancelCall i | @unlockCancel i | @cancelRelease i | @cancelLast i
  | @cancelReleasingCall i | @cancelReleased i => exact ⟨i, fun j hj => setCanceller_of_ne _ _ _ hj⟩
  | _ => exact ⟨0, fun _ _ => rfl⟩

/-- Finitely many `cancel`s are under way. -/
theorem finite_busy (run : Run Step (State.init start) history s) :
    ∃ busy : Finset Nat, ∀ i, i ∉ busy → s.canceller i = .idle :=
  run.finite_moved canceller (fun _ => rfl) fun _ _ _ step => Step.canceller_eq step

/-- Of what the owner and the `cancel`s of `busy` have left, a step takes something away. -/
theorem Tracked.decreases (h : s.Tracked history) {busy : Finset Nat}
    (hIdle : ∀ i, i ∉ busy → s.canceller i = .idle) (step : Finishes s l t) :
    flip (Prod.GameAdd (flip OwnerPhase.Next) (· < ·))
      (s.owner, ∑ i ∈ busy, (s.canceller i).left) (t.owner, ∑ i ∈ busy, (t.canceller i).left) := by
  obtain ⟨hOwner, hSame⟩ | ⟨hOwner, i, phase, hMoved, hLess⟩ := h.moves step
  · rw [hSame]
    exact .fst hOwner
  · have hMem : i ∈ busy := by
      by_contra hNot
      simp [hIdle i hNot, CancelPhase.left] at hLess
    rw [hOwner, hMoved]
    exact .snd (sum_update_lt hMem hLess)

/-! ### Nobody waits for ever -/

/-- A step of a `cancel` that has begun. -/
theorem finishes_of_busy {phase : CancelPhase} (step : Step s l t) (hBusy : s.canceller i ≠ .idle)
    (hCancel : t.canceller = Function.update s.canceller i phase)
    (hLabel : ∀ j result, l = .returned j result → j = i) : Finishes s l t := by
  refine ⟨step, fun j hj => ?_⟩
  have hOther : j ≠ i := fun h => hBusy (h ▸ hj)
  refine ⟨?_, fun result hl => hOther (hLabel j result hl)⟩
  rw [hCancel, Function.update_of_ne hOther, hj]

/-- A thread inside a section of the mutex waits for nothing but Windows. -/
theorem Guards.finishes {a : Agent} (h : s.Guards a) : ∃ l t, Finishes s l t := by
  cases a with
  | owner =>
      obtain ⟨rest, hOwner⟩ := h
      cases rest with
      | done result => exact ⟨_, _, .unlockEnd hOwner, fun i hi => ⟨hi, nofun⟩⟩
      | call c next =>
          obtain ⟨response⟩ := c.answered
          exact ⟨_, _, @Step.endCall _ _ _ _ response hOwner, fun i hi => ⟨hi, nofun⟩⟩
  | canceller i =>
      obtain ⟨rest, hCancel⟩ := h
      have hBusy : s.canceller i ≠ .idle := by simp [hCancel]
      cases rest with
      | done result => exact ⟨_, _, finishes_of_busy (.unlockCancel hCancel) hBusy rfl nofun⟩
      | call c next =>
          obtain ⟨response⟩ := c.answered
          exact ⟨_, _, finishes_of_busy (@Step.cancelCall _ _ _ _ _ response hCancel) hBusy rfl nofun⟩

/-- Whoever waits for the mutex waits for a thread that can go on. -/
theorem Public.free_or_finishes {codes : List UInt32} (h : s.Public codes) :
    s.holder = none ∨ ∃ l t, Finishes s l t := by
  cases hHolder : s.holder with
  | none => exact .inl rfl
  | some a =>
      have hInside : s.Guards a := (h.exclusive a).mp hHolder
      exact .inr hInside.finishes

/-- A `cancel` that has begun is not stuck. -/
theorem Public.cancel_finishes {codes : List UInt32} (h : s.Public codes)
    (hBusy : s.canceller i ≠ .idle) : ∃ l t, Finishes s l t := by
  have hReturned {result : SysResult Unit} (j : Nat) (result' : Except Error Unit)
      (hLabel : Label.returned i (result.mapError mapSysError) = .returned j result') : j = i :=
    (Label.returned.inj hLabel).1.symm
  cases hPhase : s.canceller i with
  | idle => exact absurd hPhase hBusy
  | upgraded =>
      obtain hFree | hOther := h.free_or_finishes
      · exact ⟨_, _, finishes_of_busy (.lockCancel hPhase hFree) hBusy rfl nofun⟩
      · exact hOther
  | cancelling rest =>
      have hInside : s.Guards (.canceller i) := ⟨rest, hPhase⟩
      exact hInside.finishes
  | leaving result =>
      have hHeld : s.strong ≠ 0 := h.counted.canceller_pos (by rw [hPhase]; trivial)
      obtain ⟨n, hCount⟩ := Nat.exists_eq_succ_of_ne_zero hHeld
      cases n with
      | zero => exact ⟨_, _, finishes_of_busy (.cancelLast hPhase hCount) hBusy rfl nofun⟩
      | succ n => exact ⟨_, _, finishes_of_busy (.cancelRelease hPhase hCount) hBusy rfl hReturned⟩
  | releasing rest result =>
      cases rest with
      | done _ => exact ⟨_, _, finishes_of_busy (.cancelReleased hPhase) hBusy rfl hReturned⟩
      | call c next =>
          obtain ⟨response⟩ := c.answered
          exact ⟨_, _, finishes_of_busy (@Step.cancelReleasingCall _ _ _ _ _ response _ hPhase) hBusy
            rfl nofun⟩

/-- Neither is an owner that is not through. -/
theorem Public.owner_finishes {codes : List UInt32} (h : s.Public codes)
    (hOwner : s.owner ≠ .finished) : ∃ l t, Finishes s l t := by
  have hIdle (j : Nat) (hj : s.canceller j = .idle) :
      s.canceller j = .idle ∧ ∀ result, Label.silent ≠ .returned j result := ⟨hj, by simp⟩
  cases hPhase : s.owner with
  | starting rest | failed =>
      have hShared := h.shared
      simp [Shared, hPhase] at hShared
  | finished => exact absurd hPhase hOwner
  | ending rest =>
      have hInside : s.Guards .owner := ⟨rest, hPhase⟩
      exact hInside.finishes
  | holding | leaving =>
      have hHeld : s.strong ≠ 0 := h.counted.owner_pos (by rw [hPhase]; rfl)
      obtain ⟨n, hCount⟩ := Nat.exists_eq_succ_of_ne_zero hHeld
      exact ⟨_, _, .ownerRelease (by simp [hPhase]) hCount, hIdle⟩
  | releasing rest =>
      cases rest with
      | done _ => exact ⟨_, _, .ownerReleased hPhase, hIdle⟩
      | call c next =>
          obtain ⟨response⟩ := c.answered
          exact ⟨_, _, @Step.ownerReleasingCall _ _ _ _ response hPhase, fun i hi => ⟨hi, by simp⟩⟩

/-- Where no thread can go on, none has anything left to do. -/
theorem Tracked.atRest (h : s.Tracked history) (hStuck : ∀ l t, ¬Finishes s l t) : s.AtRest := by
  have hMoves : ¬∃ l t, Finishes s l t := fun ⟨l, t, step⟩ => hStuck l t step
  cases h with
  | opening h =>
      obtain ⟨rest, hOwner, -⟩ | ⟨hOwner, -⟩ := h.opening
      · have hIdle (l : Label) (hl : ∀ i result, l ≠ .returned i result) (i : Nat)
            (hi : s.canceller i = .idle) : s.canceller i = .idle ∧ ∀ result, l ≠ .returned i result :=
          ⟨hi, hl i⟩
        cases rest with
        | done result =>
            cases result with
            | ok core => exact absurd ⟨_, _, .started hOwner, hIdle _ nofun⟩ hMoves
            | error error => exact absurd ⟨_, _, .startFailed hOwner, hIdle _ nofun⟩ hMoves
        | call c next =>
            obtain ⟨response⟩ := c.answered
            exact absurd ⟨_, _, @Step.startCall _ _ _ _ response hOwner, hIdle _ nofun⟩ hMoves
      · exact ⟨.inl hOwner, h.idle, h.free, .inl hOwner⟩
  | shared _ h =>
      have hIdle (i : Nat) : s.canceller i = .idle := by
        by_contra hBusy
        exact hMoves (h.cancel_finishes hBusy)
      have hOwner : s.owner = .finished := by
        by_contra hGoing
        exact hMoves (h.owner_finishes hGoing)
      have hFree : s.holder = none := h.free_or_finishes.resolve_right hMoves
      obtain ⟨holders, hHolds, hStrong⟩ := h.counted
      have hNone : holders = ∅ := by
        apply Finset.eq_empty_of_forall_notMem
        intro i hi
        have := (hHolds i).mp hi
        simp [hIdle i, CancelPhase.Holds] at this
      refine ⟨.inr hOwner, hIdle, hFree, .inr ⟨h.shared, ?_⟩⟩
      simpa [hNone, hOwner, OwnerPhase.refs] using hStrong

/-! ### Every `cancel` returns once -/

theorem returns_step (step : Finishes s l t) (i : Nat) :
    l.returns i + (t.canceller i).pending = (s.canceller i).pending := by
  obtain ⟨step, hBegins⟩ := step
  cases step with
  | @upgrade j h' =>
      have hIdle := (hBegins j h').1
      simp [setCanceller] at hIdle
  | @upgradeFailed j h' => exact absurd rfl ((hBegins j h').2 _)
  | @lockCancel j h' | @cancelCall j _ _ _ h' | @unlockCancel j _ h' | @cancelRelease j _ _ h'
  | @cancelLast j _ h' | @cancelReleasingCall j _ _ _ _ h' | @cancelReleased j _ h' =>
      by_cases hj : i = j
      · subst hj
        simp [setCanceller, Label.returns, CancelPhase.pending, h']
      · rw [setCanceller_of_ne _ _ _ hj]
        simp [Label.returns, Ne.symm hj]
  | _ => exact Nat.zero_add _

theorem returns_run {later : List Label} (run : Run Finishes s later t) (i : Nat) :
    (later.map (Label.returns i)).sum + (t.canceller i).pending = (s.canceller i).pending := by
  induction run with
  | refl => simp
  | snoc _ step ih =>
      have hStep := returns_step step i
      rw [List.map_append, List.sum_append, List.map_singleton, List.sum_singleton]
      omega

end

end State

section

variable {start : Native (Except Error SessionCore)} {history : List Label} {s : State}

/-- From any reachable state of a handle, however its threads are interleaved
and whatever Windows answers: once no further `cancel` begins, every thread
comes to its end and the handle is released, and every `cancel` that was under
way has returned once. -/
theorem handle_settles (hStart : Opening start) (run : Run Step (State.init start) history s) :
    Inevitable Finishes s State.AtRest ∧
    ∀ later t, Run Finishes s later t → t.AtRest →
      ∀ i, (later.map (Label.returns i)).sum = (s.canceller i).pending := by
  obtain ⟨busy, hBusy⟩ := State.finite_busy run
  let Inv (t : State) : Prop :=
    (∀ i, i ∉ busy → t.canceller i = .idle) ∧ ∃ history, Run Step (State.init start) history t
  have hInit : Inv s := ⟨hBusy, history, run⟩
  have hFinite : Acc (Prod.GameAdd (flip OwnerPhase.Next) (· < ·))
      (s.owner, ∑ i ∈ busy, (s.canceller i).left) :=
    .prod_gameAdd (OwnerPhase.finite s.owner) (wellFounded_lt.apply _)
  constructor
  · refine Inevitable.of_progress (fun t : State => (t.owner, ∑ i ∈ busy, (t.canceller i).left))
      hFinite ?_ hInit ?_ ?_
    · rintro t l u ⟨hIdle, history, before⟩ step
      exact (State.Tracked.of_run hStart before).decreases hIdle step
    · rintro t l u ⟨hIdle, history, before⟩ step
      exact ⟨fun i hi => (step.2 i (hIdle i hi)).1, _, before.snoc step.1⟩
    · rintro t ⟨-, history, before⟩ hStuck
      exact (State.Tracked.of_run hStart before).atRest hStuck
  · intro later t after hRest i
    have hCount := State.returns_run after i
    rw [hRest.idle i] at hCount
    exact hCount

end

end

section

attribute [local instance] Platform.driveLetters

/-- The owner has dropped its session. Two `cancel`s are under way: one waits
for Windows with the mutex locked, and the other one for the mutex. -/
theorem handle_settles_waiting : ∃ s, s.holder = some (.canceller 0) ∧ s.owner = .finished ∧
    (∀ i, (s.canceller i).pending = if i < 2 then 1 else 0) ∧ Inevitable Finishes s State.AtRest ∧
    ∀ later t, Run Finishes s later t → t.AtRest →
      ∀ i, (later.map (Label.returns i)).sum = (s.canceller i).pending := by
  let key : SessionKey := ⟨List.replicate 32 0x30, by decide⟩
  have run : ∃ s, Run Step (State.init (SessionCore.join key).run)
      [.call .owner ⟨.rmJoinSession ⟨List.replicate 32 0x30 ++ [0]⟩, ⟨ERROR_SUCCESS, 3⟩⟩, .silent,
        .silent, .silent, .silent, .silent] s ∧ s.holder = some (.canceller 0) ∧
      s.owner = .finished ∧ ∀ i, (s.canceller i).pending = if i < 2 then 1 else 0 := by
    apply Exists.intro
    constructor
    apply Run.cons (.startCall rfl)
    apply Run.cons (.started rfl)
    apply Run.cons (@Step.upgrade _ _ 0 rfl (by trivial) one_ne_zero)
    apply Run.cons (@Step.upgrade _ _ 1 rfl (by trivial) (by simp [State.setCanceller]))
    apply Run.cons (@Step.lockCancel _ _ 0 rfl rfl)
    apply Run.cons (.ownerRelease (.inl rfl) rfl)
    exact .refl
    refine ⟨rfl, rfl, fun i => ?_⟩
    rcases i with _ | _ | n
    · rfl
    · rfl
    · rfl
  obtain ⟨s, run, hHolder, hOwner, hPending⟩ := run
  exact ⟨s, hHolder, hOwner, hPending, handle_settles (.join key) run⟩

end

end Cancellation
end RestartManager

import RestartManager.ApplicationRestart.Lease

/-! The lease over whole runs: one owner at a time, whose options are those
that Windows keeps, and who leaves the lease to the next one. -/
namespace RestartManager

open Interaction Mutex Transition

namespace ApplicationRestart

/-! ### The other threads -/

section

variable {history : List Label} {s t : State} {l : Label} {i j : Nat} {phase : Phase}

/-- Who made the registration changes with the last label. -/
theorem maker_snoc : maker (history ++ [l]) = l.makes (maker history) := by
  rw [maker, List.foldl_append]
  rfl

/-- What a thread keeps is decided by the last label that is about it. -/
theorem kept_snoc : kept i (history ++ [l]) = (l.kept? i).or (kept i history) := by
  rw [kept, kept, List.filterMap_append]
  cases hKept : l.kept? i with
  | none => simp [hKept]
  | some options => simp [hKept]

/-- A label is about its own agent. -/
theorem Label.kept?_of_ne (h : j ≠ l.agent) : l.kept? j = none := by
  unfold Label.kept?
  split
  · exact if_neg h.symm
  · rfl

theorem Label.CallsWindows.agent_eq (h : l.CallsWindows i) : l.agent = i := by
  unfold Label.CallsWindows at h
  split at h
  · exact h
  · exact h
  · exact absurd h id

theorem Move.phase_self (move : Move history s l t i phase) : t.phase i = phase := by
  rw [move.phase_eq, Function.update_self]

/-- A move leaves the other threads where they were. -/
theorem Move.phase_other (move : Move history s l t i phase) (hj : j ≠ i) :
    t.phase j = s.phase j := by
  rw [move.phase_eq, Function.update_of_ne hj]

/-- Only the thread that moves makes a call. -/
theorem Move.quiet_other (move : Move history s l t i phase) (hj : j ≠ i) : ¬l.CallsWindows j := by
  intro hCalls
  exact hj (hCalls.agent_eq.symm.trans move.agent)

/-- A move keeps the flag of the lease in step with its holder. -/
theorem Move.leased (move : Move history s l t i phase) (h : s.Leased) : t.Leased := by
  obtain ⟨holder, hOwned, hHolder⟩ := h
  have hOther (j : Nat) (hj : j ≠ i) : (t.phase j).Holds ↔ (s.phase j).Holds := by
    rw [move.phase_other hj]
  cases move.lease with
  | keep owned holds =>
      rw [← move.phase_self] at holds
      exact ⟨holder, owned.trans hOwned, hHolder.keep i rfl holds hOther⟩
  | take free owned holds =>
      rw [← move.phase_self] at holds
      have hNone : holder = none := by simpa [hOwned] using free
      exact ⟨some i, owned, hHolder.lock hNone rfl holds hOther⟩
  | release held owned left =>
      rw [← move.phase_self] at left
      exact ⟨none, owned, hHolder.unlock held rfl left hOther⟩

/-- What the holder does to the registration of Windows concerns nobody else. -/
theorem Move.fits_other (move : Move history s l t i phase) (h : Consistent history s) (hj : j ≠ i) :
    Fits j t.shared.windows (l.makes (maker history)) (s.phase j) := by
  rcases move.windows with ⟨hWindows, hMaker⟩ | hHolds
  · rw [hWindows, hMaker]
    exact h.fits j
  · obtain ⟨holder, -, hHolder⟩ := h.leased
    exact (h.fits j).of_not_holds fun hHolds' => hj (hHolder.same hHolds' hHolds)

/-- A thread whose call is not answered has not been answered before. -/
theorem Move.quiet (move : Move history s l t i phase)
    (hUnanswered : (t.phase j).Unanswered) :
    (s.phase j).Unanswered ∧ ¬l.CallsWindows j := by
  by_cases hj : j = i
  · subst hj
    rw [move.phase_self] at hUnanswered
    exact move.unanswered hUnanswered
  · rw [move.phase_other hj] at hUnanswered
    exact ⟨hUnanswered, move.quiet_other hj⟩

/-- A thread that lost the race stays out while others move. -/
theorem Move.lost_other (move : Move history s l t i phase) (hLost : (s.phase j).Lost) :
    (t.phase j).Lost ∧ ¬l.CallsWindows j := by
  by_cases hj : j = i
  · subst hj
    rw [move.phase_self]
    exact move.lost hLost
  · rw [move.phase_other hj]
    exact ⟨hLost, move.quiet_other hj⟩

/-- Every step keeps the invariant: one case for each move. -/
theorem Consistent.step (h : Consistent history s) (step : Step s l t) :
    Consistent (history ++ [l]) t := by
  obtain ⟨i, phase, move⟩ := h.move step
  have hBoth {j : Nat} (hBefore : ∀ l ∈ history, ¬l.CallsWindows j) (hNow : ¬l.CallsWindows j) :
      ∀ l' ∈ history ++ [l], ¬l'.CallsWindows j := by
    intro l' hMem
    rcases List.mem_append.mp hMem with hOld | hNew
    · exact hBefore l' hOld
    · rw [List.mem_singleton.mp hNew]
      exact hNow
  constructor
  case leased => exact move.leased h.leased
  case fits =>
    intro j
    rw [maker_snoc]
    by_cases hj : j = i
    · subst hj
      rw [move.phase_self]
      exact move.fits
    · rw [move.phase_other hj]
      exact move.fits_other h hj
  case current =>
    intro j options hOptions
    rw [kept_snoc]
    by_cases hj : j = i
    · subst hj
      rw [move.phase_self] at hOptions
      exact move.current options hOptions
    · rw [move.phase_other hj] at hOptions
      rw [Label.kept?_of_ne (move.agent ▸ hj)]
      exact h.current j options hOptions
  case quiet =>
    intro j hUnanswered
    obtain ⟨hBefore, hNow⟩ := move.quiet hUnanswered
    exact hBoth (h.quiet j hBefore) hNow
  case loser =>
    intro j hMem
    rcases List.mem_append.mp hMem with hOld | hNew
    · obtain ⟨hLost, hQuiet⟩ := h.loser j hOld
      obtain ⟨hStill, hNow⟩ := move.lost_other hLost
      exact ⟨hStill, hBoth hQuiet hNow⟩
    · obtain rfl := List.mem_singleton.mp hNew
      obtain rfl : j = i := move.agent
      obtain ⟨hUnanswered, hLost⟩ := move.loses rfl
      exact ⟨by rw [move.phase_self]; exact hLost, hBoth (h.quiet j hUnanswered) id⟩

theorem Consistent.init (windows : Option NativeRegistration) : Consistent [] (.init windows) where
  leased := ⟨none, rfl, fun i => iff_of_false (fun h => by cases h) id⟩
  fits _ := .idle
  current _ _ h := by cases h
  quiet _ _ _ h := absurd h List.not_mem_nil
  loser _ h := absurd h List.not_mem_nil

/-- By induction on the run. -/
theorem consistent_of_run {windows : Option NativeRegistration}
    (run : Run Step (.init windows) history s) : Consistent history s :=
  run.invariant (Consistent.init windows) fun _ _ _ _ hBefore step => hBefore.step step

theorem Phase.Armed.holds (h : phase.Armed) : phase.Holds := by
  unfold Phase.Armed at h
  split at h
  · trivial
  · trivial
  · trivial
  · obtain ⟨-, next, rfl⟩ := h
    exact ⟨_, _, rfl⟩
  · obtain ⟨-, next, rfl⟩ := h
    exact ⟨_, _, rfl⟩
  · exact absurd h id

end

/-! ### Whole teardowns and registrations -/

/-- A teardown of `i` that nothing interrupts, with any results of its native calls. -/
inductive Teardown (i : Nat) : List Label → Prop
  | drop (result : Int32) : Teardown i [.drop i, .call i ⟨.unregisterApplicationRestart, result⟩,
      .call i ⟨.store false, ()⟩, .ended i]
  | unregister (result : Int32) (h : result ≥ 0) : Teardown i [.unregister i,
      .call i ⟨.unregisterApplicationRestart, result⟩, .call i ⟨.store false, ()⟩, .ended i]
  | retry (first second : Int32) (h : ¬first ≥ 0) : Teardown i [.unregister i,
      .call i ⟨.unregisterApplicationRestart, first⟩, .call i ⟨.unregisterApplicationRestart, second⟩,
      .call i ⟨.store false, ()⟩, .ended i]

section

variable {s : State} {i : Nat} {options : ApplicationRestartOptions} {labels : List Label}

/-- However its native calls end, a teardown releases the flag. -/
theorem Teardown.run (h : Teardown i labels) (hPhase : s.phase i = .owning ⟨options, true⟩) :
    ∃ t, Run Step s labels t ∧ t.phase = Function.update s.phase i .gone ∧ t.shared.owned = false := by
  have hAt {f : Nat → Phase} {phase phase' : Phase} (h : phase = phase') :
      Function.update f i phase i = phase' := (Function.update_self ..).trans h
  cases h with
  | drop result =>
      refine ⟨_, .cons (.drop hPhase) (.cons (.dropCall (hAt rfl) trivial) (.cons
        (.dropCall (hAt rfl) trivial) (.cons (.dropped (hAt rfl)) .refl))), ?_, rfl⟩
      simp only [State.setPhase, Function.update_idem]
  | unregister result hResult =>
      obtain ⟨next, hUnregister, hMade, -⟩ := @unregister_spec options
      refine ⟨_, .cons (.unregister hPhase) (.cons (.unregisterCall (hAt (congrArg _ hUnregister)) trivial)
        (.cons (.unregisterCall (hAt (congrArg _ (hMade result hResult))) trivial) (.cons
          (.unregistered (hAt rfl)) .refl))), ?_, rfl⟩
      simp only [State.setPhase, Function.update_idem]
  | retry first second hFirst =>
      obtain ⟨next, hUnregister, -, hFailed⟩ := @unregister_spec options
      obtain ⟨error, hAgain⟩ := hFailed first hFirst
      refine ⟨_, .cons (.unregister hPhase) (.cons (.unregisterCall (hAt (congrArg _ hUnregister)) trivial)
        (.cons (.unregisterCall (hAt (congrArg _ hAgain)) trivial) (.cons
          (.unregisterCall (hAt rfl) trivial) (.cons (.unregistered (hAt rfl)) .refl)))), ?_, rfl⟩
      simp only [State.setPhase, Function.update_idem]

/-- The labels of a registration of `j` that nothing interrupts. -/
def registerLabels (j : Nat) (options : ApplicationRestartOptions) (result : Int32) : List Label :=
  [.register j options, .call j ⟨.compareExchange, true⟩,
    .call j ⟨.registerApplicationRestart (nativeCommandLine options.arguments) options.nativeFlags, result⟩,
    .returned j options (.ok ())]

/-- Whoever asks while the flag is clear gets the lease. -/
theorem registration_run (hFree : s.shared.owned = false) (hPhase : s.phase i = .idle)
    (hValid : validateArguments options.arguments = .ok ()) {result : Int32} (hResult : result ≥ 0) :
    ∃ t, Run Step s (registerLabels i options result) t ∧
      t.phase = Function.update s.phase i (.owning ⟨options, true⟩) ∧
      t.shared = ⟨true, some (.of options)⟩ := by
  have hAt {f : Nat → Phase} {phase phase' : Phase} (h : phase = phase') :
      Function.update f i phase i = phase' := (Function.update_self ..).trans h
  have hAsks : ApplicationRestartRegistration.register options = .call .compareExchange
      fun exchanged => if exchanged then ApplicationRestartRegistration.registerLeased options
        else .done (.error applicationRestartInUse) := by
    unfold ApplicationRestartRegistration.register
    rw [hValid]
    rfl
  obtain ⟨next, hLeased, hMade, -⟩ := @registerLeased_spec options
  have hAnswered : s.shared.Answers .compareExchange true := by simp [Shared.Answers, hFree]
  refine ⟨_, .cons (.register options hPhase) (.cons (.registerCall (hAt (congrArg _ hAsks)) hAnswered)
    (.cons (.registerCall (hAt (congrArg _ hLeased)) trivial) (.cons
      (.registered (hAt (congrArg _ (hMade result hResult)))) .refl))), ?_, ?_⟩
  · simp only [State.setPhase, Function.update_idem]
  · exact (after_register_made hResult).trans (by simp [Shared.after, NativeRegistration.of, State.setPhase])

end

/-! ### Every run -/

/-- What holds after any run, whatever the native calls of its threads returned. -/
structure ExclusiveLease (history : List Label) (s : State) : Prop where
  one_armed : ∀ i j, (s.phase i).Armed → (s.phase j).Armed → i = j
  one_holder : ∀ i j, (s.phase i).Holds → (s.phase j).Holds → i = j
  armed_holds : ∀ i, (s.phase i).Armed → (s.phase i).Holds
  owned_iff : s.shared.owned = true ↔ ∃ i, (s.phase i).Holds
  /-- Who does not get the lease makes no native call, before or after. -/
  loser : ∀ i, .call i ⟨.compareExchange, false⟩ ∈ history → ∀ l ∈ history, ¬l.CallsWindows i
  current : ∀ i registration, s.phase i = .owning registration →
    kept i history = some registration.options ∧ s.shared.windows = some (.of registration.options)
  /-- A native unregister is asked to clear only what its own thread registered last. -/
  own_teardown : ∀ first i result second,
    history = first ++ .call i ⟨.unregisterApplicationRestart, result⟩ :: second → maker first = some i
  released : ∀ i registration labels, s.phase i = .owning registration → Teardown i labels →
    ∃ t, Run Step s labels t ∧ t.phase = Function.update s.phase i .gone ∧ t.shared.owned = false
  available : ∀ i options result, s.shared.owned = false → s.phase i = .idle →
    validateArguments options.arguments = .ok () → result ≥ 0 →
    ∃ t, Run Step s (registerLabels i options result) t ∧
      t.phase = Function.update s.phase i (.owning ⟨options, true⟩) ∧
      t.shared = ⟨true, some (.of options)⟩

section

variable {windows : Option NativeRegistration} {history : List Label} {s t : State}

/-- The flag is set exactly while some thread holds the lease. -/
theorem Consistent.owned_iff (h : Consistent history s) :
    s.shared.owned = true ↔ ∃ i, (s.phase i).Holds := by
  obtain ⟨holder, hOwned, hHolder⟩ := h.leased
  rw [hOwned, Option.isSome_iff_exists]
  exact exists_congr hHolder

/-- The lease has one holder, so no two threads are inside the native calls at once. -/
theorem Consistent.same (h : Consistent history s) {i j : Nat} (hi : (s.phase i).Holds)
    (hj : (s.phase j).Holds) : i = j := by
  obtain ⟨holder, -, hHolder⟩ := h.leased
  exact hHolder.same hi hj

/-- The registration that is owned is armed, and is the one that was made. -/
theorem Consistent.owning (h : Consistent history s) {i : Nat}
    {registration : ApplicationRestartRegistration} (hPhase : s.phase i = .owning registration) :
    registration.armed = true ∧ Made i s.shared.windows (maker history) registration.options := by
  have hFits := h.fits i
  rw [hPhase] at hFits
  cases hFits with
  | owning made => exact ⟨rfl, made⟩

/-- Only a teardown unregisters, and only while what it registered is in force. -/
theorem Consistent.unregisters (h : Consistent history s) {i : Nat} {result : Int32}
    (step : Step s (.call i ⟨.unregisterApplicationRestart, result⟩) t) : maker history = some i := by
  have hFits := h.fits i
  cases step with
  | registerCall hPhase answered =>
      rw [hPhase] at hFits
      cases hFits
  | updateCall hPhase answered =>
      rw [hPhase] at hFits
      cases hFits
  | unregisterCall hPhase answered =>
      rw [hPhase] at hFits
      cases hFits with
      | unregistering hTearing made => exact (made _ rfl).maker_eq
  | dropCall hPhase answered =>
      rw [hPhase] at hFits
      cases hFits with
      | dropping hTearing made => exact (made _ rfl).maker_eq

/-- Any number of threads may register, update, unregister and drop, in any
interleaving, and any of their native calls may fail. -/
theorem exclusive_lease (run : Run Step (.init windows) history s) : ExclusiveLease history s := by
  have h := consistent_of_run run
  constructor
  case one_armed => exact fun i j hi hj => h.same hi.holds hj.holds
  case one_holder => exact fun i j => h.same
  case armed_holds => exact fun i hArmed => hArmed.holds
  case owned_iff => exact h.owned_iff
  case loser => exact fun i hLost => (h.loser i hLost).2
  case current =>
    intro i registration hPhase
    exact ⟨h.current i _ (by rw [hPhase]; rfl), (h.owning hPhase).2.windows_eq⟩
  case own_teardown =>
    intro first i result second hHistory
    rw [hHistory] at run
    obtain ⟨u, u', before, step, -⟩ := run.split
    exact (consistent_of_run before).unregisters step
  case released =>
    intro i registration labels hPhase teardown
    obtain ⟨hArmed, -⟩ := h.owning hPhase
    obtain ⟨options, armed⟩ := registration
    obtain rfl : armed = true := hArmed
    exact teardown.run hPhase
  case available =>
    intro i options result hFree hPhase hValid hResult
    exact registration_run hFree hPhase hValid hResult

/-- The first owner is gone, its two attempts to unregister both failed, and
the second has the lease. -/
theorem exclusive_lease_handed_over : ∃ history s, .ended 0 ∈ history ∧ (s.phase 1).Armed ∧
    ExclusiveLease history s := by
  have hValid : validateArguments ({} : ApplicationRestartOptions).arguments = .ok () := rfl
  have hMade : (0 : Int32) ≥ 0 := by decide
  have hFailed : ¬(-1 : Int32) ≥ 0 := by decide
  obtain ⟨t, first, hFirst, -⟩ := @registration_run (.init none) 0 {} rfl rfl hValid 0 hMade
  have hOwning : t.phase 0 = .owning ⟨{}, true⟩ := by rw [hFirst, Function.update_self]
  obtain ⟨u, teardown, hGone, hFree⟩ := (Teardown.retry (-1) (-1) hFailed).run hOwning
  have hIdle : u.phase 1 = .idle := by
    rw [hGone, hFirst]
    rfl
  obtain ⟨v, second, hSecond, -⟩ := registration_run hFree hIdle hValid hMade
  refine ⟨_, v, ?_, ?_, exclusive_lease ((first.trans teardown).trans second)⟩
  · simp
  · rw [hSecond, Function.update_self]
    rfl

end

end ApplicationRestart
end RestartManager

import RestartManager.Sys.CallbackRuns

/-! Operations that are started inside a progress callback. The callback runs
with the mutex of the slot locked, and waits for them. An install only tries
the mutex, so they are refused at once, and no two threads wait for one
another. -/
namespace RestartManager

open Interaction Mutex Transition

namespace CallbackSlot

/-- Between the start of an operation and its return to the caller. -/
def OpPhase.InProgress : OpPhase → Prop
  | .ready | .refused | .finished _ => False
  | _ => True

/-- The operation was given its lease. -/
def OpPhase.Granted : OpPhase → Prop
  | .ready | .installing | .refused => False
  | _ => True

/-- The most steps that an operation can still take, once it has begun. -/
def OpPhase.left : OpPhase → Nat
  | .ready | .refused | .finished _ => 0
  | .released _ => 1
  | .releasing _ => 2
  | .returned _ => 3
  | .native => 4
  | .leased => 5
  | .installing => 6

section

variable [Platform] {σ : Type}

/-- The callback of the report is running. -/
def ReportPhase.Running : ReportPhase σ → Prop
  | .calling .. => True
  | _ => False

/-- The most steps that a report can still take, those of the callback apart. -/
def ReportPhase.left : ReportPhase σ → Nat
  | .unraised | .returned | .unwound => 0
  | .calling .. => 1
  | .raised .. => 2

/-- A step of the callback itself. -/
inductive ReportPhase.Calls : ReportPhase σ → ReportPhase σ → Prop
  | call {i target : Nat} {percent : UInt32} {c : Call}
      {next : c.Response → Native (Except Payload (Option (CallbackState σ)))} (response : c.Response) :
      Calls (.calling i percent target (.call c next)) (.calling i percent target (next response))

theorem ReportPhase.calls_wellFounded : WellFounded (flip (Calls (σ := σ))) := by
  constructor
  intro phase
  cases phase with
  | calling i percent target rest =>
      induction rest with
      | done final =>
          constructor
          rintro _ ⟨⟩
      | call c next ih =>
          constructor
          rintro _ ⟨response⟩
          exact ih response
  | unraised | raised | returned | unwound =>
      constructor
      rintro _ ⟨⟩

variable (callback : Nat → Closure σ) (parent : Nat → Option Nat)

/-- A step where `parent i` is the report whose callback starts the operation
`i`. The operation moves only while that callback runs, and the callback goes
on only when the operation has returned. -/
structure Nests (s : State σ) (l : Label) (t : State σ) : Prop where
  step : Step callback s l t
  inside : ∀ i r, parent i = some r → t.op i ≠ s.op i → (s.report r).Running
  waits : ∀ i r, parent i = some r → (s.op i).InProgress → t.report r = s.report r

/-- A step with which no operation begins and no report is raised. -/
structure Settles (s : State σ) (l : Label) (t : State σ) : Prop where
  nests : Nests callback parent s l t
  started : ∀ i, s.op i = .ready → t.op i = .ready
  raised : ∀ r, s.report r = .unraised → t.report r = .unraised

/-- No operation is under way, nor a report, and the slot is free. -/
structure State.AtRest (s : State σ) : Prop where
  op : ∀ i, ¬(s.op i).InProgress
  report : ∀ r, s.report r = .unraised ∨ s.report r = .returned
  slot : s.slot = none
  guard : s.guard = none

/-- An operation inside a callback has not begun, or was refused. -/
def State.Denied (s : State σ) : Prop :=
  ∀ i r, parent i = some r → s.op i = .ready ∨ s.op i = .refused

variable {callback parent} {s t : State σ} {l : Label} {history : List Label}

/-- The mutex is locked while a callback runs. -/
theorem Consistent.running_guard (h : Consistent s) {r : Nat} (hRunning : (s.report r).Running) :
    s.guard = some (.report r) := by
  cases hPhase : s.report r with
  | calling i percent target rest => exact (h.exclusive _).mpr ⟨i, percent, target, rest, hPhase⟩
  | unraised | raised | returned | unwound => simp [ReportPhase.Running, hPhase] at hRunning

theorem Nests.denied (h : Consistent s) (hDenied : s.Denied parent) (step : Nests callback parent s l t) :
    t.Denied parent := by
  intro i r hParent
  by_cases hMoved : t.op i = s.op i
  · rw [hMoved]
    exact hDenied i r hParent
  · have hGuard := h.running_guard (step.inside i r hParent hMoved)
    have hBefore := hDenied i r hParent
    have hOther {j : Nat} {phase : OpPhase} (hOp : t.op = Function.update s.op j phase)
        (hPhase : s.op j ≠ .ready) (hRefused : s.op j ≠ .refused) : False := by
      by_cases hj : i = j
      · subst hj
        exact hBefore.elim hPhase hRefused
      · rw [hOp, Function.update_of_ne hj] at hMoved
        exact hMoved rfl
    cases step.step with
    | tryLock _ free => simp [hGuard] at free
    | @wouldBlock j =>
        by_cases hj : i = j
        · subst hj
          exact .inr (Function.update_self ..)
        · exact absurd (Function.update_of_ne hj ..) hMoved
    | occupied h' | install h' | start h' | return_ h' | lockRelease h' | release h' | finish h' =>
        exact (hOther rfl (by simp [h']) (by simp [h'])).elim
    | raise | deliver | lose | callback | deliverEnd | unwind => exact absurd rfl hMoved

/-- What holds of every state that nested operations lead to. -/
structure Nested (parent : Nat → Option Nat) (s : State σ) : Prop where
  consistent : Consistent s
  denied : s.Denied parent

theorem Nested.init (captured : Nat → σ) : Nested parent (State.init captured) :=
  ⟨.init captured, fun _ _ _ => .inl rfl⟩

theorem Nested.step (h : Nested parent s) (step : Nests callback parent s l t) : Nested parent t :=
  ⟨h.consistent.step step.step, step.denied h.consistent h.denied⟩

theorem Nested.of_run {captured : Nat → σ}
    (run : Run (Nests callback parent) (State.init captured) history s) : Nested parent s := by
  induction run with
  | refl => exact .init captured
  | snoc _ step ih => exact ih.step step

/-- A step moves one operation, or one report, or only runs a callback. -/
theorem Settles.moves (h : Consistent s) (step : Settles callback parent s l t) :
    (t.report = s.report ∧ ∃ i phase, t.op = Function.update s.op i phase ∧
      phase.left < (s.op i).left) ∨
    (t.op = s.op ∧ ∃ r phase, t.report = Function.update s.report r phase ∧
      phase.left < (s.report r).left) ∨
    (t.op = s.op ∧ t.guard = s.guard ∧ ∃ r phase, s.guard = some (.report r) ∧
      t.report = Function.update s.report r phase ∧ phase.left = (s.report r).left ∧
      (s.report r).Calls phase) := by
  cases step.nests.step with
  | @tryLock i h' | @wouldBlock i h' =>
      have hReady := step.started i h'
      simp [State.setOp] at hReady
  | occupied h' | install h' | start h' | return_ h' | lockRelease h' | release h' | finish h' =>
      exact .inl ⟨rfl, _, _, rfl, by simp [h', OpPhase.left]⟩
  | @raise r _ _ _ h' =>
      have hUnraised := step.raised r h'
      simp [State.setReport] at hUnraised
  | deliver h' | lose h' | deliverEnd h' | unwind h' =>
      exact .inr (.inl ⟨rfl, _, _, rfl, by simp [h', ReportPhase.left]⟩)
  | @callback r i target percent c next response h' =>
      have hRunning : (s.report r).Running := by
        rw [h']
        trivial
      refine .inr (.inr ⟨rfl, rfl, r, _, h.running_guard hRunning, rfl, ?_, ?_⟩)
      · rw [h']
        rfl
      · rw [h']
        exact .call response

/-! ### Nobody waits for ever -/

/-- The callback that is running, in the report that has the mutex locked. -/
def State.running (s : State σ) : ReportPhase σ :=
  match s.guard with
  | some (.report r) => s.report r
  | _ => .returned

/-- The steps that the operations and the reports have left, those of callbacks apart. -/
def State.left (ops reports : Finset Nat) (s : State σ) : Nat :=
  ∑ i ∈ ops, (s.op i).left + ∑ r ∈ reports, (s.report r).left

theorem Settles.decreases (h : Consistent s) {ops reports : Finset Nat}
    (hOps : ∀ i, i ∉ ops → s.op i = .ready) (hReports : ∀ r, r ∉ reports → s.report r = .unraised)
    (step : Settles callback parent s l t) :
    flip (Prod.Lex (· < ·) (flip ReportPhase.Calls)) (s.left ops reports, s.running)
      (t.left ops reports, t.running) := by
  obtain ⟨hSame, i, phase, hMoved, hLess⟩ | ⟨hSame, r, phase, hMoved, hLess⟩ |
    ⟨hSame, hGuard, r, phase, hLocked, hMoved, hLeft, hCalls⟩ := step.moves h
  · have hMem : i ∈ ops := by
      by_contra hNot
      simp [hOps i hNot, OpPhase.left] at hLess
    apply Prod.Lex.left
    have hSum := sum_update_lt hMem hLess
    rw [State.left, State.left, hSame, hMoved]
    omega
  · have hMem : r ∈ reports := by
      by_contra hNot
      simp [hReports r hNot, ReportPhase.left] at hLess
    apply Prod.Lex.left
    have hSum := sum_update_lt hMem hLess
    rw [State.left, State.left, hSame, hMoved]
    omega
  · have hCount : t.left ops reports = s.left ops reports := by
      have hEach (j : Nat) : (t.report j).left = (s.report j).left := by
        by_cases hj : j = r
        · rw [hMoved, hj, Function.update_self, hLeft]
        · rw [hMoved, Function.update_of_ne hj]
      simp only [State.left, hSame, hEach]
    have hRunning : s.running = s.report r ∧ t.running = phase := by
      simp [State.running, hGuard, hLocked, hMoved]
    rw [hCount, hRunning.1, hRunning.2]
    exact Prod.Lex.right _ hCalls

/-- A step of an operation that no callback waits for. -/
theorem Nested.settles_op (h : Nested parent s) {i : Nat} {phase : OpPhase} (step : Step callback s l t)
    (hOp : t.op = Function.update s.op i phase) (hReport : t.report = s.report)
    (hGoing : (s.op i).InProgress) : Settles callback parent s l t := by
  have hTop : ∀ r, parent i ≠ some r := by
    intro r hParent
    rcases h.denied i r hParent with h' | h' <;> simp [OpPhase.InProgress, h'] at hGoing
  have hOther {j : Nat} (hj : t.op j ≠ s.op j) : j = i := by
    by_contra hNe
    rw [hOp, Function.update_of_ne hNe] at hj
    exact hj rfl
  refine ⟨⟨step, ?_, fun _ r _ _ => by rw [hReport]⟩, ?_, fun r hr => by rw [hReport, hr]⟩
  · intro j r hParent hMoved
    exact absurd (hOther hMoved ▸ hParent) (hTop r)
  · intro j hReady
    by_cases hj : j = i
    · subst hj
      simp [OpPhase.InProgress, hReady] at hGoing
    · rw [hOp, Function.update_of_ne hj, hReady]

/-- A step of a report: its callback waits for no operation. -/
theorem Nested.settles_report (h : Nested parent s) {r : Nat} {phase : ReportPhase σ}
    (step : Step callback s l t) (hOp : t.op = s.op)
    (hReport : t.report = Function.update s.report r phase) (hRaised : s.report r ≠ .unraised) :
    Settles callback parent s l t := by
  refine ⟨⟨step, fun i r' _ hMoved => absurd (by rw [hOp]) hMoved, ?_⟩, fun i hi => by rw [hOp, hi], ?_⟩
  · intro i r' hParent hGoing
    rcases h.denied i r' hParent with h' | h' <;> simp [OpPhase.InProgress, h'] at hGoing
  · intro r' hUnraised
    by_cases hr : r' = r
    · exact absurd (hr ▸ hUnraised) hRaised
    · rw [hReport, Function.update_of_ne hr, hUnraised]

/-- The thread that has the mutex locked can go on. -/
theorem Nested.guard_settles (h : Nested parent s) {g : Guard} (hGuard : s.guard = some g) :
    ∃ l t, Settles callback parent s l t := by
  have hInside := (h.consistent.exclusive g).mp hGuard
  cases g with
  | op i =>
      obtain hPhase | ⟨code, hPhase⟩ := hInside
      · have hGoing : (s.op i).InProgress := by simp [OpPhase.InProgress, hPhase]
        by_cases hSlot : s.slot = none
        · exact ⟨_, _, h.settles_op (.install hPhase hSlot) rfl rfl hGoing⟩
        · exact ⟨_, _, h.settles_op (.occupied hPhase hSlot) rfl rfl hGoing⟩
      · have hGoing : (s.op i).InProgress := by simp [OpPhase.InProgress, hPhase]
        exact ⟨_, _, h.settles_op (.release hPhase) rfl rfl hGoing⟩
  | report r =>
      obtain ⟨i, percent, target, rest, hPhase⟩ := hInside
      have hRaised : s.report r ≠ .unraised := by simp [hPhase]
      obtain ⟨p, rfl⟩ := h.consistent.trampoline r i percent target rest hPhase
      cases p with
      | done final => exact ⟨_, _, h.settles_report (.deliverEnd hPhase) rfl rfl hRaised⟩
      | call c next =>
          obtain ⟨response⟩ := c.answered
          exact ⟨_, _, h.settles_report (@Step.callback _ _ _ _ _ _ _ _ _ _ response hPhase) rfl rfl
            hRaised⟩

/-- Where nothing can go on, nothing has anything left to do. -/
theorem Nested.atRest (h : Nested parent s) (hStuck : ∀ l t, ¬Settles callback parent s l t) :
    s.AtRest := by
  have hMoves : ¬∃ l t, Settles callback parent s l t := fun ⟨l, t, step⟩ => hStuck l t step
  have hGuard : s.guard = none := by
    cases hLocked : s.guard with
    | none => rfl
    | some g => exact absurd (h.guard_settles hLocked) hMoves
  have hReport (r : Nat) : s.report r = .unraised ∨ s.report r = .returned := by
    cases hPhase : s.report r with
    | unraised => exact .inl rfl
    | returned => exact .inr rfl
    | unwound => exact absurd hPhase (h.consistent.contained r)
    | raised i percent =>
        have hFound := h.consistent.found hPhase
        have hRaised : s.report r ≠ .unraised := by simp [hPhase]
        exact absurd ⟨_, _, h.settles_report (.deliver hPhase hGuard hFound) rfl rfl hRaised⟩ hMoves
    | calling i percent target rest =>
        have hInside : s.guard = some (.report r) := h.consistent.running_guard (by rw [hPhase]; trivial)
        simp [hGuard] at hInside
  have hOp (i : Nat) : ¬(s.op i).InProgress := by
    intro hGoing
    have hOver : ¬s.Guards (.op i) := h.consistent.exclusive.free hGuard
    cases hPhase : s.op i with
    | ready | refused | finished => simp [OpPhase.InProgress, hPhase] at hGoing
    | installing => exact hOver (.inl hPhase)
    | releasing code => exact hOver (.inr ⟨code, hPhase⟩)
    | leased => exact hMoves ⟨_, _, h.settles_op (.start hPhase) rfl rfl hGoing⟩
    | returned code => exact hMoves ⟨_, _, h.settles_op (.lockRelease hPhase hGuard) rfl rfl hGoing⟩
    | released code => exact hMoves ⟨_, _, h.settles_op (.finish hPhase) rfl rfl hGoing⟩
    | native =>
        have hQuiet (r : Nat) : ¬(s.report r).Pending i := by
          rcases hReport r with h' | h' <;> simp [ReportPhase.Pending, h']
        exact hMoves ⟨_, _, h.settles_op (@Step.return_ _ _ _ _ _ ERROR_SUCCESS hPhase hQuiet) rfl rfl
          hGoing⟩
  refine ⟨hOp, hReport, ?_, hGuard⟩
  cases hSlot : s.slot with
  | none => rfl
  | some i =>
      have hHolds := (h.consistent.slot i).mp hSlot
      cases hPhase : s.op i <;> simp [OpPhase.Holds, hPhase] at hHolds
      all_goals exact absurd (by simp [OpPhase.InProgress, hPhase]) (hOp i)

theorem OpPhase.Granted.step {i : Nat} (h : (s.op i).Granted) (step : Step callback s l t) :
    (t.op i).Granted := by
  have hSet {j : Nat} {phase : OpPhase} (hOp : t.op = Function.update s.op j phase)
      (hPhase : (s.op j).Granted → phase.Granted) : (t.op i).Granted := by
    by_cases hj : i = j
    · subst hj
      rw [hOp, Function.update_self]
      exact hPhase h
    · rwa [hOp, Function.update_of_ne hj]
  cases step with
  | tryLock h' | wouldBlock h' | occupied h' => exact hSet rfl (by simp [OpPhase.Granted, h'])
  | install | start | return_ | lockRelease | release | finish => exact hSet rfl fun _ => trivial
  | raise | deliver | lose | callback | deliverEnd | unwind => exact h

omit [Platform] in
theorem OpPhase.Granted.finished {phase : OpPhase} (h : phase.Granted) (hOver : ¬phase.InProgress) :
    ∃ outcome, phase = .finished outcome := by
  cases phase with
  | finished outcome => exact ⟨outcome, rfl⟩
  | ready | installing | refused => exact h.elim
  | leased | native | returned | releasing | released => exact absurd trivial hOver

/-- Finitely many operations have begun, and finitely many reports were raised. -/
theorem finite_begun {captured : Nat → σ}
    (run : Run (Nests callback parent) (State.init captured) history s) :
    ∃ ops reports : Finset Nat, (∀ i, i ∉ ops → s.op i = .ready) ∧
      ∀ r, r ∉ reports → s.report r = .unraised := by
  obtain ⟨ops, hOps⟩ := run.finite_moved State.op (fun _ => rfl) fun s l t step => by
    cases step.step with
    | @tryLock i | @wouldBlock i | @occupied i | @install i | @start i | @return_ i | @lockRelease i
    | @release i | @finish i => exact ⟨i, fun j hj => Function.update_of_ne hj ..⟩
    | _ => exact ⟨0, fun _ _ => rfl⟩
  obtain ⟨reports, hReports⟩ :=
    run.finite_moved State.report (fun _ => rfl) fun s l t step => by
      cases step.step with
      | @raise r | @deliver r | @lose r | @callback r | @deliverEnd r | @unwind r =>
          exact ⟨r, fun j hj => Function.update_of_ne hj ..⟩
      | _ => exact ⟨0, fun _ _ => rfl⟩
  exact ⟨ops, reports, hOps, hReports⟩

variable (callback parent) in
/-- What holds in every state that operations inside and outside callbacks lead to. -/
structure NestedCallbacks (s : State σ) : Prop where
  /-- An operation inside a callback never has the mutex, nor the slot. -/
  denied : ∀ i r, parent i = some r → s.op i = .ready ∨ s.op i = .refused
  /-- It does not wait: at any moment of the callback, it can be refused. -/
  refused : ∀ i r, parent i = some r → (s.report r).Running → s.op i = .ready →
    Nests callback parent s (.refuse i) (s.setOp i .refused)
  /-- Nobody waits for ever: once no operation begins and no report is raised,
  everything comes to rest, and what was granted the slot returns. -/
  settles : Inevitable (Settles callback parent) s fun t =>
    t.AtRest ∧ ∀ i, (s.op i).Granted → ∃ outcome, t.op i = .finished outcome

/-- Assembled from the two invariants, at the callback that is running and at every
nested operation. -/
theorem nested_callbacks {captured : Nat → σ}
    (run : Run (Nests callback parent) (State.init captured) history s) :
    NestedCallbacks callback parent s where
  denied := (Nested.of_run run).denied
  refused i r hParent hRunning hReady := by
    have hGuard := (Nested.of_run run).consistent.running_guard hRunning
    refine ⟨.wouldBlock hReady (by simp [hGuard]), fun j r' hParent' hMoved => ?_, fun _ _ _ _ => rfl⟩
    by_cases hj : j = i
    · subst hj
      cases hParent.symm.trans hParent'
      exact hRunning
    · exact absurd (Function.update_of_ne hj ..) hMoved
  settles := by
    obtain ⟨ops, reports, hOps, hReports⟩ := finite_begun run
    let Inv (t : State σ) : Prop := Nested parent t ∧ (∀ i, i ∉ ops → t.op i = .ready) ∧
      (∀ r, r ∉ reports → t.report r = .unraised) ∧ ∀ i, (s.op i).Granted → (t.op i).Granted
    have hInit : Inv s := ⟨.of_run run, hOps, hReports, fun _ h => h⟩
    have hFinite : Acc (Prod.Lex (· < ·) (flip ReportPhase.Calls)) (s.left ops reports, s.running) :=
      Prod.lexAccessible (wellFounded_lt.apply _) ReportPhase.calls_wellFounded.apply _
    refine Inevitable.of_progress (fun t => (t.left ops reports, t.running)) hFinite ?_ hInit ?_ ?_
    · rintro t l u ⟨h, hOps, hReports, -⟩ step
      exact step.decreases h.consistent hOps hReports
    · rintro t l u ⟨h, hOps, hReports, hGranted⟩ step
      exact ⟨h.step step.nests, fun i hi => step.started i (hOps i hi),
        fun r hr => step.raised r (hReports r hr),
        fun i hi => (hGranted i hi).step step.nests.step⟩
    · rintro t ⟨h, -, -, hGranted⟩ hStuck
      have hRest := h.atRest hStuck
      exact ⟨hRest, fun i hi => (hGranted i hi).finished (hRest.op i)⟩

end

section

attribute [local instance] Platform.driveLetters

/-- The callback of the operation 0 is running, and starts the operation 1. -/
theorem nested_callbacks_running : ∃ s : State Nat, (s.report 0).Running ∧ (s.op 0).Granted ∧
    NestedCallbacks (fun _ => counting) (fun i => if i = 1 then some 0 else none) s := by
  have run : ∃ s, Run (Nests (fun _ => counting) fun i => if i = 1 then some 0 else none)
      (State.init fun _ => 0) [.silent, .silent, .start 0, .raise 0 0 50, .deliver 0 0 50 0] s ∧
      (s.report 0).Running ∧ (s.op 0).Granted := by
    have outside {s t : State Nat} {l : Label} (step : Step (fun _ => counting) s l t)
        (hReady : s.op 1 = .ready) (hSame : t.op 1 = s.op 1) :
        Nests (fun _ => counting) (fun i => if i = 1 then some 0 else none) s l t := by
      have hInside {i r : Nat} (hParent : (if i = 1 then some 0 else none) = some r) : i = 1 := by
        by_contra hi
        simp [hi] at hParent
      refine ⟨step, fun i r hParent hMoved => ?_, fun i r hParent hGoing => ?_⟩
      · exact absurd (hInside hParent ▸ hSame) hMoved
      · rw [hInside hParent, hReady] at hGoing
        exact hGoing.elim
    apply Exists.intro
    constructor
    apply Run.cons (outside (@Step.tryLock _ _ _ _ 0 rfl rfl) rfl rfl)
    apply Run.cons (outside (@Step.install _ _ _ _ 0 rfl rfl) rfl rfl)
    apply Run.cons (outside (@Step.start _ _ _ _ 0 rfl) rfl rfl)
    apply Run.cons (outside (@Step.raise _ _ _ _ 0 0 50 rfl rfl) rfl rfl)
    apply Run.cons (outside (@Step.deliver _ _ _ _ 0 0 0 50 rfl rfl rfl) rfl rfl)
    exact .refl
    exact ⟨trivial, trivial⟩
  obtain ⟨s, run, hRunning, hGranted⟩ := run
  exact ⟨s, hRunning, hGranted, nested_callbacks run⟩

end

end CallbackSlot
end RestartManager

import Mathlib.Logic.Function.Basic
import RestartManager.Interaction.Mutex
import RestartManager.Interaction.Transition
import RestartManager.Sys.Callback

/-! The slot through which Windows reaches a progress closure. It is one for
the whole process. Operations and reports of any number of threads interleave
here, and whoever reads or writes the slot has its mutex locked. -/
namespace RestartManager

open Interaction Mutex Transition

namespace CallbackSlot

/-- Who has the mutex locked. -/
inductive Guard
  | op (i : Nat)
  | report (r : Nat)
  deriving DecidableEq

/-- The program counter of an operation in `run_with_callback`. -/
inductive OpPhase
  | ready
  | installing
  | refused
  | leased
  | native
  | returned (code : UInt32)
  | releasing (code : UInt32)
  | released (code : UInt32)
  | finished (outcome : Except Payload (SysResult Unit))

/-- From the install of its lease to the end of its release. -/
def OpPhase.Holds : OpPhase → Prop
  | .leased | .native | .returned _ | .releasing _ => True
  | _ => False

section

variable [Platform] {σ : Type}

/-- The program counter of a report in `callback_trampoline`. A report is
raised by the native call of the operation `i`, and calls what it finds in
the slot. -/
inductive ReportPhase (σ : Type)
  | unraised
  | raised (i : Nat) (percent : UInt32)
  | calling (i : Nat) (percent : UInt32) (target : Nat)
      (rest : Native (Except Payload (Option (CallbackState σ))))
  | returned
  | unwound

/-- The native call of `i` has not seen the report return. -/
def ReportPhase.Pending (i : Nat) : ReportPhase σ → Prop
  | .raised j _ | .calling j _ _ _ => j = i
  | _ => False

/-- The slot holds a pointer to the state of an operation. -/
structure State (σ : Type) where
  slot : Option Nat
  guard : Option Guard
  op : Nat → OpPhase
  report : Nat → ReportPhase σ
  state : Nat → CallbackState σ

namespace State

def setOp (s : State σ) (i : Nat) (phase : OpPhase) : State σ :=
  { s with op := Function.update s.op i phase }

def setReport (s : State σ) (r : Nat) (phase : ReportPhase σ) : State σ :=
  { s with report := Function.update s.report r phase }

def init (captured : Nat → σ) : State σ where
  slot := none
  guard := none
  op _ := .ready
  report _ := .unraised
  state i := { captured := captured i, panic := none }

end State

inductive Label
  | refuse (i : Nat)
  /-- The native call of the operation begins. -/
  | start (i : Nat)
  | raise (r i : Nat) (percent : UInt32)
  /-- A report of `i` runs the callback of `target`. -/
  | deliver (r i : Nat) (percent : UInt32) (target : Nat)
  /-- A report finds the slot empty. -/
  | lose (r : Nat)
  | callback (target : Nat) (event : Event)
  /-- A panic leaves the trampoline, into the native frames. -/
  | unwind (r : Nat) (payload : Payload)
  | return_ (i : Nat) (code : UInt32)
  | release (i : Nat)
  | silent

variable (callback : Nat → Closure σ)

/-- One step of some thread. Windows raises reports between the start and the
return of a native call, and waits for them before it returns. -/
inductive Step : State σ → Label → State σ → Prop
  | tryLock {s : State σ} {i : Nat} (h : s.op i = .ready) (free : s.guard = none) :
      Step s .silent ({ s with guard := some (.op i) }.setOp i .installing)
  | wouldBlock {s : State σ} {i : Nat} (h : s.op i = .ready) (locked : s.guard ≠ none) :
      Step s (.refuse i) (s.setOp i .refused)
  | occupied {s : State σ} {i : Nat} (h : s.op i = .installing) (taken : s.slot ≠ none) :
      Step s (.refuse i) ({ s with guard := none }.setOp i .refused)
  | install {s : State σ} {i : Nat} (h : s.op i = .installing) (empty : s.slot = none) :
      Step s .silent ({ s with slot := some i, guard := none }.setOp i .leased)
  | start {s : State σ} {i : Nat} (h : s.op i = .leased) : Step s (.start i) (s.setOp i .native)
  | raise {s : State σ} {r i : Nat} {percent : UInt32} (h : s.op i = .native)
      (fresh : s.report r = .unraised) :
      Step s (.raise r i percent) (s.setReport r (.raised i percent))
  | deliver {s : State σ} {r i target : Nat} {percent : UInt32}
      (h : s.report r = .raised i percent) (free : s.guard = none) (found : s.slot = some target) :
      Step s (.deliver r i percent target) ({ s with guard := some (.report r) }.setReport r
        (.calling i percent target
          (callbackTrampoline (callback target) (some (s.state target)) percent).run))
  | lose {s : State σ} {r i : Nat} {percent : UInt32} (h : s.report r = .raised i percent)
      (free : s.guard = none) (empty : s.slot = none) : Step s (.lose r) (s.setReport r .returned)
  | callback {s : State σ} {r i target : Nat} {percent : UInt32} {c : Call}
      {next : c.Response → Native (Except Payload (Option (CallbackState σ)))} {response : c.Response}
      (h : s.report r = .calling i percent target (.call c next)) :
      Step s (.callback target ⟨c, response⟩)
        (s.setReport r (.calling i percent target (next response)))
  | deliverEnd {s : State σ} {r i target : Nat} {percent : UInt32} {final : CallbackState σ}
      (h : s.report r = .calling i percent target (.done (.ok (some final)))) :
      Step s .silent ({ s with
        guard := none
        state := Function.update s.state target final }.setReport r .returned)
  | unwind {s : State σ} {r i target : Nat} {percent : UInt32} {payload : Payload}
      (h : s.report r = .calling i percent target (.done (.error payload))) :
      Step s (.unwind r payload) ({ s with guard := none }.setReport r .unwound)
  | return_ {s : State σ} {i : Nat} {code : UInt32} (h : s.op i = .native)
      (quiet : ∀ r, ¬(s.report r).Pending i) : Step s (.return_ i code) (s.setOp i (.returned code))
  | lockRelease {s : State σ} {i : Nat} {code : UInt32} (h : s.op i = .returned code)
      (free : s.guard = none) :
      Step s .silent ({ s with guard := some (.op i) }.setOp i (.releasing code))
  | release {s : State σ} {i : Nat} {code : UInt32} (h : s.op i = .releasing code) :
      Step s (.release i) ({ s with slot := none, guard := none }.setOp i (.released code))
  | finish {s : State σ} {i : Nat} {code : UInt32} (h : s.op i = .released code) :
      Step s .silent (s.setOp i (.finished (match (s.state i).panic with
        | some payload => .error payload
        | none => .ok (check code))))

/-! ### The invariant -/

/-- Inside a section that the mutex guards. -/
def State.Guards (s : State σ) : Guard → Prop
  | .op i => s.op i = .installing ∨ ∃ code, s.op i = .releasing code
  | .report r => ∃ i percent target rest, s.report r = .calling i percent target rest

/-- The slot, its mutex and the phases of all operations agree. -/
structure Consistent (s : State σ) : Prop where
  slot : ∀ i, s.slot = some i ↔ (s.op i).Holds
  exclusive : Exclusive s.guard s.Guards
  pending : ∀ r i, (s.report r).Pending i → s.op i = .native
  target : ∀ r i percent target rest, s.report r = .calling i percent target rest → target = i
  trampoline : ∀ r i percent target rest, s.report r = .calling i percent target rest →
    ∃ p, rest = trampolined p
  contained : ∀ r, s.report r ≠ .unwound

section

variable {callback} {s t : State σ} {l : Label} {i r : Nat} {phase : OpPhase}
  {reportPhase : ReportPhase σ}

/-- An operation that moves changes no other guard. -/
theorem guards_op {g : Guard} (hOther : g ≠ .op i) (hReport : t.report = s.report)
    (hOp : t.op = Function.update s.op i phase) : t.Guards g ↔ s.Guards g := by
  cases g with
  | op j =>
      have hj : j ≠ i := fun h => hOther (h ▸ rfl)
      simp [State.Guards, hOp, hj]
  | report r => simp [State.Guards, hReport]

/-- A report that moves changes no other guard. -/
theorem guards_report {g : Guard} (hOther : g ≠ .report r) (hOp : t.op = s.op)
    (hReport : t.report = Function.update s.report r reportPhase) : t.Guards g ↔ s.Guards g := by
  cases g with
  | op j => simp [State.Guards, hOp]
  | report r' =>
      have hr : r' ≠ r := fun h => hOther (h ▸ rfl)
      simp [State.Guards, hReport, hr]

/-- Every step keeps the mutex exclusive. -/
theorem Consistent.exclusive_step (h : Consistent s) (step : Step callback s l t) :
    Exclusive t.guard t.Guards := by
  cases step with
  | @tryLock i h' free =>
      refine h.exclusive.lock free rfl ?_ fun g hg => guards_op hg rfl rfl
      simp [State.Guards, State.setOp]
  | @wouldBlock i h' | @start i h' | @return_ i _ h' | @finish i _ h' =>
      refine h.exclusive.keep (.op i) rfl ?_ fun g hg => guards_op hg rfl rfl
      simp [State.Guards, State.setOp, h']
  | @occupied i h' | @install i h' =>
      have hHeld : s.Guards (.op i) := .inl h'
      refine h.exclusive.unlock hHeld rfl ?_ fun g hg => guards_op hg rfl rfl
      simp [State.Guards, State.setOp]
  | @raise r _ _ _ fresh =>
      refine h.exclusive.keep (.report r) rfl ?_ fun g hg => guards_report hg rfl rfl
      simp [State.Guards, State.setReport, fresh]
  | @deliver r _ _ _ h' free =>
      refine h.exclusive.lock free rfl ?_ fun g hg => guards_report hg rfl rfl
      simp [State.Guards, State.setReport]
  | @lose r _ _ h' | @callback r _ _ _ _ _ _ h' =>
      refine h.exclusive.keep (.report r) rfl ?_ fun g hg => guards_report hg rfl rfl
      simp [State.Guards, State.setReport, h']
  | @deliverEnd r i target percent _ h' | @unwind r i target percent _ h' =>
      have hHeld : s.Guards (.report r) := ⟨i, percent, target, _, h'⟩
      refine h.exclusive.unlock hHeld rfl ?_ fun g hg => guards_report hg rfl rfl
      simp [State.Guards, State.setReport]
  | @lockRelease i _ h' free =>
      refine h.exclusive.lock free rfl ?_ fun g hg => guards_op hg rfl rfl
      simp [State.Guards, State.setOp]
  | @release i code h' =>
      have hHeld : s.Guards (.op i) := .inr ⟨code, h'⟩
      refine h.exclusive.unlock hHeld rfl ?_ fun g hg => guards_op hg rfl rfl
      simp [State.Guards, State.setOp]

/-- A step of an operation that neither takes nor gives the slot. -/
theorem Consistent.slot_keep (h : Consistent s) (hSlot : t.slot = s.slot)
    (hOp : t.op = Function.update s.op i phase) (hHolds : phase.Holds ↔ (s.op i).Holds) :
    ∀ j, t.slot = some j ↔ (t.op j).Holds := by
  intro j
  rw [hSlot, h.slot j, hOp]
  by_cases hj : j = i
  · rw [hj, Function.update_self, hHolds]
  · rw [Function.update_of_ne hj]

/-- The slot names the operation that holds it, after any step. -/
theorem Consistent.slot_step (h : Consistent s) (step : Step callback s l t) :
    ∀ j, t.slot = some j ↔ (t.op j).Holds := by
  cases step with
  | tryLock h' | wouldBlock h' | occupied h' | start h' | return_ h' | lockRelease h' | finish h' =>
      exact h.slot_keep rfl rfl (by simp [OpPhase.Holds, h'])
  | @install i h' empty =>
      intro j
      by_cases hj : j = i
      · simp [State.setOp, hj, OpPhase.Holds]
      · have hNone : ¬(s.op j).Holds := by simp [← h.slot j, empty]
        simp [State.setOp, hj, hNone, Ne.symm hj]
  | @release i code h' =>
      intro j
      by_cases hj : j = i
      · simp [State.setOp, hj, OpPhase.Holds]
      · have hSlot : s.slot = some i := (h.slot i).mpr (by simp [h', OpPhase.Holds])
        have hNone : ¬(s.op j).Holds := by simp [← h.slot j, hSlot, Ne.symm hj]
        simp [State.setOp, hj, hNone]
  | raise | deliver | lose | callback | deliverEnd | unwind => exact h.slot

/-- The operation whose phase a step changes has no report pending. -/
theorem Consistent.pending_op (h : Consistent s) (hReport : t.report = s.report)
    (hOp : t.op = Function.update s.op i phase)
    (hNative : (∃ r, (s.report r).Pending i) → phase = .native) (r j : Nat)
    (hPending : (t.report r).Pending j) : t.op j = .native := by
  rw [hReport] at hPending
  by_cases hj : j = i
  · subst hj
    rw [hOp, Function.update_self]
    exact hNative ⟨r, hPending⟩
  · rw [hOp, Function.update_of_ne hj]
    exact h.pending r j hPending

/-- A report that moves is of an operation inside its native call. -/
theorem Consistent.pending_report (h : Consistent s) (hOp : t.op = s.op)
    (hReport : t.report = Function.update s.report r reportPhase)
    (hNative : ∀ j, reportPhase.Pending j → s.op j = .native) (r' j : Nat)
    (hPending : (t.report r').Pending j) : t.op j = .native := by
  rw [hOp]
  by_cases hr : r' = r
  · rw [hReport, hr, Function.update_self] at hPending
    exact hNative j hPending
  · rw [hReport, Function.update_of_ne hr] at hPending
    exact h.pending r' j hPending

/-- Every step keeps the pending reports inside the native call of their operation. -/
theorem Consistent.pending_step (h : Consistent s) (step : Step callback s l t) :
    ∀ r i, (t.report r).Pending i → t.op i = .native := by
  have hIdle {i : Nat} (hNot : s.op i ≠ .native) {phase : OpPhase}
      (hPending : ∃ r, (s.report r).Pending i) : phase = .native := by
    obtain ⟨r, hPending⟩ := hPending
    exact absurd (h.pending r i hPending) hNot
  cases step with
  | tryLock h' | wouldBlock h' | occupied h' | install h' | lockRelease h' | release h' | finish h' =>
      exact h.pending_op rfl rfl (hIdle (by simp [h']))
  | start => exact h.pending_op rfl rfl fun _ => rfl
  | return_ _ quiet =>
      exact h.pending_op rfl rfl fun ⟨r, hPending⟩ => absurd hPending (quiet r)
  | raise h' => exact h.pending_report rfl rfl fun j hj => hj ▸ h'
  | @deliver r _ _ _ h' | @callback r _ _ _ _ _ _ h' =>
      refine h.pending_report rfl rfl fun j hj => h.pending r j ?_
      rw [h']
      exact hj
  | lose | deliverEnd | unwind => exact h.pending_report rfl rfl fun _ => False.elim

/-- A report that waits for the mutex finds its own operation in the slot. -/
theorem Consistent.found {percent : UInt32} (h : Consistent s) (hRaised : s.report r = .raised i percent) :
    s.slot = some i := by
  have hNative := h.pending r i (by rw [hRaised]; rfl)
  exact (h.slot i).mpr (by simp [hNative, OpPhase.Holds])

/-- A report that is running is one of the operation whose callback it runs,
and runs it inside the trampoline. -/
theorem Consistent.running_step (h : Consistent s) (step : Step callback s l t) :
    ∀ r i percent target rest, t.report r = .calling i percent target rest →
      target = i ∧ ∃ p, rest = trampolined p := by
  have hBefore (r i : Nat) (percent : UInt32) (target : Nat)
      (rest : Native (Except Payload (Option (CallbackState σ))))
      (h' : s.report r = .calling i percent target rest) : target = i ∧ ∃ p, rest = trampolined p :=
    ⟨h.target r i percent target rest h', h.trampoline r i percent target rest h'⟩
  have hSet {t : State σ} {r : Nat} {phase : ReportPhase σ}
      (hReport : t.report = Function.update s.report r phase)
      (hPhase : ∀ i percent target rest, phase = .calling i percent target rest →
        target = i ∧ ∃ p, rest = trampolined p) :
      ∀ r i percent target rest, t.report r = .calling i percent target rest →
        target = i ∧ ∃ p, rest = trampolined p := by
    intro r' i percent target rest h'
    by_cases hr : r' = r
    · rw [hReport, hr, Function.update_self] at h'
      exact hPhase i percent target rest h'
    · rw [hReport, Function.update_of_ne hr] at h'
      exact hBefore r' i percent target rest h'
  cases step with
  | tryLock | wouldBlock | occupied | install | start | return_ | lockRelease | release | finish =>
      exact hBefore
  | raise | lose | deliverEnd | unwind => exact hSet rfl nofun
  | @deliver r i target percent h' free found =>
      refine hSet rfl ?_
      rintro _ _ _ _ ⟨⟩
      exact ⟨Option.some.inj (found.symm.trans (h.found h')), _, callbackTrampoline_run _ _ _⟩
  | @callback r i target percent c next response h' =>
      refine hSet rfl ?_
      rintro _ _ _ _ ⟨⟩
      obtain ⟨hTarget, p, hRest⟩ := hBefore _ _ _ _ _ h'
      obtain ⟨next', -, hNext⟩ := trampolined_eq_call hRest.symm
      exact ⟨hTarget, next' response, hNext response⟩

/-- No panic leaves the trampoline. -/
theorem Consistent.no_unwind (h : Consistent s) {target : Nat} {percent : UInt32} {payload : Payload} :
    s.report r ≠ .calling i percent target (.done (.error payload)) := by
  intro h'
  obtain ⟨p, hRest⟩ := h.trampoline r i percent target _ h'
  obtain ⟨final, -, hFinal⟩ := trampolined_eq_done hRest.symm
  cases hFinal

/-- No report unwinds: the trampoline has caught what the callback raised. -/
theorem Consistent.contained_step (h : Consistent s) (step : Step callback s l t) :
    ∀ r, t.report r ≠ .unwound := by
  have hSet {t : State σ} {r : Nat} {phase : ReportPhase σ}
      (hReport : t.report = Function.update s.report r phase) (hPhase : phase ≠ .unwound) (r' : Nat) :
      t.report r' ≠ .unwound := by
    by_cases hr : r' = r
    · rwa [hReport, hr, Function.update_self]
    · rw [hReport, Function.update_of_ne hr]
      exact h.contained r'
  cases step with
  | tryLock | wouldBlock | occupied | install | start | return_ | lockRelease | release | finish =>
      exact h.contained
  | raise | deliver | lose | callback | deliverEnd => exact hSet rfl nofun
  | unwind h' => exact absurd h' h.no_unwind

/-- The invariants together. -/
theorem Consistent.step (h : Consistent s) (step : Step callback s l t) : Consistent t where
  slot := h.slot_step step
  exclusive := h.exclusive_step step
  pending := h.pending_step step
  target r i percent target rest h' := (h.running_step step r i percent target rest h').1
  trampoline r i percent target rest h' := (h.running_step step r i percent target rest h').2
  contained := h.contained_step step

theorem Consistent.init (captured : Nat → σ) : Consistent (State.init captured) where
  slot i := by simp [State.init, OpPhase.Holds]
  exclusive g := by cases g <;> simp [State.init, State.Guards]
  pending r i h := h.elim
  target := nofun
  trampoline := nofun
  contained := nofun

/-- By induction on the run. -/
theorem Consistent.of_run {captured : Nat → σ} {history : List Label}
    (run : Run (Step callback) (State.init captured) history s) : Consistent s :=
  run.invariant (Consistent.init captured) fun _ _ _ _ h step => Consistent.step h step

/-! ### What has happened -/

/-- Before the native call of the operation. -/
def OpPhase.Unstarted : OpPhase → Prop
  | .ready | .installing | .refused | .leased => True
  | _ => False

/-- The lease of the operation was dropped. -/
def OpPhase.Over : OpPhase → Prop
  | .released _ | .finished _ => True
  | _ => False

/-- The history so far agrees with the phases. -/
structure Recorded (history : List Label) (s : State σ) : Prop where
  raised : ∀ r i percent, s.report r = .raised i percent → .raise r i percent ∈ history
  reached : ∀ r i percent, .raise r i percent ∈ history →
    s.report r = .raised i percent ∨ .deliver r i percent i ∈ history
  delivered : ∀ r i percent target, .deliver r i percent target ∈ history →
    target = i ∧ .raise r i percent ∈ history
  kept : ∀ r, .lose r ∉ history
  unstarted : ∀ i, (s.op i).Unstarted → .start i ∉ history
  closed : ∀ i, (s.op i).Over → .release i ∈ history

variable {history : List Label}

/-- A step of an operation. -/
theorem Recorded.op_step (h : Recorded history s) (hReport : t.report = s.report)
    (hOp : t.op = Function.update s.op i phase)
    (hLabel : l = .silent ∨ l = .refuse i ∨ l = .start i ∨ l = .release i ∨ ∃ code, l = .return_ i code)
    (hUnstarted : phase.Unstarted → (s.op i).Unstarted ∧ l ≠ .start i)
    (hOver : phase.Over → (s.op i).Over ∨ l = .release i) : Recorded (history ++ [l]) t := by
  have hOld {l' : Label} (hMem : l' ∈ history ++ [l]) : l' ∈ history ∨ l' = l := by
    simpa using hMem
  constructor
  · intro r j percent h'
    exact List.mem_append_left _ (h.raised r j percent (hReport ▸ h'))
  · intro r j percent hMem
    rcases hOld hMem with hMem | rfl
    · rw [hReport]
      exact (h.reached r j percent hMem).imp_right (List.mem_append_left _)
    · simp at hLabel
  · intro r j percent target hMem
    rcases hOld hMem with hMem | rfl
    · exact (h.delivered r j percent target hMem).imp_right (List.mem_append_left _)
    · simp at hLabel
  · intro r hMem
    rcases hOld hMem with hMem | rfl
    · exact h.kept r hMem
    · simp at hLabel
  · intro j hj hMem
    by_cases hi : j = i
    · subst hi
      rw [hOp, Function.update_self] at hj
      obtain ⟨hBefore, hNot⟩ := hUnstarted hj
      rcases hOld hMem with hMem | rfl
      · exact h.unstarted j hBefore hMem
      · exact hNot rfl
    · rw [hOp, Function.update_of_ne hi] at hj
      rcases hOld hMem with hMem | rfl
      · exact h.unstarted j hj hMem
      · simp [hi] at hLabel
  · intro j hj
    by_cases hi : j = i
    · subst hi
      rw [hOp, Function.update_self] at hj
      rcases hOver hj with hBefore | rfl
      · exact List.mem_append_left _ (h.closed j hBefore)
      · simp
    · rw [hOp, Function.update_of_ne hi] at hj
      exact List.mem_append_left _ (h.closed j hj)

/-- A step of a report. -/
theorem Recorded.report_step (h : Recorded history s) (hOp : t.op = s.op)
    (hReport : t.report = Function.update s.report r reportPhase)
    (hLabel : ∀ i, l ≠ .start i) (hKept : ∀ r, l ≠ .lose r)
    (hRaise : ∀ r' i percent, l = .raise r' i percent → r' = r ∧ reportPhase = .raised i percent)
    (hDeliver : ∀ r' i percent target, l = .deliver r' i percent target →
      target = i ∧ s.report r' = .raised i percent)
    (hRaised : ∀ i percent, reportPhase = .raised i percent → l = .raise r i percent)
    (hBefore : ∀ i percent, s.report r = .raised i percent → l = .deliver r i percent i) :
    Recorded (history ++ [l]) t := by
  have hOld {l' : Label} (hMem : l' ∈ history ++ [l]) : l' ∈ history ∨ l' = l := by
    simpa using hMem
  constructor
  · intro r' i percent h'
    by_cases hr : r' = r
    · rw [hReport, hr, Function.update_self] at h'
      simp [hr, hRaised i percent h']
    · rw [hReport, Function.update_of_ne hr] at h'
      exact List.mem_append_left _ (h.raised r' i percent h')
  · intro r' i percent hMem
    rcases hOld hMem with hMem | rfl
    · rcases h.reached r' i percent hMem with hWaiting | hDelivered
      · by_cases hr : r' = r
        · subst hr
          simp [hBefore i percent hWaiting]
        · rw [hReport, Function.update_of_ne hr]
          exact .inl hWaiting
      · exact .inr (List.mem_append_left _ hDelivered)
    · obtain ⟨rfl, hPhase⟩ := hRaise r' i percent rfl
      rw [hReport, Function.update_self]
      exact .inl hPhase
  · intro r' i percent target hMem
    rcases hOld hMem with hMem | rfl
    · exact (h.delivered r' i percent target hMem).imp_right (List.mem_append_left _)
    · obtain ⟨hTarget, hWaiting⟩ := hDeliver r' i percent target rfl
      exact ⟨hTarget, List.mem_append_left _ (h.raised r' i percent hWaiting)⟩
  · intro r' hMem
    rcases hOld hMem with hMem | rfl
    · exact h.kept r' hMem
    · exact hKept r' rfl
  · intro i hi hMem
    rw [hOp] at hi
    rcases hOld hMem with hMem | rfl
    · exact h.unstarted i hi hMem
    · exact hLabel i rfl
  · intro i hi
    rw [hOp] at hi
    exact List.mem_append_left _ (h.closed i hi)

/-- Every step keeps the record in line with the phases. -/
theorem Recorded.step (h : Recorded history s) (hConsistent : Consistent s)
    (step : Step callback s l t) : Recorded (history ++ [l]) t := by
  cases step with
  | tryLock h' | install h' =>
      exact h.op_step rfl rfl (.inl rfl) (by simp [OpPhase.Unstarted, h']) nofun
  | wouldBlock h' | occupied h' =>
      exact h.op_step rfl rfl (.inr (.inl rfl)) (by simp [OpPhase.Unstarted, h']) nofun
  | start => exact h.op_step rfl rfl (by simp) nofun nofun
  | return_ => exact h.op_step rfl rfl (by simp) nofun nofun
  | lockRelease => exact h.op_step rfl rfl (.inl rfl) nofun nofun
  | release => exact h.op_step rfl rfl (by simp) nofun fun _ => .inr rfl
  | finish h' => exact h.op_step rfl rfl (.inl rfl) nofun (by simp [OpPhase.Over, h'])
  | raise _ fresh =>
      refine h.report_step rfl rfl nofun nofun ?_ nofun ?_ (by simp [fresh])
      · rintro _ _ _ ⟨⟩
        exact ⟨rfl, rfl⟩
      · rintro _ _ ⟨⟩
        rfl
  | @deliver r i target percent h' free found =>
      have hTarget : target = i := Option.some.inj (found.symm.trans (hConsistent.found h'))
      refine h.report_step rfl rfl nofun nofun nofun ?_ nofun ?_
      · rintro _ _ _ _ ⟨⟩
        exact ⟨hTarget, h'⟩
      · intro j percent' hWaiting
        cases h'.symm.trans hWaiting
        rw [hTarget]
  | lose h' _ empty => simp [hConsistent.found h'] at empty
  | callback h' => exact h.report_step rfl rfl nofun nofun nofun nofun nofun (by simp [h'])
  | deliverEnd h' | unwind h' =>
      exact h.report_step rfl rfl nofun nofun nofun nofun nofun (by simp [h'])

theorem Recorded.init (captured : Nat → σ) : Recorded [] (State.init captured) :=
  ⟨nofun, nofun, nofun, nofun, nofun, nofun⟩

/-- By induction on the run, along with the invariant. -/
theorem Recorded.of_run {captured : Nat → σ} (run : Run (Step callback) (State.init captured) history s) :
    Recorded history s := by
  induction run with
  | refl => exact .init captured
  | snoc run step ih => exact ih.step (.of_run run) step

end

end

end CallbackSlot
end RestartManager

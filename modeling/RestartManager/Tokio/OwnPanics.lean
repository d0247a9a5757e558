import RestartManager.Session.OwnPanics
import RestartManager.Tokio.Ownership
import RestartManager.Tokio.Refinement

/-! The panics of the crate are unreachable: those of a pending value, whether
its owner is a caller or a worker, those of a filter target, and those of the
futures, which keep their fields until the reply is there. -/
namespace RestartManager

open Interaction Contract Program Transition

namespace Tokio

/-! ### Futures -/

/-- No field of the future has been taken out. -/
inductive FutureObject.Whole : FutureObject → Prop
  | shutdown {worker : Worker} {key : SessionKey} {cancellation : UInt32} {cancelOnDrop : Bool} :
      Whole (.shutdown ⟨some worker, some key, some cancellation, cancelOnDrop⟩)
  | restart {worker : Worker} : Whole (.restart ⟨some worker⟩)
  | restartWithProgress {worker : Worker} {outcome : OperationOutcome} :
      Whole (.restartWithProgress ⟨some worker, some outcome⟩)

theorem Future.object_whole {future : Future} {object : FutureObject}
    (h : future.object = some object) : object.Whole := by
  cases future <;> cases h
  · exact .shutdown
  · exact .restart
  · exact .restartWithProgress

/-- The typestate that the worker thread holds, unless a method has it. -/
def WorkerPhase.state? [Platform] : WorkerPhase → Option WorkerState
  | .opened state _ => some state
  | .idle state => some state
  | .executing _ _ (.done (_, state)) => some state
  | _ => none

variable [Platform]

section

variable {opening : Opening} {ops : List Op} {trace : Trace} {value : Value} {last : Option Output}

/-- What the owner of a blocking session holds fits some monitor. -/
theorem Blocking.fits (h : Blocking opening ops trace value last) : ∃ m, value.Fits m := by
  have hConforms (m : Monitor) (trace : Trace) : recoveryContract.Conforms m trace :=
    recoveryContract.conforms_of_rely (fun _ _ _ => trivial) m trace
  induction h with
  | opened run =>
      obtain ⟨-, hBegun⟩ := wp_exec _ run (wp_blocking opening) (hConforms _ _)
      exact ⟨_, hBegun⟩
  | perform before method run ih =>
      obtain ⟨m, hFits⟩ := ih
      obtain ⟨-, hAfter⟩ := wp_exec _ run (wp_perform hFits method) (hConforms _ _)
      exact ⟨_, hAfter⟩
  | retry before method run ih =>
      obtain ⟨m, hFits⟩ := ih
      obtain ⟨-, hAfter⟩ := wp_exec _ run (wp_perform hFits method) (hConforms _ _)
      exact ⟨_, hAfter⟩

variable {history : List Label} {s : System} {done flight : List (Op × Command)}

/-- So does what the worker holds, before, between and after its commands. -/
theorem Pipeline.state_fits (h : Pipeline opening history s done flight) {state : WorkerState}
    (hState : s.worker.state? = some state) : ∃ m, state.value.Fits m := by
  have hStage := h.stage
  generalize s.worker = worker at hStage hState
  generalize calls history = trace, released history = flag at hStage
  cases hStage with
  | opened begun matched fits =>
      cases hState
      exact ⟨_, fits⟩
  | idle before inFlight fits =>
      cases hState
      exact ⟨_, fits⟩
  | executing before method run related allowed =>
      cases related with
      | done hAnswer =>
          cases hState
          obtain ⟨reply, hAnswers, -⟩ := hAnswer
          obtain ⟨m, hFits⟩ := (Blocking.perform before method run).fits
          have hRetained := retained_fits hFits
          rw [hAnswers.retained] at hRetained
          exact ⟨m, hRetained⟩
      | call => cases hState
  | _ => cases hState

end

section

variable {opening : Opening} {history : List ObjectLabel} {o : Objects} {future : Future}
  {ticket : Nat} {object : FutureObject} {received : Poll (Except RecvError Reply)}

omit [Platform] in
theorem poll_closed_returns (built : future.object = some object) :
    ∃ result object', object.poll (.ready (.error {})) = some (.ok result, object') := by
  cases future <;> cases built <;> exact ⟨_, _, rfl⟩

/-- Whatever a future receives, its poll returns. -/
theorem poll_returns (run : Run (ObjectStep opening) .init₀ history o) (live : o.live = some object)
    (client : o.system.client = .awaiting future ticket) (receives : o.Receives ticket received) :
    ∃ result object', object.poll received = some (.ok result, object') := by
  obtain ⟨hIntact, hRun, -, -⟩ := facade_of_run run
  have built := hIntact.object live client
  match received with
  | .pending => cases future <;> cases built <;> exact ⟨_, _, rfl⟩
  | .ready (.error _) => exact poll_closed_returns built
  | .ready (.ok reply) =>
      obtain ⟨done, flight, h⟩ := Pipeline.of_run hRun
      obtain ⟨state, -, hResolves⟩ := h.resolves client receives
      rcases hResolves with ⟨handle, hHandle, -⟩ | ⟨rfl, -⟩
      · cases future <;> cases built <;> cases reply
        all_goals first
          | cases hHandle
          | rename_i reply
            cases reply <;> exact ⟨_, _, rfl⟩
      · cases built

end

end Tokio

/-- What the panics of the crate would need, and never find. -/
structure PanicsUnreachable [Platform] : Prop where
  /-- What makes a pending value whole is what its methods expect. -/
  expected (pending : RestartPending) : pending.Whole ↔
      (∃ core, pending.coreRef = .ok core) ∧ ∃ outcome, pending.shutdownOutcome = .ok outcome
  /-- A caller of the blocking API holds whole pending values. -/
  held {opening : Tokio.Opening} {ops : List Op} {trace : Trace} {value : Value} {last : Option Output}
      (run : Tokio.Blocking opening ops trace value last) : ∀ pending ∈ value.pending?, pending.Whole
  /-- An operation on what a caller holds unwinds only with what the callback of
  that caller panicked with. -/
  operation {opening : Tokio.Opening} {ops : List Op} {trace later : Trace} {value value' : Value}
      {last : Option Output} {op : Op} {p : Native (Value × Output)} {payload : Payload}
      (run : Tokio.Blocking opening ops trace value last) (method : perform value op = some p)
      (panics : p.Exec later (value', .panicked payload)) : CallerPanicked later payload
  /-- A worker holds whole pending values, and no command of it panics. -/
  worker {opening : Tokio.Opening} {history : List Tokio.Label} {s : Tokio.System}
      (run : Run (Tokio.Step opening) .init₀ history s) :
      (∀ state, s.worker.state? = some state → ∀ pending ∈ state.value.pending?, pending.Whole) ∧
      ∀ ticket command payload state,
        s.worker ≠ .executing ticket command (.done (.error payload, state))
  /-- A future that waits still has its fields, and returns from every poll. -/
  future {opening : Tokio.Opening} {history : List Tokio.ObjectLabel} {o : Tokio.Objects}
      (run : Run (Tokio.ObjectStep opening) .init₀ history o) :
      (∀ payload, .panicked payload ∉ history) ∧
      ∀ future ticket object, o.live = some object → o.system.client = .awaiting future ticket →
        object.Whole ∧ ∀ received, o.Receives ticket received →
          ∃ result object', object.poll received = some (.ok result, object')
  /-- So does a future whose command was not sent: its channel is closed. -/
  closed {future : Tokio.Future} {object : Tokio.FutureObject} (built : future.object = some object) :
      ∃ result object', object.poll (.ready (.error {})) = some (.ok result, object')
  target (target : FilterTarget) : target.Exact ∧ ∃ raw, rawFilterTarget target = .ok raw

/-- No panic of the crate itself can be reached. -/
theorem own_panics_unreachable [Platform] : PanicsUnreachable where
  expected pending := RestartPending.whole_iff
  held run := by
    obtain ⟨m, hFits⟩ := run.fits
    exact hFits.whole
  operation run method panics := by
    obtain ⟨m, hFits⟩ := run.fits
    exact perform_panicked hFits method panics
  worker run := by
    obtain ⟨done, flight, h⟩ := Tokio.Pipeline.of_run run
    constructor
    · intro state hState
      obtain ⟨m, hFits⟩ := h.state_fits hState
      exact hFits.whole
    · intro ticket command payload state hWorker
      exact h.no_unwind hWorker
  future run := by
    obtain ⟨hIntact, -, -, hPanic⟩ := Tokio.facade_of_run run
    refine ⟨hPanic, fun future ticket object live client => ⟨?_, fun received receives => ?_⟩⟩
    · exact Tokio.Future.object_whole (hIntact.object live client)
    · exact Tokio.poll_returns run live client receives
  closed built := Tokio.poll_closed_returns built
  target target := ⟨target.exact, _, rawFilterTarget_eq_ok target⟩

section

attribute [local instance] Platform.driveLetters

open Tokio

/-- A shutdown is refused, and its future has not been polled yet. -/
def refusalInFlight : List ObjectLabel :=
  [.facade .silent, .facade (.call ⟨.rmStartSession, ⟨ERROR_SUCCESS, 3, zeroKey⟩⟩), .facade .silent,
    .facade .silent, .facade .silent,
    .facade (.send (.shutdownWithProgress {} .watch) (.shutdownWithProgress {})),
    .facade (.execute (.shutdownWithProgress {})), .facade (.call ⟨.installLease, false⟩),
    .facade (.answer 0 (.shutdown (.recoverable (mapSysError .callbackInUse))))]

theorem own_panics_unreachable_refusal : ∃ o object result object',
    Run (ObjectStep .primary) .init₀ refusalInFlight o ∧ o.live = some object ∧ object.Whole ∧
    object.poll (.ready (.ok (.shutdown (.recoverable (mapSysError .callbackInUse))))) =
      some (.ok result, object') := by
  let core : SessionCore := ⟨⟨3, false⟩, ⟨List.replicate 32 0x30, by decide⟩⟩
  let future : Future := .shutdown core.key 3
  have run : ∃ o object, Run (ObjectStep .primary) .init₀ refusalInFlight o ∧ o.live = some object ∧
      o.system.client = .awaiting future 0 ∧
      o.Receives 0 (.ready (.ok (.shutdown (.recoverable (mapSysError .callbackInUse))))) := by
    apply Exists.intro
    apply Exists.intro
    constructor
    apply Run.cons (.facade (.spawn rfl) (.inr ⟨rfl, by simp⟩) (by simp))
    apply Run.cons (.facade (.openCall rfl) (.inl rfl) (by simp))
    apply Run.cons (.facade (@Step.openDone _ _ _ (.primary ⟨core⟩) _ rfl) (.inl rfl) (by simp))
    apply Run.cons (.facade (.initSent rfl rfl) (.inl rfl) (by simp))
    apply Run.cons (.facade (.openedHandle rfl rfl) (.inr ⟨rfl, by simp⟩) (by simp))
    apply Run.cons (.create (.consume rfl rfl (by simp)) rfl rfl)
    apply Run.cons (.facade (.take rfl rfl) (.inl rfl) (by simp))
    apply Run.cons (.facade (.executeCall rfl) (.inl rfl) (by simp))
    apply Run.cons (.facade (.answer rfl) (.inl rfl) (by simp))
    exact .refl
    exact ⟨rfl, rfl, rfl⟩
  obtain ⟨o, object, run, live, client, receives⟩ := run
  obtain ⟨hWhole, hPolls⟩ := (own_panics_unreachable.future run).2 future 0 object live client
  obtain ⟨result, object', hPoll⟩ := hPolls _ receives
  exact ⟨o, object, result, object', run, live, hWhole, hPoll⟩

end

end RestartManager

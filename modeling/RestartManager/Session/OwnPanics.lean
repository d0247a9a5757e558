import RestartManager.Session.Performed

/-! The panics of the crate itself. A pending value keeps both of its parts
until a method takes them out, so that no method finds one missing, and what
an operation unwinds with is a panic of the caller's own callback. -/
namespace RestartManager

open Interaction Program

/-! ### What an owner holds -/

/-- Neither part of the value has been taken out. -/
structure RestartPending.Whole (pending : RestartPending) : Prop where
  core : pending.core.isSome = true
  shutdown : pending.shutdown.isSome = true

/-- A part that was taken out is the only cause of a panic. -/
theorem RestartPending.whole_iff {pending : RestartPending} : pending.Whole ↔
    (∃ core, pending.coreRef = .ok core) ∧ ∃ outcome, pending.shutdownOutcome = .ok outcome := by
  obtain ⟨core, shutdown⟩ := pending
  constructor
  · intro h
    obtain ⟨core, rfl⟩ := Option.isSome_iff_exists.mp h.core
    obtain ⟨outcome, rfl⟩ := Option.isSome_iff_exists.mp h.shutdown
    exact ⟨⟨core, rfl⟩, outcome, rfl⟩
  · intro h
    obtain ⟨⟨core', hCore⟩, outcome, hShutdown⟩ := h
    cases core with
    | none => cases hCore
    | some core =>
        cases shutdown with
        | none => cases hShutdown
        | some outcome => exact ⟨rfl, rfl⟩

/-- The pending value that an owner holds, also inside a refusal. -/
def Value.pending? : Value → Option RestartPending
  | .pending state => some state
  | .restartNotStarted error => some error.state
  | _ => none

theorem Value.Fits.whole {value : Value} {m : Monitor} (h : value.Fits m) :
    ∀ pending ∈ value.pending?, pending.Whole := by
  intro pending hMem
  cases h <;> cases hMem <;> exact ⟨rfl, rfl⟩

/-- A target is exactly one of a path, a process and a service. -/
def FilterTarget.Exact (target : FilterTarget) : Prop :=
  target.asExecutable.isSome.toNat + target.asProcess.isSome.toNat + target.asService.isSome.toNat = 1

theorem FilterTarget.exact (target : FilterTarget) : target.Exact := by
  obtain ⟨kind⟩ := target
  cases kind <;> rfl

/-! ### Operations -/

variable [Platform]

section

variable {op : Op} {p : Native (Value × Output)} {trace : Trace} {value value' : Value}
  {payload : Payload}

/-- The callback of the caller panicked with this payload. -/
def CallerPanicked (trace : Trace) (payload : Payload) : Prop :=
  ∃ progress, panicked progress payload ∈ trace

theorem ProgressRun.callerPanicked {α : Type} {callback : Callback} {native : OperationReply → Event}
    {refused : α} {completed : OperationReply → α} {abandoned : Native Unit}
    (h : ProgressRun callback native refused completed abandoned trace (.error payload)) :
    CallerPanicked trace payload := by
  cases h with
  | @panicked reply before rest progress payload recovery reached user dropped =>
      exact ⟨progress, by simp⟩

/-- An operation that shows what its method returned does not unwind. -/
theorem returned_of_exec {α : Type} {method : Native α} {next : α → Value × Output}
    (hNext : ∀ result, (next result).2 ≠ .panicked payload)
    (run : (method >>= fun result => .done (next result)).Exec trace (value', .panicked payload)) :
    False := by
  obtain ⟨first, second, result, rfl, -, hReturn⟩ := exec_bind_iff.mp run
  obtain ⟨-, hResult⟩ := exec_done_iff.mp hReturn
  exact hNext result (congrArg Prod.snd hResult).symm

theorem borrowing_returns {α : Type} {method : CrateM α} {output : Except Error α → Output}
    (hOutput : ∀ result, output result ≠ .panicked payload)
    (run : (borrowing value method output).Exec trace (value', .panicked payload)) : False :=
  returned_of_exec hOutput run

/-- A filter target always has an identity, so its methods do not panic. -/
theorem filter_returns {method : RawFilterTarget → CrateM Unit} {target : FilterTarget}
    (run : (borrowingUnwind value (do
      let raw ← ExceptT.mk (pure (rawFilterTarget target))
      ExceptT.lift (method raw).run : UnwindM (Except Error Unit)) .done).Exec trace
        (value', .panicked payload)) : False := by
  obtain ⟨first, second, result, rfl, hMethod, hReturn⟩ := exec_bind_iff.mp run
  rw [rawFilterTarget_eq_ok] at hMethod
  cases result with
  | ok result =>
      obtain ⟨-, hResult⟩ := exec_done_iff.mp hReturn
      cases hResult
  | error payload' =>
      obtain ⟨result, -, hResult⟩ := exec_run_lift_iff.mp hMethod
      cases hResult

/-- An operation that takes its value unwinds with the payload of its method. -/
theorem consuming_unwinds {α : Type} {method : UnwindM α} {next : α → Value × Output}
    (hNext : ∀ result, (next result).2 ≠ .panicked payload)
    (run : (consuming method next).Exec trace (value', .panicked payload)) :
    method.run.Exec trace (.error payload) := by
  obtain ⟨result, hMethod, hResult⟩ := exec_consuming run
  cases result with
  | ok result =>
      dsimp only at hResult
      exact absurd (congrArg Prod.snd hResult).symm (hNext result)
  | error payload' =>
      cases hResult
      exact hMethod

theorem performSession_panicked {session : RestartSession} (hOp : performSession session op = some p)
    (run : p.Exec trace (value', .panicked payload)) : CallerPanicked trace payload := by
  have hShutdown {options : ShutdownOptions}
      (hRun : (consuming (session.shutdownWithOptions options) fun pending =>
        (.pending pending, .state)).Exec trace (value', .panicked payload)) :
      CallerPanicked trace payload := by
    have hMethod := consuming_unwinds (by simp) hRun
    rw [shutdownWithOptions_run, exec_call_iff] at hMethod
    obtain ⟨reply, rest, rfl, hReturn⟩ := hMethod
    cases (exec_done_iff.mp hReturn).2
  cases op <;> simp only [performSession, reduceCtorEq, Option.some.injEq] at hOp <;> subst hOp
  case registerResources => exact (borrowing_returns (by simp) run).elim
  case registerFiles => exact (borrowing_returns (by simp) run).elim
  case registerProcesses => exact (borrowing_returns (by simp) run).elim
  case registerServices => exact (borrowing_returns (by simp) run).elim
  case affectedApplications => exact (borrowing_returns (by simp) run).elim
  case filters => exact (borrowing_returns (by simp) run).elim
  case setFilter target action => exact (filter_returns run).elim
  case removeFilter target => exact (filter_returns run).elim
  case shutdown => exact hShutdown run
  case shutdownWithOptions options => exact hShutdown run
  case shutdownWithProgress options callback =>
    have hMethod := consuming_unwinds (by rintro (error | pending) <;> simp) run
    exact (exec_shutdownWithProgress_iff.mp hMethod).callerPanicked
  case endSession => exact (returned_of_exec (by simp) run).elim

theorem performJoined_panicked {session : JoinedSession} (hOp : performJoined session op = some p)
    (run : p.Exec trace (value', .panicked payload)) : False := by
  cases op <;> simp only [performJoined, reduceCtorEq, Option.some.injEq] at hOp <;> subst hOp
  case registerResources => exact borrowing_returns (by simp) run
  case registerFiles => exact borrowing_returns (by simp) run
  case registerProcesses => exact borrowing_returns (by simp) run
  case registerServices => exact borrowing_returns (by simp) run
  case endSession => exact returned_of_exec (by simp) run

/-- Both parts are there when a method takes them. -/
theorem performPending_panicked {core : SessionCore} {outcome : OperationOutcome}
    (hOp : performPending ⟨some core, some outcome⟩ op = some p)
    (run : p.Exec trace (value', .panicked payload)) : CallerPanicked trace payload := by
  cases op <;> simp only [performPending, reduceCtorEq, Option.some.injEq] at hOp <;> subst hOp
  case shutdownOutcome => cases (exec_done_iff.mp run).2
  case restart =>
    have hMethod := consuming_unwinds (by simp) run
    rw [restart_run, exec_call_iff] at hMethod
    obtain ⟨reply, rest, rfl, hReturn⟩ := hMethod
    cases (exec_done_iff.mp hReturn).2
  case restartWithProgress callback =>
    have hMethod := consuming_unwinds (by rintro (error | completion) <;> simp) run
    exact (exec_restartWithProgress_iff.mp hMethod).callerPanicked
  case leaveStopped =>
    have hMethod := consuming_unwinds (by simp) run
    rw [leaveStopped_run] at hMethod
    cases (exec_done_iff.mp hMethod).2

theorem performCompletion_panicked {completion : RecoveryCompletion}
    (hOp : performCompletion completion op = some p)
    (run : p.Exec trace (value', .panicked payload)) : False := by
  cases op <;> simp only [performCompletion, reduceCtorEq, Option.some.injEq] at hOp <;> subst hOp
  case outcome => cases (exec_done_iff.mp run).2
  case affectedApplications => exact borrowing_returns (by simp) run
  case endSession => exact returned_of_exec (by simp) run

/-- An operation unwinds with nothing but a panic of the caller's callback. -/
theorem perform_panicked {m : Monitor} (hFits : value.Fits m) (hOp : perform value op = some p)
    (run : p.Exec trace (value', .panicked payload)) : CallerPanicked trace payload := by
  by_cases hDrop : op = .dropValue
  · subst hDrop
    cases hFits <;> cases hOp <;> exact (returned_of_exec (by simp) run).elim
  cases hFits with
  | session => exact performSession_panicked (perform_session hDrop ▸ hOp) run
  | joined => exact (performJoined_panicked (perform_joined hDrop ▸ hOp) run).elim
  | pending => exact performPending_panicked (perform_pending hDrop ▸ hOp) run
  | completion => exact (performCompletion_panicked (perform_completion hDrop ▸ hOp) run).elim
  | shutdownNotStarted =>
      cases op <;> cases hOp
      · cases (exec_done_iff.mp run).2
      · exact absurd rfl hDrop
  | restartNotStarted =>
      cases op <;> cases hOp
      · cases (exec_done_iff.mp run).2
      · exact absurd rfl hDrop
  | gone => cases op <;> cases hOp

end

end RestartManager

import RestartManager.Session.Recovery
import RestartManager.Session.Transcripts

/-! What every public operation can do to what its owner holds: one case for
each way through a method that moves the session on, with its native calls. -/
namespace RestartManager

open Interaction Contract Program

/-- What an operation returns that leaves its value in place. -/
def Output.Borrowed : Output → Prop
  | .done _ | .applications _ | .filters _ | .panicked _ => True
  | _ => False

variable [Platform]

/-- The calls that end the session: the end, and its retry by the drop. -/
def Ending (raw : UInt32) (trace : Trace) : Prop := ∀ event ∈ trace, event.1 = .rmEndSession raw

/-- A complete run of an operation. -/
inductive Performed : Value → Op → Trace → Value → Output → Prop
  | borrowed {value : Value} {op : Op} {trace : Trace} {output : Output}
      (stays : op ≠ .leaveStopped) (calls : ∀ event ∈ trace, event.1.BeforeShutdown)
      (returned : output.Borrowed) :
      Performed value op trace value output
  | shutdown {session : RestartSession} {op : Op} {options : ShutdownOptions} {reply : OperationReply}
      (plain : op = .shutdownWithOptions options ∨ op = .shutdown ∧ options = {}) :
      Performed (.session session) op
        [⟨.rmShutdown session.core.handle.raw options.nativeFlags false, reply⟩]
        (.pending ⟨some session.core, some (reply.outcome .shutdown false)⟩) .state
  | shutdownWithProgress {session : RestartSession} {options : ShutdownOptions} {callback : Callback}
      {trace : Trace}
      {result : Except Payload (Except (OperationNotStarted RestartSession) RestartPending)}
      (run : ProgressRun callback
        (fun reply => ⟨.rmShutdown session.core.handle.raw options.nativeFlags true, reply⟩)
        (.error ⟨session, callbackInUseError⟩)
        (fun reply => .ok ⟨some session.core, some (reply.outcome .shutdown true)⟩)
        (RestartPending.new session.core).drop trace result) :
      Performed (.session session) (.shutdownWithProgress options callback) trace
        (match result with
          | .ok (.ok pending) => .pending pending
          | .ok (.error error) => .shutdownNotStarted error
          | .error _ => .gone)
        (match result with
          | .ok (.ok _) => .state
          | .ok (.error error) => .notStarted error.error
          | .error payload => .panicked payload)
  | shutdownOutcome {core : SessionCore} {outcome : OperationOutcome} :
      Performed (.pending ⟨some core, some outcome⟩) .shutdownOutcome []
        (.pending ⟨some core, some outcome⟩) (.shutdownOutcome outcome)
  | restart {core : SessionCore} {outcome : OperationOutcome} {reply : OperationReply} :
      Performed (.pending ⟨some core, some outcome⟩) .restart
        [⟨.rmRestart core.handle.raw 0 false, reply⟩]
        (.completion ⟨core, ⟨outcome, some (reply.outcome .restart false)⟩⟩) .state
  | restartWithProgress {core : SessionCore} {outcome : OperationOutcome} {callback : Callback}
      {trace : Trace}
      {result : Except Payload (Except (OperationNotStarted RestartPending) RecoveryCompletion)}
      (run : ProgressRun callback (fun reply => ⟨.rmRestart core.handle.raw 0 true, reply⟩)
        (.error ⟨⟨some core, some outcome⟩, callbackInUseError⟩)
        (fun reply => .ok ⟨core, ⟨outcome, some (reply.outcome .restart true)⟩⟩)
        (RestartPending.mk (some core) (some outcome)).drop trace result) :
      Performed (.pending ⟨some core, some outcome⟩) (.restartWithProgress callback) trace
        (match result with
          | .ok (.ok completion) => .completion completion
          | .ok (.error error) => .restartNotStarted error
          | .error _ => .gone)
        (match result with
          | .ok (.ok _) => .state
          | .ok (.error error) => .notStarted error.error
          | .error payload => .panicked payload)
  | leaveStopped {core : SessionCore} {outcome : OperationOutcome} :
      Performed (.pending ⟨some core, some outcome⟩) .leaveStopped []
        (.completion ⟨core, ⟨outcome, none⟩⟩) .state
  | outcome {completion : RecoveryCompletion} :
      Performed (.completion completion) .outcome [] (.completion completion)
        (.outcome completion.outcome)
  | ended {core : SessionCore} {value : Value} {trace : Trace} {result : Except Error Unit}
      (owned : value = .session ⟨core⟩ ∨ value = .joined ⟨core⟩)
      (calls : Ending core.handle.raw trace) :
      Performed value .endSession trace .gone (.done result)
  | completed {completion : RecoveryCompletion} {trace : Trace} {result : Except Error Unit}
      (calls : Ending completion.core.handle.raw trace) :
      Performed (.completion completion) .endSession trace .gone
        (.ended (result.map fun _ => completion.outcome))
  | refusal {session : RestartSession} {error : Error} :
      Performed (.shutdownNotStarted ⟨session, error⟩) .intoParts [] (.session session) .state
  | restartRefusal {pending : RestartPending} {error : Error} :
      Performed (.restartNotStarted ⟨pending, error⟩) .intoParts [] (.pending pending) .state
  | dropped {core : SessionCore} {value : Value} {trace : Trace}
      (owned : value = .session ⟨core⟩ ∨ value = .joined ⟨core⟩ ∨
        (∃ outcome, value = .completion ⟨core, outcome⟩) ∨
        ∃ error, value = .shutdownNotStarted ⟨⟨core⟩, error⟩)
      (calls : Ending core.handle.raw trace) :
      Performed value .dropValue trace .gone (.done (.ok ()))
  | abandoned {core : SessionCore} {outcome : OperationOutcome} {value : Value} {trace : Trace}
      (owned : value = .pending ⟨some core, some outcome⟩ ∨
        ∃ error, value = .restartNotStarted ⟨⟨some core, some outcome⟩, error⟩)
      (dropped : (RestartPending.mk (some core) (some outcome)).drop.Exec trace ()) :
      Performed value .dropValue trace .gone (.done (.ok ()))

section

variable {trace : Trace}

/-- A drop makes at most the one call that ends the session. -/
theorem ending_of_drop {core : SessionCore} (h : core.drop.Exec trace ()) :
    Ending core.handle.raw trace := by
  intro event hMem
  rcases exec_handle_drop_iff.mp h with ⟨-, rfl⟩ | ⟨-, code, rfl⟩
  · cases hMem
  · rw [List.mem_singleton.mp hMem]

/-- The value is the same after a method that borrows it. -/
theorem exec_borrowing {α : Type} {P : Call → Prop} {value : Value} {method : CrateM α}
    {output : Except Error α → Output} {result : Value × Output}
    (run : (borrowing value method output).Exec trace result) (hMethod : Makes P method.run) :
    (∀ event ∈ trace, P event.1) ∧ ∃ r, result = (value, output r) := by
  obtain ⟨first, second, r, rfl, hRun, hReturn⟩ := exec_bind_iff.mp run
  obtain ⟨rfl, rfl⟩ := exec_done_iff.mp hReturn
  rw [List.append_nil]
  exact ⟨hMethod.events hRun, r, rfl⟩

/-- A borrowed value is unchanged also after a method that panicked. -/
theorem exec_borrowingUnwind {α : Type} {P : Call → Prop} {value : Value}
    {method : UnwindM (Except Error α)} {output : Except Error α → Output} {result : Value × Output}
    (run : (borrowingUnwind value method output).Exec trace result) (hMethod : Makes P method.run) :
    (∀ event ∈ trace, P event.1) ∧
      ((∃ r, result = (value, output r)) ∨ ∃ payload, result = (value, .panicked payload)) := by
  obtain ⟨first, second, r, rfl, hRun, hReturn⟩ := exec_bind_iff.mp run
  have hCalls := hMethod.events hRun
  cases r with
  | ok r =>
      obtain ⟨rfl, rfl⟩ := exec_done_iff.mp hReturn
      rw [List.append_nil]
      exact ⟨hCalls, .inl ⟨r, rfl⟩⟩
  | error payload =>
      obtain ⟨rfl, rfl⟩ := exec_done_iff.mp hReturn
      rw [List.append_nil]
      exact ⟨hCalls, .inr ⟨payload, rfl⟩⟩

/-- What is left is made from the result of the method, or gone after a panic. -/
theorem exec_consuming {α : Type} {method : UnwindM α} {next : α → Value × Output}
    {result : Value × Output} (run : (consuming method next).Exec trace result) :
    ∃ r, method.run.Exec trace r ∧ result = match r with
      | .ok a => next a
      | .error payload => (.gone, .panicked payload) := by
  obtain ⟨first, second, r, rfl, hRun, hReturn⟩ := exec_bind_iff.mp run
  cases r with
  | ok a =>
      obtain ⟨rfl, rfl⟩ := exec_done_iff.mp hReturn
      rw [List.append_nil]
      exact ⟨_, hRun, rfl⟩
  | error payload =>
      obtain ⟨rfl, rfl⟩ := exec_done_iff.mp hReturn
      rw [List.append_nil]
      exact ⟨_, hRun, rfl⟩

end

section

variable {op : Op} {p : Native (Value × Output)} {trace : Trace} {value' : Value} {output : Output}

/-- Each operation of a session before its shutdown. -/
theorem performed_session {session : RestartSession} (hOp : performSession session op = some p)
    (run : p.Exec trace (value', output)) :
    Performed (.session session) op trace value' output := by
  have hRegister (resources : ResourceBatch) :
      Makes Call.BeforeShutdown (session.core.registerResources resources).run :=
    (session.core.registerResources_makes resources).mono fun _ => Or.inl
  have hBorrowed {α : Type} {method : CrateM α} {out : Except Error α → Output}
      (hRun : (borrowing (.session session) method out).Exec trace (value', output))
      (hMethod : Makes Call.BeforeShutdown method.run) (hStays : op ≠ .leaveStopped)
      (hOut : ∀ r, (out r).Borrowed) : Performed (.session session) op trace value' output := by
    obtain ⟨hCalls, r, hResult⟩ := exec_borrowing hRun hMethod
    cases hResult
    exact .borrowed hStays hCalls (hOut r)
  have hUnwind {method : UnwindM (Except Error Unit)}
      (hRun : (borrowingUnwind (.session session) method .done).Exec trace (value', output))
      (hMethod : Makes Call.ChangesFilter method.run) (hStays : op ≠ .leaveStopped) :
      Performed (.session session) op trace value' output := by
    have hBefore : Makes Call.BeforeShutdown method.run := hMethod.mono fun _ h => .inr (.inr (.inl h))
    obtain ⟨hCalls, ⟨r, hResult⟩ | ⟨payload, hResult⟩⟩ := exec_borrowingUnwind hRun hBefore
    · cases hResult
      exact .borrowed hStays hCalls trivial
    · cases hResult
      exact .borrowed hStays hCalls trivial
  have hShutdown {options : ShutdownOptions}
      (hRun : (consuming (session.shutdownWithOptions options) fun pending =>
        (.pending pending, .state)).Exec trace (value', output))
      (plain : op = .shutdownWithOptions options ∨ op = .shutdown ∧ options = {}) :
      Performed (.session session) op trace value' output := by
    obtain ⟨r, hMethod, hResult⟩ := exec_consuming hRun
    rw [shutdownWithOptions_run, Program.exec_call_iff] at hMethod
    obtain ⟨reply, rest, rfl, hReturn⟩ := hMethod
    obtain ⟨rfl, rfl⟩ := exec_done_iff.mp hReturn
    cases hResult
    exact .shutdown plain
  cases op <;> simp only [performSession, reduceCtorEq, Option.some.injEq] at hOp <;> subst hOp
  case registerResources => exact hBorrowed run (hRegister _) (by simp) fun _ => trivial
  case registerFiles => exact hBorrowed run (hRegister _) (by simp) fun _ => trivial
  case registerProcesses => exact hBorrowed run (hRegister _) (by simp) fun _ => trivial
  case registerServices => exact hBorrowed run (hRegister _) (by simp) fun _ => trivial
  case affectedApplications =>
    exact hBorrowed run (session.core.affectedApplications_makes.mono fun _ h => .inr (.inl h))
      (by simp) fun _ => trivial
  case setFilter target action => exact hUnwind run (session.setFilter_makes target action) (by simp)
  case removeFilter target => exact hUnwind run (session.removeFilter_makes target) (by simp)
  case filters =>
    exact hBorrowed run (session.filters_makes.mono fun _ h => .inr (.inr (.inr h))) (by simp)
      fun _ => trivial
  case shutdown => exact hShutdown run (.inr ⟨rfl, rfl⟩)
  case shutdownWithOptions options => exact hShutdown run (.inl rfl)
  case shutdownWithProgress options callback =>
    obtain ⟨r, hMethod, hResult⟩ := exec_consuming run
    have hRun := exec_shutdownWithProgress_iff.mp hMethod
    have hPerformed := Performed.shutdownWithProgress hRun
    rcases r with payload | (error | pending) <;> cases hResult <;> exact hPerformed
  case endSession =>
    obtain ⟨first, second, r, rfl, hEnd, hReturn⟩ := exec_bind_iff.mp run
    obtain ⟨rfl, hResult⟩ := exec_done_iff.mp hReturn
    cases hResult
    rw [List.append_nil]
    exact .ended (.inl rfl) ((makes_core_end session.core).events hEnd)

/-- Each operation of a session that was joined. -/
theorem performed_joined {session : JoinedSession} (hOp : performJoined session op = some p)
    (run : p.Exec trace (value', output)) :
    Performed (.joined session) op trace value' output := by
  have hBorrowed {resources : ResourceBatch}
      (hRun : (borrowing (.joined session) (session.core.registerResources resources) .done).Exec trace
        (value', output)) (hStays : op ≠ .leaveStopped) :
      Performed (.joined session) op trace value' output := by
    obtain ⟨hCalls, r, hResult⟩ :=
      exec_borrowing hRun (session.core.registerResources_makes resources)
    cases hResult
    exact .borrowed hStays (fun event hMem => .inl (hCalls event hMem)) trivial
  cases op <;> simp only [performJoined, reduceCtorEq, Option.some.injEq] at hOp <;> subst hOp
  case registerResources => exact hBorrowed run (by simp)
  case registerFiles => exact hBorrowed run (by simp)
  case registerProcesses => exact hBorrowed run (by simp)
  case registerServices => exact hBorrowed run (by simp)
  case endSession =>
    obtain ⟨first, second, r, rfl, hEnd, hReturn⟩ := exec_bind_iff.mp run
    obtain ⟨rfl, hResult⟩ := exec_done_iff.mp hReturn
    cases hResult
    rw [List.append_nil]
    exact .ended (.inr rfl) ((makes_core_end session.core).events hEnd)

/-- Each operation between the shutdown and the recovery. -/
theorem performed_pending {core : SessionCore} {outcome : OperationOutcome}
    (hOp : performPending ⟨some core, some outcome⟩ op = some p)
    (run : p.Exec trace (value', output)) :
    Performed (.pending ⟨some core, some outcome⟩) op trace value' output := by
  cases op <;> simp only [performPending, reduceCtorEq, Option.some.injEq] at hOp <;> subst hOp
  case shutdownOutcome =>
    obtain ⟨rfl, hResult⟩ := exec_done_iff.mp run
    cases hResult
    exact .shutdownOutcome
  case restart =>
    obtain ⟨r, hMethod, hResult⟩ := exec_consuming run
    rw [restart_run, Program.exec_call_iff] at hMethod
    obtain ⟨reply, rest, rfl, hReturn⟩ := hMethod
    obtain ⟨rfl, rfl⟩ := exec_done_iff.mp hReturn
    cases hResult
    exact .restart
  case restartWithProgress callback =>
    obtain ⟨r, hMethod, hResult⟩ := exec_consuming run
    have hPerformed := Performed.restartWithProgress (exec_restartWithProgress_iff.mp hMethod)
    rcases r with payload | (error | completion) <;> cases hResult <;> exact hPerformed
  case leaveStopped =>
    obtain ⟨r, hMethod, hResult⟩ := exec_consuming run
    rw [leaveStopped_run] at hMethod
    obtain ⟨rfl, rfl⟩ := exec_done_iff.mp hMethod
    cases hResult
    exact .leaveStopped

/-- Each operation after the recovery. -/
theorem performed_completion {completion : RecoveryCompletion}
    (hOp : performCompletion completion op = some p) (run : p.Exec trace (value', output)) :
    Performed (.completion completion) op trace value' output := by
  cases op <;> simp only [performCompletion, reduceCtorEq, Option.some.injEq] at hOp <;> subst hOp
  case outcome =>
    obtain ⟨rfl, hResult⟩ := exec_done_iff.mp run
    cases hResult
    exact .outcome
  case affectedApplications =>
    obtain ⟨hCalls, r, hResult⟩ :=
      exec_borrowing run completion.core.affectedApplications_makes
    cases hResult
    exact .borrowed (by simp) (fun event hMem => .inr (.inl (hCalls event hMem))) trivial
  case endSession =>
    obtain ⟨first, second, r, rfl, hEnd, hReturn⟩ := exec_bind_iff.mp run
    obtain ⟨rfl, hResult⟩ := exec_done_iff.mp hReturn
    cases hResult
    obtain ⟨calls, rest, result, rfl, hCore, hMapped⟩ := exec_bind_iff.mp hEnd
    obtain ⟨rfl, rfl⟩ := exec_done_iff.mp hMapped
    rw [List.append_nil, List.append_nil]
    exact .completed ((makes_core_end completion.core).events hCore)

/-- Every operation on a value that a session can be in does what is listed. -/
theorem performed_of_exec {value : Value} {m : Monitor} (hFits : value.Fits m)
    (hOp : perform value op = some p) (run : p.Exec trace (value', output)) :
    Performed value op trace value' output := by
  by_cases hDrop : op = .dropValue
  · subst hDrop
    have hDropped (hMethod : (do value.drop; return ((.gone, .done (.ok ())) : Value × Output)).Exec trace
        (value', output)) :
        value' = .gone ∧ output = .done (.ok ()) ∧ value.drop.Exec trace () := by
      obtain ⟨first, second, ⟨⟩, rfl, hRun, hReturn⟩ := exec_bind_iff.mp hMethod
      obtain ⟨rfl, hResult⟩ := exec_done_iff.mp hReturn
      cases hResult
      rw [List.append_nil]
      exact ⟨rfl, rfl, hRun⟩
    cases hFits with
    | session hOpen =>
        cases hOp
        obtain ⟨rfl, rfl, hRun⟩ := hDropped run
        exact .dropped (.inl rfl) (ending_of_drop hRun)
    | joined hOpen =>
        cases hOp
        obtain ⟨rfl, rfl, hRun⟩ := hDropped run
        exact .dropped (.inr (.inl rfl)) (ending_of_drop hRun)
    | pending hOpen =>
        cases hOp
        obtain ⟨rfl, rfl, hRun⟩ := hDropped run
        exact .abandoned (.inl rfl) hRun
    | completion hOpen hMet =>
        cases hOp
        obtain ⟨rfl, rfl, hRun⟩ := hDropped run
        exact .dropped (.inr (.inr (.inl ⟨_, rfl⟩))) (ending_of_drop hRun)
    | @shutdownNotStarted state error hOpen =>
        cases hOp
        obtain ⟨rfl, rfl, hRun⟩ := hDropped run
        exact .dropped (.inr (.inr (.inr ⟨error, rfl⟩))) (ending_of_drop hRun)
    | @restartNotStarted core outcome error hOpen =>
        cases hOp
        obtain ⟨rfl, rfl, hRun⟩ := hDropped run
        exact .abandoned (.inr ⟨error, rfl⟩) hRun
    | gone => cases hOp
  cases hFits with
  | session hOpen => exact performed_session (perform_session hDrop ▸ hOp) run
  | joined hOpen => exact performed_joined (perform_joined hDrop ▸ hOp) run
  | pending hOpen => exact performed_pending (perform_pending hDrop ▸ hOp) run
  | completion hOpen hMet => exact performed_completion (perform_completion hDrop ▸ hOp) run
  | shutdownNotStarted hOpen =>
      cases op <;> cases hOp
      · obtain ⟨rfl, hResult⟩ := exec_done_iff.mp run
        cases hResult
        exact .refusal
      · exact absurd rfl hDrop
  | restartNotStarted hOpen =>
      cases op <;> cases hOp
      · obtain ⟨rfl, hResult⟩ := exec_done_iff.mp run
        cases hResult
        exact .restartRefusal
      · exact absurd rfl hDrop
  | gone => cases op <;> cases hOp

end

end RestartManager

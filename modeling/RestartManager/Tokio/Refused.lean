import RestartManager.Session.RefusedAttempts
import RestartManager.Tokio.Refinement

/-! Refused operations through the facade. The worker hands its typestate back
and the future its handle, and what follows is as if nothing had been sent. -/
namespace RestartManager

open Interaction Program Transition

namespace Tokio

variable [Platform]

/-! ### The commands -/

/-- The future yields an error that owns a state. -/
def Future.HandsBack (future : Future) (answer : Except Payload Reply × WorkerState) : Prop :=
  ∃ reply error handle, answer.1 = .ok reply ∧ reply.error? = some error ∧
    future.handle reply = some handle

/-- A command that takes the typestate is answered with what its method returned. -/
theorem exec_replacing_iff {method : UnwindM (Reply × WorkerState)} {trace : Trace}
    {answer : Except Payload Reply × WorkerState} :
    (replacing method).Exec trace answer ↔ ∃ r, method.run.Exec trace r ∧ answer = match r with
      | .ok (reply, state) => (.ok reply, state)
      | .error payload => (.error payload, .empty) := by
  unfold replacing
  rw [exec_bind_iff]
  constructor
  · intro h
    obtain ⟨first, second, r, rfl, run, hReturn⟩ := h
    cases r with
    | ok pair =>
        obtain ⟨rfl, rfl⟩ := exec_done_iff.mp hReturn
        rw [List.append_nil]
        exact ⟨_, run, rfl⟩
    | error payload =>
        obtain ⟨rfl, rfl⟩ := exec_done_iff.mp hReturn
        rw [List.append_nil]
        exact ⟨_, run, rfl⟩
  · intro h
    obtain ⟨r, run, rfl⟩ := h
    refine ⟨trace, [], r, (List.append_nil _).symm, run, ?_⟩
    cases r <;> exact .refl _

section

variable {T α : Type} {method : UnwindM (Except (OperationNotStarted T) α)}
  {arm : Except (OperationNotStarted T) α → UnwindM (Reply × WorkerState)}
  {handedBack : OperationNotStarted T} {future : Future} {reply : Reply} {state : WorkerState}

/-- An arm that replies what its method returned. -/
theorem refuses_replacing
    (h : RefusesExactly method.run (fun result => ∃ error, result = .ok (.error error))
      (.ok (.error handedBack)))
    (hRefused : (arm (.error handedBack)).run = .done (.ok (reply, state)))
    (hBack : future.HandsBack (.ok reply, state))
    (hCompleted : ∀ trace a, method.run.Exec trace (.ok (.ok a)) →
      ∃ reply state, (arm (.ok a)).run = .done (.ok (reply, state)) ∧ reply.error? = none) :
    RefusesExactly (replacing (method >>= arm)) future.HandsBack (.ok reply, state) := by
  have hExec {trace : Trace} {answer : Except Payload Reply × WorkerState}
      (hAnswer : (replacing (method >>= arm)).Exec trace answer) :
      (method.run.Exec trace (.ok (.error handedBack)) ∧ trace = [⟨.installLease, false⟩] ∧
        answer = (.ok reply, state)) ∨
      (⟨.installLease, false⟩ ∉ trace ∧ ¬future.HandsBack answer) := by
    obtain ⟨r, hRun, rfl⟩ := exec_replacing_iff.mp hAnswer
    rcases exec_run_bind_iff.mp hRun with ⟨payload, run, rfl⟩ | ⟨first, second, a, rfl, run, hArm⟩
    · refine .inr ⟨fun hMem => ?_, fun hBack => ?_⟩
      · obtain ⟨error, hError⟩ := (h.unless_installed _ _ run).mpr hMem
        cases hError
      · obtain ⟨reply, error, handle, hReply, -⟩ := hBack
        cases hReply
    · cases a with
      | error error =>
          obtain ⟨rfl, -, hResult⟩ := h.untouched _ _ run ⟨error, rfl⟩
          cases hResult
          rw [hRefused] at hArm
          obtain ⟨rfl, rfl⟩ := exec_done_iff.mp hArm
          exact .inl ⟨run, rfl, rfl⟩
      | ok a =>
          obtain ⟨reply', state', hDone, hReply⟩ := hCompleted first a run
          rw [hDone] at hArm
          obtain ⟨rfl, rfl⟩ := exec_done_iff.mp hArm
          rw [List.append_nil]
          refine .inr ⟨fun hMem => ?_, fun hBack => ?_⟩
          · obtain ⟨error, hError⟩ := (h.unless_installed _ _ run).mpr hMem
            cases hError
          · obtain ⟨reply, error, handle, hSame, hError, -⟩ := hBack
            cases hSame
            rw [hReply] at hError
            cases hError
  constructor
  case unless_installed =>
    intro trace answer run
    rcases hExec run with ⟨-, rfl, rfl⟩ | ⟨hTrace, hAnswer⟩
    · exact iff_of_true hBack List.mem_cons_self
    · exact iff_of_false hAnswer hTrace
  case untouched =>
    intro trace answer run hAnswer
    rcases hExec run with ⟨-, rfl, rfl⟩ | ⟨-, hNot⟩
    · exact ⟨rfl, rfl, rfl⟩
    · exact absurd hAnswer hNot
  case possible =>
    refine exec_replacing_iff.mpr ⟨.ok (reply, state), ?_, rfl⟩
    refine exec_run_bind_iff.mpr (.inr ⟨_, [], _, rfl, h.possible, ?_⟩)
    rw [hRefused]
    exact .refl _

end

theorem executeShutdownWithProgress_refuses (core : SessionCore) (options : ShutdownOptions) :
    RefusesExactly (executeCommand (.shutdownWithProgress options) (.primary ⟨core⟩))
      (Future.shutdown core.key core.handle.raw).HandsBack
      (.ok (.shutdown (.recoverable callbackInUseError)), .primary ⟨core⟩) := by
  apply refuses_replacing (shutdownWithProgress_refuses ⟨core⟩ options .watch) rfl
  · exact ⟨_, callbackInUseError, .session core.key core.handle.raw, rfl, rfl, rfl⟩
  · intro trace pending run
    cases exec_shutdownWithProgress_iff.mp run
    exact ⟨_, _, rfl, rfl⟩

theorem executeRestartWithProgress_refuses (core : SessionCore) (outcome : OperationOutcome) :
    RefusesExactly (executeCommand .restartWithProgress (.pending ⟨some core, some outcome⟩))
      (Future.restartWithProgress outcome).HandsBack
      (.ok (.restart (.recoverable callbackInUseError)), .pending ⟨some core, some outcome⟩) := by
  apply refuses_replacing (restartWithProgress_refuses core outcome .watch) rfl
  · exact ⟨_, callbackInUseError, .pending outcome, rfl, rfl, rfl⟩
  · intro trace completion run
    cases exec_restartWithProgress_iff.mp run
    exact ⟨_, _, rfl, rfl⟩

/-- A method that takes progress refuses exactly when the lease is not
installed; the worker and the client are then left with what they had. -/
theorem consumed_refuses {handle : Handle} {state : WorkerState} {op : Op} {command : Command}
    {future : Future} (hMatches : handle.Matches state) (hOp : op.TakesProgress)
    (hSends : handle.consumed op = some (command, future)) :
    ∃ reply, RefusesExactly (executeCommand command state) future.HandsBack (.ok reply, state) ∧
      future.handle reply = some handle := by
  cases hOp with
  | shutdown options callback =>
      cases callback <;> cases hMatches <;> cases hSends
      exact ⟨_, executeShutdownWithProgress_refuses _ options, rfl⟩
  | restart callback =>
      cases callback <;> cases hMatches <;> cases hSends
      exact ⟨_, executeRestartWithProgress_refuses _ _, rfl⟩

/-! ### The worker -/

/-- A command that was served, with its native calls and its reply. -/
structure Service where
  command : Command
  trace : Trace
  reply : Reply

def Serves (state : WorkerState) (service : Service) (state' : WorkerState) : Prop :=
  (executeCommand service.command state).Exec service.trace (.ok service.reply, state')

/-- The commands with progress, and the reply that a refusal sends. -/
inductive Command.RefusedBy : Command → Reply → Prop
  | shutdown (options : ShutdownOptions) :
      RefusedBy (.shutdownWithProgress options) (.shutdown (.recoverable callbackInUseError))
  | restart : RefusedBy .restartWithProgress (.restart (.recoverable callbackInUseError))

/-- The typestate that a command with progress takes. -/
def WorkerState.Takes : WorkerState → Command → Prop
  | .primary _, .shutdownWithProgress _ => True
  | .pending owned, .restartWithProgress => owned.core ≠ none
  | _, _ => False

/-- A refused command is served by any typestate that has it, and leaves it in place. -/
theorem serves_refused_iff {state state' : WorkerState} {command : Command} {reply : Reply}
    (h : command.RefusedBy reply) :
    Serves state ⟨command, [⟨.installLease, false⟩], reply⟩ state' ↔
      state.Takes command ∧ state' = state := by
  cases h with
  | shutdown options =>
      cases state with
      | primary session =>
          constructor
          · intro run
            obtain ⟨response, rest, hTrace, hReturn⟩ := Program.exec_call_iff.mp run
            cases hTrace
            obtain ⟨-, hResult⟩ := exec_done_iff.mp hReturn
            exact ⟨trivial, (Prod.mk.inj hResult).2⟩
          · rintro ⟨-, rfl⟩
            exact .step (.refl _)
      | _ =>
          refine iff_of_false (fun run => ?_) (fun h => h.1)
          cases (exec_done_iff.mp run).1
  | restart =>
      cases state with
      | pending pending =>
          obtain ⟨core, shutdown⟩ := pending
          cases core with
          | none =>
              refine iff_of_false (fun run => ?_) (fun h => h.1 rfl)
              cases (exec_done_iff.mp run).1
          | some core =>
              constructor
              · intro run
                obtain ⟨response, rest, hTrace, hReturn⟩ := Program.exec_call_iff.mp run
                cases hTrace
                obtain ⟨-, hResult⟩ := exec_done_iff.mp hReturn
                exact ⟨Option.some_ne_none _, (Prod.mk.inj hResult).2⟩
              · rintro ⟨-, rfl⟩
                exact .step (.refl _)
      | _ =>
          refine iff_of_false (fun run => ?_) (fun h => h.1)
          cases (exec_done_iff.mp run).1

end Tokio
end RestartManager

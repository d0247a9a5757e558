import RestartManager.Session.Typestates

/-! The dedicated worker thread of an asynchronous session: it owns the
blocking typestate, takes one command after the other and answers each. -/
namespace RestartManager

open Interaction

namespace Tokio

inductive WorkerState
  | primary (session : RestartSession)
  | joined (session : JoinedSession)
  | pending (pending : RestartPending)
  | completion (completion : RecoveryCompletion)
  | empty
  deriving DecidableEq, Repr

/-- A command, without the sender of its reply. -/
inductive Command
  | primaryRegister (resources : ResourceBatch)
  | primaryAffected
  | setFilter (target : FilterTarget) (action : FilterAction)
  | removeFilter (target : FilterTarget)
  | filters
  | shutdown (options : ShutdownOptions)
  | shutdownWithProgress (options : ShutdownOptions)
  | endPrimary
  | restart
  | restartWithProgress
  | leaveStopped
  | completionAffected
  | endCompletion
  | joinedRegister (resources : ResourceBatch)
  | endJoined
  deriving DecidableEq, Repr

inductive ShutdownReply
  | pending (outcome : OperationOutcome)
  | recoverable (error : Error)
  | failed (error : Error)

inductive RestartProgressReply
  | completed (outcome : RecoveryOutcome)
  | recoverable (error : Error)
  | failed (error : Error)

/-- What is sent through the reply channel of a command. -/
inductive Reply
  | done (result : Except Error Unit)
  | applications (result : Except Error AffectedApplications)
  | filters (result : Except Error (List Filter))
  | recovery (result : Except Error RecoveryOutcome)
  | shutdown (reply : ShutdownReply)
  | restart (reply : RestartProgressReply)

def workerUnavailable : Error :=
  .new .asyncWorkerUnavailable none "the dedicated Restart Manager worker is unavailable"

def wrongState : Error :=
  .new .operationOutOfSequence none
    "the asynchronous worker received an operation for the wrong typestate"

variable [Platform]

def WorkerState.drop : WorkerState → Native Unit
  | .primary value => value.drop
  | .joined value => value.drop
  | .pending value => value.drop
  | .completion value => value.drop
  | .empty => return ()

/-- An arm that borrows the typestate, and the state that is left. -/
def replying {α : Type} (state : WorkerState) (method : CrateM α) (reply : Except Error α → Reply) :
    Native (Except Payload Reply × WorkerState) := do
  return (.ok (reply (← method.run)), state)

/-- As above, for a method that may panic. -/
def replyingUnwind {α : Type} (state : WorkerState) (method : UnwindM (Except Error α))
    (reply : Except Error α → Reply) : Native (Except Payload Reply × WorkerState) := do
  return ((← method.run).map reply, state)

/-- An arm that takes the typestate out. A panic leaves `Empty` behind. -/
def replacing (method : UnwindM (Reply × WorkerState)) :
    Native (Except Payload Reply × WorkerState) := do
  match ← method.run with
  | .ok (reply, state) => return (.ok reply, state)
  | .error payload => return (.error payload, .empty)

/-- The arm for every other state, which it leaves in place. -/
def mismatched (state : WorkerState) (reply : Reply) : Native (Except Payload Reply × WorkerState) :=
  return (.ok reply, state)

/-- The reply, or the payload of a panic, and the state that is left. -/
def executeCommand (command : Command) (state : WorkerState) :
    Native (Except Payload Reply × WorkerState) :=
  match command with
  | .primaryRegister resources =>
      match state with
      | .primary session => replying state (session.registerResources resources) .done
      | _ => mismatched state (.done (.error wrongState))
  | .primaryAffected =>
      match state with
      | .primary session => replying state session.affectedApplications .applications
      | _ => mismatched state (.applications (.error wrongState))
  | .setFilter target action =>
      match state with
      | .primary session => replyingUnwind state (session.setFilter target action) .done
      | _ => mismatched state (.done (.error wrongState))
  | .removeFilter target =>
      match state with
      | .primary session => replyingUnwind state (session.removeFilter target) .done
      | _ => mismatched state (.done (.error wrongState))
  | .filters =>
      match state with
      | .primary session => replying state session.filters .filters
      | _ => mismatched state (.filters (.error wrongState))
  | .shutdown options =>
      match state with
      | .primary session => replacing do
          let pending ← session.shutdownWithOptions options
          let outcome ← pending.unwinding pending.shutdownOutcome
          return (.shutdown (.pending outcome), .pending pending)
      | other => mismatched other (.shutdown (.failed wrongState))
  | .shutdownWithProgress options =>
      match state with
      | .primary session => replacing do
          match ← session.shutdownWithProgress options .watch with
          | .ok pending =>
              let outcome ← pending.unwinding pending.shutdownOutcome
              return (.shutdown (.pending outcome), .pending pending)
          | .error notStarted =>
              return (.shutdown (.recoverable notStarted.error), .primary notStarted.state)
      | other => mismatched other (.shutdown (.failed wrongState))
  | .endPrimary =>
      match state with
      | .primary session => replacing do
          return (.done (← ExceptT.lift session.end), .empty)
      | other => mismatched other (.done (.error wrongState))
  | .restart =>
      match state with
      | .pending pending => replacing do
          let completion ← pending.restart
          return (.recovery (.ok completion.outcome), .completion completion)
      | other => mismatched other (.recovery (.error wrongState))
  | .restartWithProgress =>
      match state with
      | .pending pending => replacing do
          match ← pending.restartWithProgress .watch with
          | .ok completion =>
              return (.restart (.completed completion.outcome), .completion completion)
          | .error notStarted =>
              return (.restart (.recoverable notStarted.error), .pending notStarted.state)
      | other => mismatched other (.restart (.failed wrongState))
  | .leaveStopped =>
      match state with
      | .pending pending => replacing do
          let completion ← pending.leaveStopped
          return (.recovery (.ok completion.outcome), .completion completion)
      | other => mismatched other (.recovery (.error wrongState))
  | .completionAffected =>
      match state with
      | .completion completion => replying state completion.affectedApplications .applications
      | _ => mismatched state (.applications (.error wrongState))
  | .endCompletion =>
      match state with
      | .completion completion => replacing do
          return (.recovery (← ExceptT.lift completion.end), .empty)
      | other => mismatched other (.recovery (.error wrongState))
  | .joinedRegister resources =>
      match state with
      | .joined session => replying state (session.registerResources resources) .done
      | _ => mismatched state (.done (.error wrongState))
  | .endJoined =>
      match state with
      | .joined session => replacing do
          return (.done (← ExceptT.lift session.end), .empty)
      | other => mismatched other (.done (.error wrongState))

end Tokio
end RestartManager

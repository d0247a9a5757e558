import RestartManager.Session.Typestates

/-! The public operations of one session, over whatever typestate its owner
holds. An operation that its typestate does not have is not a program the
compiler accepts, and has no meaning here either. -/
namespace RestartManager

open Interaction

/-- What the owner of a session holds. -/
inductive Value
  | session (session : RestartSession)
  | joined (session : JoinedSession)
  | pending (pending : RestartPending)
  | completion (completion : RecoveryCompletion)
  | shutdownNotStarted (error : OperationNotStarted RestartSession)
  | restartNotStarted (error : OperationNotStarted RestartPending)
  | gone
  deriving DecidableEq, Repr

inductive Op
  | registerResources (resources : ResourceBatch)
  | registerFiles (files : List PathBuf)
  | registerProcesses (processes : List ProcessIdentity)
  | registerServices (services : List OsString)
  | affectedApplications
  | setFilter (target : FilterTarget) (action : FilterAction)
  | removeFilter (target : FilterTarget)
  | filters
  | shutdown
  | shutdownWithOptions (options : ShutdownOptions)
  | shutdownWithProgress (options : ShutdownOptions) (callback : Callback)
  | shutdownOutcome
  | restart
  | restartWithProgress (callback : Callback)
  | leaveStopped
  | outcome
  | endSession
  /-- The state of an `OperationNotStarted`, with its error discarded. -/
  | intoParts
  | dropValue
  deriving DecidableEq, Repr

/-- What an operation returns besides the typestate. -/
inductive Output
  | done (result : Except Error Unit)
  | applications (result : Except Error AffectedApplications)
  | filters (result : Except Error (List Filter))
  | ended (result : Except Error RecoveryOutcome)
  | shutdownOutcome (outcome : OperationOutcome)
  | outcome (outcome : RecoveryOutcome)
  | state
  | notStarted (error : Error)
  | panicked (payload : Payload)

variable [Platform]

/-- What Rust runs when the owner drops the value. -/
def Value.drop : Value → Native Unit
  | .session value => value.drop
  | .joined value => value.drop
  | .pending value => value.drop
  | .completion value => value.drop
  | .shutdownNotStarted error => error.state.drop
  | .restartNotStarted error => error.state.drop
  | .gone => return ()

/-- A method that borrows its value leaves it in place. -/
def borrowing {α : Type} (value : Value) (method : CrateM α) (output : Except Error α → Output) :
    Native (Value × Output) := do
  return (value, output (← method.run))

/-- A method that takes its value returns the next one, or unwinds. -/
def consuming {α : Type} (method : UnwindM α) (next : α → Value × Output) :
    Native (Value × Output) := do
  match ← method.run with
  | .ok result => return next result
  | .error payload => return (.gone, .panicked payload)

/-- A borrowing method that may panic; the owner's value survives the panic. -/
def borrowingUnwind {α : Type} (value : Value) (method : UnwindM (Except Error α))
    (output : Except Error α → Output) : Native (Value × Output) := do
  match ← method.run with
  | .ok result => return (value, output result)
  | .error payload => return (value, .panicked payload)

def performSession (session : RestartSession) : Op → Option (Native (Value × Output))
  | .registerResources resources =>
      some (borrowing (.session session) (session.registerResources resources) .done)
  | .registerFiles files => some (borrowing (.session session) (session.registerFiles files) .done)
  | .registerProcesses processes =>
      some (borrowing (.session session) (session.registerProcesses processes) .done)
  | .registerServices services =>
      some (borrowing (.session session) (session.registerServices services) .done)
  | .affectedApplications =>
      some (borrowing (.session session) session.affectedApplications .applications)
  | .setFilter target action =>
      some (borrowingUnwind (.session session) (session.setFilter target action) .done)
  | .removeFilter target =>
      some (borrowingUnwind (.session session) (session.removeFilter target) .done)
  | .filters => some (borrowing (.session session) session.filters .filters)
  | .shutdown => some (consuming session.shutdown fun pending => (.pending pending, .state))
  | .shutdownWithOptions options =>
      some (consuming (session.shutdownWithOptions options) fun pending => (.pending pending, .state))
  | .shutdownWithProgress options callback =>
      some (consuming (session.shutdownWithProgress options callback) fun
        | .ok pending => (.pending pending, .state)
        | .error error => (.shutdownNotStarted error, .notStarted error.error))
  | .endSession => some do return (.gone, .done (← session.end))
  | _ => none

def performJoined (session : JoinedSession) : Op → Option (Native (Value × Output))
  | .registerResources resources =>
      some (borrowing (.joined session) (session.registerResources resources) .done)
  | .registerFiles files => some (borrowing (.joined session) (session.registerFiles files) .done)
  | .registerProcesses processes =>
      some (borrowing (.joined session) (session.registerProcesses processes) .done)
  | .registerServices services =>
      some (borrowing (.joined session) (session.registerServices services) .done)
  | .endSession => some do return (.gone, .done (← session.end))
  | _ => none

def performPending (pending : RestartPending) : Op → Option (Native (Value × Output))
  | .shutdownOutcome => some <| return match pending.shutdownOutcome with
      | .ok outcome => (.pending pending, .shutdownOutcome outcome)
      | .error payload => (.pending pending, .panicked payload)
  | .restart => some (consuming pending.restart fun completion => (.completion completion, .state))
  | .restartWithProgress callback =>
      some (consuming (pending.restartWithProgress callback) fun
        | .ok completion => (.completion completion, .state)
        | .error error => (.restartNotStarted error, .notStarted error.error))
  | .leaveStopped =>
      some (consuming pending.leaveStopped fun completion => (.completion completion, .state))
  | _ => none

def performCompletion (completion : RecoveryCompletion) : Op → Option (Native (Value × Output))
  | .outcome => some (return (.completion completion, .outcome completion.outcome))
  | .affectedApplications =>
      some (borrowing (.completion completion) completion.affectedApplications .applications)
  | .endSession => some do return (.gone, .ended (← completion.end))
  | _ => none

/-- The program of an operation on a value that has it. -/
def perform (value : Value) (op : Op) : Option (Native (Value × Output)) :=
  match op, value with
  | .dropValue, .gone => none
  | .dropValue, value => some do
      value.drop
      return (.gone, .done (.ok ()))
  | op, .session session => performSession session op
  | op, .joined session => performJoined session op
  | op, .pending pending => performPending pending op
  | op, .completion completion => performCompletion completion op
  | .intoParts, .shutdownNotStarted error => some (return (.session error.state, .state))
  | .intoParts, .restartNotStarted error => some (return (.pending error.state, .state))
  | _, _ => none

section

variable {op : Op}

theorem perform_session {session : RestartSession} (h : op ≠ .dropValue) :
    perform (.session session) op = performSession session op := by
  cases op <;> first | rfl | exact absurd rfl h

theorem perform_joined {session : JoinedSession} (h : op ≠ .dropValue) :
    perform (.joined session) op = performJoined session op := by
  cases op <;> first | rfl | exact absurd rfl h

theorem perform_pending {pending : RestartPending} (h : op ≠ .dropValue) :
    perform (.pending pending) op = performPending pending op := by
  cases op <;> first | rfl | exact absurd rfl h

theorem perform_completion {completion : RecoveryCompletion} (h : op ≠ .dropValue) :
    perform (.completion completion) op = performCompletion completion op := by
  cases op <;> first | rfl | exact absurd rfl h

end

end RestartManager

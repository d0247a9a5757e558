import RestartManager.Session.Core

/-! The typestates of a session. A method that takes its value by ownership
returns the value of the next typestate, and what Rust drops at the end of a
method or while unwinding is dropped here by name. -/
namespace RestartManager

open Interaction

/-- What the progress closure captures. -/
structure Delivery where
  last : Option Progress
  malformed : Bool
  deriving DecidableEq, Repr

def malformedProgressError : Error :=
  .new .malformedOsData none "Windows reported progress outside 0..=100 or not strictly increasing"

def operationNotStarted : SysError → Bool
  | .callbackInUse | .unsupportedPlatform => true
  | _ => false

structure RestartSession where
  core : SessionCore
  deriving DecidableEq, Repr

/-- The state entered after any shutdown attempt. -/
structure RestartPending where
  core : Option SessionCore
  shutdown : Option OperationOutcome
  deriving DecidableEq, Repr

structure RecoveryCompletion where
  core : SessionCore
  outcome : RecoveryOutcome
  deriving DecidableEq, Repr

/-- A consuming operation that failed before native work began. -/
structure OperationNotStarted (T : Type) where
  state : T
  error : Error
  deriving DecidableEq, Repr

structure JoinedSession where
  core : SessionCore
  deriving DecidableEq, Repr

variable [Platform]

/-- Call the closure of a caller, or replace the value of a watch channel. -/
def Callback.call (callback : Callback) (progress : Progress) : Native (Option Payload) :=
  match callback with
  | .user => Program.request (Call.invokeCallback progress)
  | .watch => do
      Program.request (Call.sendReplace progress)
      return none

def deliverProgress (callback : Callback) : Closure Delivery := fun native state =>
  if state.malformed then return (none, state)
  else
    match Progress.tryFromNative native with
    | none => return (none, { state with malformed := true })
    | some progress =>
        if state.last.any fun previous => decide (progress ≤ previous) then
          return (none, { state with malformed := true })
        else do
          let panic ← callback.call progress
          return (panic, { state with last := some progress })

namespace RestartPending

def new (core : SessionCore) : RestartPending := { core := some core, shutdown := some .succeeded }

/-- The method `core`. -/
def coreRef (pending : RestartPending) : Except Payload SessionCore :=
  match pending.core with
  | some core => .ok core
  | none => .error (.expect "pending session owns its core")

def takeCore (pending : RestartPending) : Except Payload (SessionCore × RestartPending) :=
  match pending.core with
  | some core => .ok (core, { pending with core := none })
  | none => .error (.expect "pending session owns its core")

def takeShutdown (pending : RestartPending) : Except Payload (OperationOutcome × RestartPending) :=
  match pending.shutdown with
  | some outcome => .ok (outcome, { pending with shutdown := none })
  | none => .error (.expect "pending session owns its shutdown outcome")

def shutdownOutcome (pending : RestartPending) : Except Payload OperationOutcome :=
  match pending.shutdown with
  | some outcome => .ok outcome
  | none => .error (.expect "pending session owns its shutdown outcome")

/-- One best-effort restart, and then the end of the session. -/
def drop (pending : RestartPending) : Native Unit :=
  match pending.core with
  | some core => do
      let _ ← core.handle.restart.run
      core.drop
  | none => return ()

/-- A panic of a method that owns the pending value drops it on the way out. -/
def unwinding {α : Type} (pending : RestartPending) : Except Payload α → UnwindM α
  | .ok value => return value
  | .error payload => do
      ExceptT.lift pending.drop
      throw payload

def restart (pending : RestartPending) : UnwindM RecoveryCompletion := do
  let core ← pending.unwinding pending.coreRef
  let result ← ExceptT.lift (mapErr core.handle.restart (mapOperationError · .restart)).run
  let (shutdown, pending) ← pending.unwinding pending.takeShutdown
  let outcome : RecoveryOutcome := { shutdown, restart := some (.fromResult result) }
  let (core, pending) ← pending.unwinding pending.takeCore
  ExceptT.lift pending.drop
  return { core, outcome }

/-- The part of `restart_with_progress` after a native call that was made. -/
def complete (pending : RestartPending) (restart : OperationOutcome) :
    UnwindM RecoveryCompletion := do
  let (shutdown, pending) ← pending.unwinding pending.takeShutdown
  let outcome : RecoveryOutcome := { shutdown, restart := some restart }
  let (core, pending) ← pending.unwinding pending.takeCore
  ExceptT.lift pending.drop
  return { core, outcome }

def restartWithProgress (pending : RestartPending) (callback : Callback) :
    UnwindM (Except (OperationNotStarted RestartPending) RecoveryCompletion) := do
  let core ← pending.unwinding pending.coreRef
  let (outcome, delivery) ← ExceptT.lift
    (core.handle.restartWithProgress (deliverProgress callback) { last := none, malformed := false })
  match ← pending.unwinding outcome with
  | .error error =>
      if operationNotStarted error then
        return .error { state := pending, error := mapSysError error }
      else return .ok (← pending.complete (.failed (mapOperationError error .restart)))
  | .ok () =>
      let restart : OperationOutcome :=
        if delivery.malformed then .failed malformedProgressError else .succeeded
      return .ok (← pending.complete restart)

def leaveStopped (pending : RestartPending) : UnwindM RecoveryCompletion := do
  let (shutdown, pending) ← pending.unwinding pending.takeShutdown
  let outcome : RecoveryOutcome := { shutdown, restart := none }
  let (core, pending) ← pending.unwinding pending.takeCore
  ExceptT.lift pending.drop
  return { core, outcome }

end RestartPending

namespace RestartSession

def drop (session : RestartSession) : Native Unit := session.core.drop

def new : Native (Except Error RestartSession) := do
  return (← SessionCore.start).map fun core => { core }

def registerResources (session : RestartSession) (resources : ResourceBatch) : CrateM Unit :=
  session.core.registerResources resources

def registerFiles (session : RestartSession) (files : List PathBuf) : CrateM Unit :=
  session.core.registerResources (files.foldl ResourceBatch.addFile .new)

def registerProcesses (session : RestartSession) (processes : List ProcessIdentity) : CrateM Unit :=
  session.core.registerResources (processes.foldl ResourceBatch.addProcess .new)

def registerServices (session : RestartSession) (services : List OsString) : CrateM Unit :=
  session.core.registerResources (services.foldl ResourceBatch.addService .new)

def affectedApplications (session : RestartSession) : CrateM AffectedApplications :=
  session.core.affectedApplications

def shutdownWithOptions (session : RestartSession) (options : ShutdownOptions) :
    UnwindM RestartPending := do
  let pending := RestartPending.new session.core
  let core ← pending.unwinding pending.coreRef
  let result ← ExceptT.lift
    (mapErr (core.handle.shutdown options.nativeFlags) (mapOperationError · .shutdown)).run
  return { pending with shutdown := some (.fromResult result) }

def shutdown (session : RestartSession) : UnwindM RestartPending := session.shutdownWithOptions {}

def shutdownWithProgress (session : RestartSession) (options : ShutdownOptions)
    (callback : Callback) : UnwindM (Except (OperationNotStarted RestartSession) RestartPending) := do
  let pending := RestartPending.new session.core
  let core ← pending.unwinding pending.coreRef
  let (outcome, delivery) ← ExceptT.lift (core.handle.shutdownWithProgress options.nativeFlags
    (deliverProgress callback) { last := none, malformed := false })
  match ← pending.unwinding outcome with
  | .error error =>
      if operationNotStarted error then do
        let (core, pending) ← pending.unwinding pending.takeCore
        ExceptT.lift pending.drop
        return .error { state := { core }, error := mapSysError error }
      else
        let outcome := OperationOutcome.failed (mapOperationError error .shutdown)
        return .ok { pending with shutdown := some outcome }
  | .ok () =>
      let outcome : OperationOutcome :=
        if delivery.malformed then .failed malformedProgressError else .succeeded
      return .ok { pending with shutdown := some outcome }

/-- The session is borrowed here, so an unwinding panic leaves it alone. -/
def setFilter (session : RestartSession) (target : FilterTarget) (action : FilterAction) :
    UnwindM (Except Error Unit) := do
  let target ← ExceptT.mk (pure (rawFilterTarget target))
  ExceptT.lift (mapErr (session.core.handle.addFilter target (rawFilterAction action))
    (mapOperationError · .setFilter)).run

def removeFilter (session : RestartSession) (target : FilterTarget) :
    UnwindM (Except Error Unit) := do
  let target ← ExceptT.mk (pure (rawFilterTarget target))
  ExceptT.lift (mapErr (session.core.handle.removeFilter target)
    (mapOperationError · .removeFilter)).run

def filters (session : RestartSession) : CrateM (List Filter) := do
  let raws ← mapErr session.core.handle.filters (mapOperationError · .filters)
  ofResult (raws.mapM filterFromRaw)

def «end» (session : RestartSession) : Native (Except Error Unit) := session.core.end

end RestartSession

namespace RecoveryCompletion

def drop (completion : RecoveryCompletion) : Native Unit := completion.core.drop

def affectedApplications (completion : RecoveryCompletion) : CrateM AffectedApplications :=
  completion.core.affectedApplications

def «end» (completion : RecoveryCompletion) : Native (Except Error RecoveryOutcome) := do
  let result ← completion.core.end
  return result.map fun _ => completion.outcome

end RecoveryCompletion

namespace JoinedSession

def drop (session : JoinedSession) : Native Unit := session.core.drop

def join (key : SessionKey) : CrateM JoinedSession := do
  let core ← SessionCore.join key
  return { core }

def registerResources (session : JoinedSession) (resources : ResourceBatch) : CrateM Unit :=
  session.core.registerResources resources

def registerFiles (session : JoinedSession) (files : List PathBuf) : CrateM Unit :=
  session.core.registerResources (files.foldl ResourceBatch.addFile .new)

def registerProcesses (session : JoinedSession) (processes : List ProcessIdentity) : CrateM Unit :=
  session.core.registerResources (processes.foldl ResourceBatch.addProcess .new)

def registerServices (session : JoinedSession) (services : List OsString) : CrateM Unit :=
  session.core.registerResources (services.foldl ResourceBatch.addService .new)

def «end» (session : JoinedSession) : Native (Except Error Unit) := session.core.end

end JoinedSession
end RestartManager

import RestartManager.Sys.Applications
import RestartManager.Sys.Callback
import RestartManager.Sys.Filters

/-! The owner of one native session handle. -/
namespace RestartManager

open Interaction

/-- `ended` is the value that the mutex of the same name guards. -/
structure SessionHandle where
  raw : UInt32
  ended : Bool
  deriving DecidableEq, Repr

abbrev RM_NO_RESTART : Int32 := 1
abbrev RM_NO_SHUTDOWN : Int32 := 2

/-- The three optional pointers to the target of a filter. -/
structure FilterPointers where
  filename : Option WideString
  process : Option RmUniqueProcess
  service : Option WideString

def FilterPointers.new : RawFilterTarget → FilterPointers
  | .executable path => ⟨some (.new path), none, none⟩
  | .process value => ⟨none, some (nativeUniqueProcess value), none⟩
  | .service name => ⟨none, none, some (.new name)⟩

variable [Platform]

namespace SessionHandle

/-- The drop of the last owner. -/
def drop (handle : SessionHandle) : Native Unit := do
  if !handle.ended then
    let _ ← Program.request (.rmEndSession handle.raw)

/-- An owner exists from the moment the native start succeeds, so a key that
cannot be decoded ends the session again. -/
def start : Native (SysResult (SessionHandle × List UInt8)) := do
  let reply ← Program.request Call.rmStartSession
  match check reply.code with
  | .error error => return .error error
  | .ok () =>
      let owner : SessionHandle := { raw := reply.raw, ended := false }
      match decodeFixed reply.key.toList with
      | .error error => do
          owner.drop
          return .error error
      | .ok key =>
          match key.intoString with
          | none => do
              owner.drop
              return .error (.malformedOutput "session key was not valid Unicode")
          | some key => return .ok (owner, key)

def join (key : OsString) : SysM SessionHandle := do
  let reply ← sysCall (.rmJoinSession (.new key))
  ofResult (check reply.code)
  return { raw := reply.raw, ended := false }

def registerResources (handle : SessionHandle) (files : List PathBuf)
    (processes : List RawUniqueProcess) (services : List OsString) : SysM Unit := do
  let fileCount ← ofResult (count files.length)
  let processCount ← ofResult (count processes.length)
  let serviceCount ← ofResult (count services.length)
  let fileStrings := files.map WideString.new
  let serviceStrings := services.map WideString.new
  let nativeProcesses := processes.map nativeUniqueProcess
  let code ← sysCall (.rmRegisterResources handle.raw fileCount (pointerOrNull fileStrings)
    processCount (pointerOrNull nativeProcesses) serviceCount (pointerOrNull serviceStrings))
  ofResult (check code)

def affectedApplications (handle : SessionHandle) : SysM RawAffectedApplications :=
  RestartManager.affectedApplications handle.raw

def addFilter (handle : SessionHandle) (target : RawFilterTarget) (action : Int32) : SysM Unit :=
  if action ≠ RM_NO_RESTART ∧ action ≠ RM_NO_SHUTDOWN then
    throw (.invalidInput "invalid filter action")
  else do
    let pointers := FilterPointers.new target
    let code ← sysCall (.rmAddFilter handle.raw pointers.filename pointers.process
      pointers.service action)
    ofResult (check code)

def removeFilter (handle : SessionHandle) (target : RawFilterTarget) : SysM Unit := do
  let pointers := FilterPointers.new target
  let code ← sysCall (.rmRemoveFilter handle.raw pointers.filename pointers.process
    pointers.service)
  ofResult (check code)

def filters (handle : SessionHandle) : SysM (List RawFilter) := getFilters handle.raw

def shutdown (handle : SessionHandle) (flags : UInt32) : SysM Unit := do
  let reply ← sysCall (.rmShutdown handle.raw flags false)
  ofResult (check reply.code)

def shutdownWithProgress {σ : Type} (handle : SessionHandle) (flags : UInt32) (callback : Closure σ)
    (captured : σ) : Native (Except Payload (SysResult Unit) × σ) :=
  runWithCallback callback captured fun trampoline =>
    Program.request (Call.rmShutdown handle.raw flags trampoline)

def restart (handle : SessionHandle) : SysM Unit := do
  let reply ← sysCall (.rmRestart handle.raw 0 false)
  ofResult (check reply.code)

def restartWithProgress {σ : Type} (handle : SessionHandle) (callback : Closure σ) (captured : σ) :
    Native (Except Payload (SysResult Unit) × σ) :=
  runWithCallback callback captured fun trampoline =>
    Program.request (Call.rmRestart handle.raw 0 trampoline)

/-- Runs with the mutex held, as does `end`. -/
def cancel (handle : SessionHandle) : SysM Unit :=
  if handle.ended then throw .sessionEnded
  else do
    let code ← sysCall (.rmCancelCurrentTask handle.raw)
    ofResult (check code)

def «end» (handle : SessionHandle) : Native (SysResult Unit × SessionHandle) :=
  if handle.ended then return (.ok (), handle)
  else do
    let code ← Program.request (.rmEndSession handle.raw)
    let result := check code
    return (result, { handle with ended := result.isOk })

end SessionHandle
end RestartManager

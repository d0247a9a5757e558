import RestartManager.Session.Raw

/-! The lookup of a process by its ID. A handle is opened on the process, its
times are read through the handle, and the handle is closed again. -/
namespace RestartManager

open Interaction

/-- A null handle is zero. -/
abbrev HANDLE := UInt64

abbrev PROCESS_QUERY_LIMITED_INFORMATION : UInt32 := 0x1000

/-- What a call returns, and the last error of its thread once it has returned. -/
structure OpenReply where
  raw : HANDLE
  lastError : UInt32
  deriving DecidableEq, Repr

/-- The creation time is written by a call that succeeds. -/
structure TimesReply where
  ok : Int32
  creation : FileTime
  lastError : UInt32
  deriving DecidableEq, Repr

structure CloseReply where
  ok : Int32
  lastError : UInt32
  deriving DecidableEq, Repr

inductive ProcessCall
  | getCurrentProcessId
  | openProcess (desiredAccess inheritHandle processId : UInt32)
  | getLastError
  | getProcessTimes (process : HANDLE)
  | closeHandle (object : HANDLE)
  deriving DecidableEq, Repr

/-- The ID of a process that runs is no sentinel. -/
abbrev ProcessCall.Response : ProcessCall → Type
  | getCurrentProcessId => { pid : UInt32 // pid ≠ 0 ∧ pid ≠ INVALID_NATIVE_ID }
  | openProcess .. => OpenReply
  | getLastError => UInt32
  | getProcessTimes _ => TimesReply
  | closeHandle _ => CloseReply

abbrev QueryM (α : Type) := Program ProcessCall ProcessCall.Response α

/-! ### The native adapter -/

structure ProcessHandle where
  raw : HANDLE
  deriving DecidableEq, Repr

def ProcessHandle.drop (handle : ProcessHandle) : QueryM Unit := do
  let _ ← Program.request (.closeHandle handle.raw)

/-- The handle is dropped once the result is made, whatever it is. -/
def processFromPid (pid : UInt32) :
    QueryM (SysResult { process : RawUniqueProcess // process.pid = pid }) := do
  let opened : OpenReply ← Program.request (ProcessCall.openProcess PROCESS_QUERY_LIMITED_INFORMATION 0 pid)
  if opened.raw = 0 then
    let code ← Program.request .getLastError
    return .error (.os code)
  else
    let handle : ProcessHandle := ⟨opened.raw⟩
    let times : TimesReply ← Program.request (ProcessCall.getProcessTimes handle.raw)
    if times.ok = 0 then
      let code ← Program.request .getLastError
      handle.drop
      return .error (.os code)
    else
      handle.drop
      return .ok ⟨{ pid, startTime := filetimeToU64 times.creation }, rfl⟩

def currentProcess : QueryM (SysResult { process : RawUniqueProcess //
    process.pid ≠ 0 ∧ process.pid ≠ INVALID_NATIVE_ID }) := do
  let pid ← Program.request .getCurrentProcessId
  let result ← processFromPid pid
  return result.map fun ⟨process, hPid⟩ => ⟨process, by rw [hPid]; exact pid.property⟩

/-! ### Identities -/

namespace ProcessIdentity

def fromPid (pid : UInt32) : QueryM (Except Error ProcessIdentity) :=
  if h : pid = 0 ∨ pid = INVALID_NATIVE_ID then return fromRawParts pid 0
  else do
    let result ← processFromPid pid
    return (result.map fun ⟨process, hPid⟩ => processFromRaw process (fun h' => h (.inl (hPid ▸ h')))
      fun h' => h (.inr (hPid ▸ h'))).mapError mapSysError

def current : QueryM (Except Error ProcessIdentity) := do
  let result ← currentProcess
  return (result.map fun ⟨process, hValid⟩ => processFromRaw process hValid.1 hValid.2).mapError
    mapSysError

end ProcessIdentity
end RestartManager

import RestartManager.Resource
import RestartManager.Session.Raw
import RestartManager.Sys.Handle

/-! The native handle and its key, which every typestate of a session owns. -/
namespace RestartManager

open Interaction

/-- ASCII hexadecimal digits. -/
def isAsciiHexdigit (byte : UInt8) : Bool :=
  (0x30 ≤ byte && byte ≤ 0x39) || (0x41 ≤ byte && byte ≤ 0x46) || (0x61 ≤ byte && byte ≤ 0x66)

def isValidKey (value : List UInt8) : Bool := value.length = 32 && value.all isAsciiHexdigit

/-- A validated session key. -/
structure SessionKey where
  value : List UInt8
  valid : isValidKey value = true
  deriving DecidableEq, Repr

namespace SessionKey

def generated (value : List UInt8) : Except Error SessionKey :=
  if h : isValidKey value = true then .ok ⟨value, h⟩
  else .error (.new .malformedOsData none "Windows returned a malformed Restart Manager session key")

/-- The key as text, in UTF-8. -/
def intoString (key : SessionKey) : List UInt8 := key.value

def fromStr (value : List UInt8) : Except ParseSessionKeyError SessionKey :=
  if h : isValidKey value = true then .ok ⟨value, h⟩ else .error {}

/-- The key as an operating-system string; its bytes are ASCII. -/
def asStr (key : SessionKey) : OsString := ⟨key.value.map UInt8.toUInt16⟩

end SessionKey

structure SessionCore where
  handle : SessionHandle
  key : SessionKey
  deriving DecidableEq, Repr

variable [Platform]

def validateAndAbsoluteFile (path : PathBuf) : CrateM PathBuf := do
  let path ← absoluteUserPath path "a file path"
  if ← sysCall (.pathIsDir path) then
    throw (.new .directoryNotSupported none
      "Restart Manager does not support directory resources")
  else return path

/-- The adapter's error becomes an error of the crate. -/
def mapErr {α : Type} (result : SysM α) (f : SysError → Error) : CrateM α := result.adapt f

@[simp] theorem wp_mapErr {State α : Type} (C : Contract Call.Response State) (result : SysM α)
    (f : SysError → Error) (Q : Except Error α → State → Prop) (s : State) :
    C.wp (mapErr result f).run Q s ↔ C.wp result.run (fun r => Q (r.mapError f)) s := by
  change C.wp (Except.mapError f <$> result.run) Q s ↔ _
  rw [map_eq_pure_bind, Contract.wp_bind]
  rfl

namespace SessionCore

/-- Only one strong reference to the handle is ever stored. -/
def drop (core : SessionCore) : Native Unit := core.handle.drop

/-- A malformed key drops the handle that the native start returned. -/
def start : Native (Except Error SessionCore) := do
  match ← SessionHandle.start with
  | .error error => return .error (mapSysError error)
  | .ok (handle, key) =>
      match SessionKey.generated key with
      | .ok key => return .ok { handle, key }
      | .error error => do
          handle.drop
          return .error error

def join (key : SessionKey) : CrateM SessionCore := do
  let handle ← mapErr (SessionHandle.join key.asStr) mapJoinError
  return { handle, key }

def registerResources (core : SessionCore) (resources : ResourceBatch) : CrateM Unit :=
  if resources.isEmpty then return ()
  else do
    let files ← resources.files.mapM validateAndAbsoluteFile
    let processes := resources.processes.map rawProcess
    let services ← resources.services.mapM fun name => do
      ofResult (validateUserOsValue name "a service short name")
      return name
    mapErr (core.handle.registerResources files processes services)
      (mapOperationError · .register)

def affectedApplications (core : SessionCore) : CrateM AffectedApplications := do
  let raw ← mapErr core.handle.affectedApplications (mapOperationError · .report)
  return applicationReport raw

/-- The core is dropped at the end of the method, after the native end. -/
def «end» (core : SessionCore) : Native (Except Error Unit) := do
  let (result, handle) ← core.handle.end
  handle.drop
  return result.mapError (mapOperationError · .end)

/-! ### Beginning a session -/

section Begin

variable {State : Type} {C : Contract Call.Response State} {s : State}
  {Q : Except Error SessionCore → State → Prop}

/-- A start hands out the open handle of a native start that succeeded, or
ends that session again; any other start leaves none behind. -/
theorem wp_start (hStart : C.guarantee s .rmStartSession)
    (hOpen : ∀ reply key, reply.code = ERROR_SUCCESS → C.rely s .rmStartSession reply →
      Q (.ok ⟨⟨reply.raw, false⟩, key⟩) (C.next s .rmStartSession reply))
    (hEnd : ∀ reply, reply.code = ERROR_SUCCESS → C.rely s .rmStartSession reply →
      C.guarantee (C.next s .rmStartSession reply) (.rmEndSession reply.raw) ∧
      ∀ code error, C.rely (C.next s .rmStartSession reply) (.rmEndSession reply.raw) code →
        Q (.error error) (C.next (C.next s .rmStartSession reply) (.rmEndSession reply.raw) code))
    (hFail : ∀ reply error, reply.code ≠ ERROR_SUCCESS → C.rely s .rmStartSession reply →
      Q (.error error) (C.next s .rmStartSession reply)) :
    C.wp SessionCore.start Q s := by
  rw [SessionCore.start, Contract.wp_bind, SessionHandle.start, Contract.wp_request_bind]
  refine ⟨hStart, fun reply hr => ?_⟩
  by_cases hCode : reply.code = ERROR_SUCCESS
  · obtain ⟨hAllowed, hEnded⟩ := hEnd reply hCode hr
    simp only [check, hCode, if_pos]
    cases decodeFixed reply.key.toList with
    | error error => exact ⟨hAllowed, fun code h => hEnded code _ h⟩
    | ok units =>
        dsimp only
        cases units.intoString with
        | none => exact ⟨hAllowed, fun code h => hEnded code _ h⟩
        | some text =>
            change C.wp (match SessionKey.generated text with
              | .ok key => _
              | .error error => _) _ _
            cases SessionKey.generated text with
            | ok key => exact hOpen reply key hCode hr
            | error error => exact ⟨hAllowed, fun code h => hEnded code _ h⟩
  · simp only [check, hCode]
    exact hFail reply _ hCode hr

theorem wp_join {key : SessionKey} (hJoin : C.guarantee s (.rmJoinSession (.new key.asStr)))
    (hOpen : ∀ reply, reply.code = ERROR_SUCCESS →
      C.rely s (.rmJoinSession (.new key.asStr)) reply →
      Q (.ok ⟨⟨reply.raw, false⟩, key⟩) (C.next s (.rmJoinSession (.new key.asStr)) reply))
    (hFail : ∀ reply error, reply.code ≠ ERROR_SUCCESS →
      C.rely s (.rmJoinSession (.new key.asStr)) reply →
      Q (.error error) (C.next s (.rmJoinSession (.new key.asStr)) reply)) :
    C.wp (SessionCore.join key).run Q s := by
  unfold SessionCore.join SessionHandle.join
  rw [Contract.wp_run_bind, wp_mapErr, Contract.wp_run_bind, wp_sysCall]
  refine ⟨hJoin, fun reply hr => ?_⟩
  change C.wp _ _ _
  rw [Contract.wp_run_bind, wp_ofResult]
  by_cases hCode : reply.code = ERROR_SUCCESS
  · simp only [check, hCode, if_pos]
    exact hOpen reply hCode hr
  · simp only [check, hCode]
    exact hFail reply _ hCode hr

end Begin

end SessionCore
end RestartManager

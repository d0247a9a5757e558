import RestartManager.Input
import RestartManager.Sys.Convert

/-! Process-global application restart registration. Beside the two native
calls, it touches the flag that says whether the crate owns the registration
of the process. -/
namespace RestartManager

open Interaction

inductive RestartCall
  /-- `REGISTRATION_OWNED.compare_exchange(false, true)`; the response says
  whether the flag was exchanged. -/
  | compareExchange
  /-- `REGISTRATION_OWNED.store`. -/
  | store (value : Bool)
  | registerApplicationRestart (commandLine : Option WideString) (flags : UInt32)
  | unregisterApplicationRestart

abbrev RestartCall.Response : RestartCall → Type
  | compareExchange => Bool
  | store _ => Unit
  | registerApplicationRestart .. => Int32
  | unregisterApplicationRestart => Int32

abbrev RestartM (α : Type) := Program RestartCall RestartCall.Response α

def MAX_RESTART_ARGUMENT_UNITS : Nat := 1024

structure ApplicationRestartOptions where
  arguments : OsString := ⟨[]⟩
  restartOnCrash : Bool := true
  restartOnHang : Bool := true
  restartOnUpdate : Bool := true
  restartOnReboot : Bool := true
  deriving DecidableEq, Repr

/-- The bits of the reasons that are not permitted. -/
def ApplicationRestartOptions.nativeFlags (options : ApplicationRestartOptions) : UInt32 :=
  (!options.restartOnCrash).toUInt32 ||| ((!options.restartOnHang).toUInt32 <<< 1) |||
    ((!options.restartOnUpdate).toUInt32 <<< 2) ||| ((!options.restartOnReboot).toUInt32 <<< 3)

def utf16UnitCount (value : OsString) : Nat := value.encodeWide.length

def validateArguments (arguments : OsString) : Except Error Unit :=
  if containsNul arguments then
    .error (.new .invalidInput none "application restart arguments may not contain an embedded NUL")
  else if utf16UnitCount arguments > MAX_RESTART_ARGUMENT_UNITS then
    .error (.new .invalidInput none "application restart arguments exceed 1024 UTF-16 code units")
  else .ok ()

theorem validateArguments_eq_ok {arguments : OsString} : validateArguments arguments = .ok () ↔
    0 ∉ arguments.units ∧ arguments.units.length ≤ MAX_RESTART_ARGUMENT_UNITS := by
  rw [validateArguments, ← (containsNul_iff arguments).not, utf16UnitCount, OsString.encodeWide]
  split_ifs with hNul hLong
  · simp [hNul]
  · simp [Nat.not_le.mpr hLong]
  · simp [hNul, Nat.not_lt.mp hLong]

/-! ### The native adapter -/

/-- An `HRESULT` is negative exactly when the call failed. -/
def checkHresult (result : Int32) : SysResult Unit :=
  if result ≥ 0 then .ok () else .error (.hresult result)

/-- The pointer is null for empty arguments. -/
def nativeCommandLine (arguments : OsString) : Option WideString :=
  let arguments := WideString.new arguments
  if arguments.buffer.length = 1 then none else some arguments

def registerApplicationRestart (arguments : OsString) (flags : UInt32) : RestartM (SysResult Unit) := do
  let result ← Program.request (.registerApplicationRestart (nativeCommandLine arguments) flags)
  return checkHresult result

def unregisterApplicationRestart : RestartM (SysResult Unit) := do
  let result ← Program.request .unregisterApplicationRestart
  return checkHresult result

/-! ### The registration -/

/-- An exclusive lease for the registration of the current process. -/
structure ApplicationRestartRegistration where
  options : ApplicationRestartOptions
  armed : Bool
  deriving DecidableEq, Repr

def applicationRestartInUse : Error :=
  .new .applicationRestartInUse none "this process already owns an application restart registration"

namespace ApplicationRestartRegistration

/-- The part of `register` after the flag was exchanged. -/
def registerLeased (options : ApplicationRestartOptions) :
    RestartM (Except Error ApplicationRestartRegistration) := do
  match ← registerApplicationRestart options.arguments options.nativeFlags with
  | .error error =>
      let _ ← Program.request (.store false)
      return .error (mapSysError error)
  | .ok () => return .ok { options, armed := true }

def register (options : ApplicationRestartOptions) :
    RestartM (Except Error ApplicationRestartRegistration) :=
  match validateArguments options.arguments with
  | .error error => return .error error
  | .ok () => do
      let exchanged ← Program.request .compareExchange
      if exchanged then registerLeased options else return .error applicationRestartInUse

/-- The registration is borrowed; it keeps its options when this fails. -/
def update (registration : ApplicationRestartRegistration) (options : ApplicationRestartOptions) :
    RestartM (Except Error Unit × ApplicationRestartRegistration) :=
  match validateArguments options.arguments with
  | .error error => return (.error error, registration)
  | .ok () => do
      match ← registerApplicationRestart options.arguments options.nativeFlags with
      | .error error => return (.error (mapSysError error), registration)
      | .ok () => return (.ok (), { registration with options })

def disarm (registration : ApplicationRestartRegistration) : RestartM ApplicationRestartRegistration := do
  let registration := { registration with armed := false }
  let _ ← Program.request (.store false)
  return registration

def drop (registration : ApplicationRestartRegistration) : RestartM Unit := do
  if registration.armed then
    let _ ← unregisterApplicationRestart
    let _ ← registration.disarm

/-- The registration is dropped at the end, so one that is still armed makes a
second attempt. -/
def unregister (registration : ApplicationRestartRegistration) : RestartM (Except Error Unit) := do
  match ← unregisterApplicationRestart with
  | .ok () =>
      let registration ← registration.disarm
      registration.drop
      return .ok ()
  | .error error =>
      registration.drop
      return .error (mapSysError error)

end ApplicationRestartRegistration
end RestartManager

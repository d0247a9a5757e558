import Mathlib.Data.Nat.Notation

/-! Error values of the crate and of its native adapter, and the mapping from
the second to the first. -/
namespace RestartManager

inductive ErrorKind
  | unsupportedPlatform
  | sessionLimit
  | invalidSessionKey
  | cancelled
  | accessDenied
  | invalidInput
  | directoryNotSupported
  | tooManyResources
  | callbackInUse
  | dataChanged
  | malformedOsData
  | rebootRequired
  | shutdownIncomplete
  | restartIncomplete
  | operationOutOfSequence
  | registryUnavailable
  | filterNotFound
  | outOfMemory
  | applicationRestartInUse
  | asyncWorkerUnavailable
  | sessionEnded
  | os
  deriving DecidableEq, Repr

structure Error where
  kind : ErrorKind
  rawOsError : Option UInt32
  rawHresult : Option Int32
  message : String
  deriving DecidableEq, Repr

namespace Error

def new (kind : ErrorKind) (rawOsError : Option UInt32) (message : String) : Error :=
  { kind, rawOsError, rawHresult := none, message }

def fromHresult (kind : ErrorKind) (hresult : Int32) (message : String) : Error :=
  { kind, rawOsError := none, rawHresult := some hresult, message }

end Error

/-- A text that is no session key. -/
structure ParseSessionKeyError where
  deriving DecidableEq, Repr

/-- How a call of the native adapter fails. -/
inductive SysError
  | unsupportedPlatform
  | os (code : UInt32)
  | hresult (code : Int32)
  | invalidInput (detail : String)
  | countOverflow
  | allocationFailure
  | callbackInUse
  | dataChanged (code : UInt32)
  | malformedOutput (detail : String)
  | sessionEnded
  deriving DecidableEq, Repr

abbrev SysResult (α : Type) := Except SysError α

namespace SysError

def rawOsError : SysError → Option UInt32
  | os code => some code
  | _ => none

end SysError

/-! ### Win32 codes -/

@[match_pattern] abbrev ERROR_SUCCESS : UInt32 := 0
@[match_pattern] abbrev ERROR_FILE_NOT_FOUND : UInt32 := 2
@[match_pattern] abbrev ERROR_ACCESS_DENIED : UInt32 := 5
@[match_pattern] abbrev ERROR_INVALID_HANDLE : UInt32 := 6
@[match_pattern] abbrev ERROR_OUTOFMEMORY : UInt32 := 14
@[match_pattern] abbrev ERROR_WRITE_FAULT : UInt32 := 29
@[match_pattern] abbrev ERROR_SEM_TIMEOUT : UInt32 := 121
@[match_pattern] abbrev ERROR_BAD_ARGUMENTS : UInt32 := 160
@[match_pattern] abbrev ERROR_MORE_DATA : UInt32 := 234
@[match_pattern] abbrev ERROR_DIRECTORY : UInt32 := 267
@[match_pattern] abbrev ERROR_FAIL_NOACTION_REBOOT : UInt32 := 350
@[match_pattern] abbrev ERROR_FAIL_SHUTDOWN : UInt32 := 351
@[match_pattern] abbrev ERROR_FAIL_RESTART : UInt32 := 352
@[match_pattern] abbrev ERROR_MAX_SESSIONS_REACHED : UInt32 := 353
@[match_pattern] abbrev ERROR_REQUEST_OUT_OF_SEQUENCE : UInt32 := 776
@[match_pattern] abbrev ERROR_SESSION_CREDENTIAL_CONFLICT : UInt32 := 1219
@[match_pattern] abbrev ERROR_CANCELLED : UInt32 := 1223

/-- The session operation a native error is reported for. -/
inductive Operation
  | register
  | report
  | shutdown
  | restart
  | setFilter
  | removeFilter
  | filters
  | end
  deriving DecidableEq, Repr

/-- Eight hexadecimal digits after the prefix, padded with zeros. -/
private def hexadecimal (code : UInt32) : String :=
  let digits := Nat.toDigits 16 code.toNat
  "0x" ++ String.ofList (List.replicate (8 - digits.length) '0' ++ digits)

def mapSysError (error : SysError) : Error :=
  match error with
  | .unsupportedPlatform =>
      .new .unsupportedPlatform none "Windows Restart Manager is unavailable on this platform"
  | .os ERROR_MAX_SESSIONS_REACHED =>
      .new .sessionLimit (some ERROR_MAX_SESSIONS_REACHED)
        "the limit of 64 concurrent Restart Manager sessions was reached"
  | .os ERROR_CANCELLED =>
      .new .cancelled (some ERROR_CANCELLED) "the Restart Manager operation was cancelled"
  | .os ERROR_ACCESS_DENIED =>
      .new .accessDenied (some ERROR_ACCESS_DENIED)
        "Windows denied access to the requested resource"
  | .os ERROR_BAD_ARGUMENTS =>
      .new .invalidInput (some ERROR_BAD_ARGUMENTS) "Restart Manager rejected an invalid argument"
  | .os ERROR_INVALID_HANDLE =>
      .new .sessionEnded (some ERROR_INVALID_HANDLE)
        "the Restart Manager session handle is no longer valid"
  | .os ERROR_OUTOFMEMORY =>
      .new .outOfMemory (some ERROR_OUTOFMEMORY)
        "Restart Manager could not allocate required memory"
  | .os ERROR_SEM_TIMEOUT | .os ERROR_WRITE_FAULT =>
      .new .registryUnavailable error.rawOsError
        "Restart Manager could not access its registry state"
  | .os code => .new .os (some code) s!"Restart Manager call failed (Win32 error {code})"
  | .hresult code =>
      let kind :=
        if code.toUInt32 = 0x80070057 then ErrorKind.invalidInput
        else if code.toUInt32 = 0x8007000E then .outOfMemory
        else .os
      .fromHresult kind code
        ("application restart call failed (HRESULT " ++ hexadecimal code.toUInt32 ++ ")")
  | .invalidInput detail => .new .invalidInput none detail
  | .countOverflow => .new .tooManyResources none "a native Restart Manager count would overflow"
  | .allocationFailure => .new .outOfMemory none "memory allocation for a native result failed"
  | .callbackInUse =>
      .new .callbackInUse none "another progress callback operation is active in this process"
  | .dataChanged code =>
      .new .dataChanged (some code)
        "the Restart Manager list kept changing through all eight retries"
  | .malformedOutput detail => .new .malformedOsData none detail
  | .sessionEnded => .new .sessionEnded none "the Restart Manager session has already ended"

def mapJoinError (error : SysError) : Error :=
  match error with
  | .os ERROR_INVALID_HANDLE | .os ERROR_BAD_ARGUMENTS | .os ERROR_SESSION_CREDENTIAL_CONFLICT =>
      .new .invalidSessionKey error.rawOsError "the Restart Manager session key was rejected"
  | other => mapSysError other

def mapOperationError (error : SysError) (operation : Operation) : Error :=
  match operation, error with
  | .register, .os ERROR_DIRECTORY | .report, .os ERROR_DIRECTORY =>
      .new .directoryNotSupported (some ERROR_DIRECTORY)
        "Restart Manager does not support directory resources"
  | .shutdown, .os ERROR_FAIL_NOACTION_REBOOT =>
      .new .rebootRequired (some ERROR_FAIL_NOACTION_REBOOT)
        "a system reboot is required before applications can be shut down"
  | .shutdown, .os ERROR_FAIL_SHUTDOWN =>
      .new .shutdownIncomplete (some ERROR_FAIL_SHUTDOWN)
        "one or more affected applications could not be shut down"
  | .restart, .os ERROR_FAIL_RESTART =>
      .new .restartIncomplete (some ERROR_FAIL_RESTART)
        "one or more stopped applications could not be restarted"
  | .restart, .os ERROR_REQUEST_OUT_OF_SEQUENCE =>
      .new .operationOutOfSequence (some ERROR_REQUEST_OUT_OF_SEQUENCE)
        "Restart Manager rejected an out-of-sequence restart"
  | .removeFilter, .os ERROR_FILE_NOT_FOUND =>
      .new .filterNotFound (some ERROR_FILE_NOT_FOUND)
        "the selected Restart Manager filter does not exist"
  | _, other => mapSysError other

end RestartManager

import RestartManager.Error
import RestartManager.OsString

/-! Domain types describing applications affected by registered resources. -/
namespace RestartManager

abbrev INVALID_NATIVE_ID : UInt32 := 0xFFFFFFFF

/-- A process identity made from its ID and creation time. No identity has a
PID that Windows uses as a sentinel. -/
structure ProcessIdentity where
  pid : UInt32
  creationTime100nsSince1601 : UInt64
  pid_ne_zero : pid ≠ 0
  pid_ne_invalid : pid ≠ INVALID_NATIVE_ID
  deriving DecidableEq, Repr

namespace ProcessIdentity

def fromRawParts (pid : UInt32) (creationTime : UInt64) : Except Error ProcessIdentity :=
  if h : pid = 0 ∨ pid = INVALID_NATIVE_ID then
    .error (.new .invalidInput none
      "a process identity PID must be neither zero nor the native invalid sentinel")
  else .ok ⟨pid, creationTime, fun h' => h (.inl h'), fun h' => h (.inr h')⟩

end ProcessIdentity

abbrev RM_CRITICAL_APP_TYPE : Int32 := 1000

inductive ApplicationType
  | unknown
  | mainWindow
  | otherWindow
  | service
  | explorer
  | console
  | critical
  | unrecognized (value : Int32)
  deriving DecidableEq, Repr

namespace ApplicationType

def fromRaw (value : Int32) : ApplicationType :=
  if value = 0 then unknown
  else if value = 1 then mainWindow
  else if value = 2 then otherWindow
  else if value = 3 then service
  else if value = 4 then explorer
  else if value = 5 then console
  else if value = RM_CRITICAL_APP_TYPE then critical
  else unrecognized value

def rawValue : ApplicationType → Int32
  | unknown => 0
  | mainWindow => 1
  | otherWindow => 2
  | service => 3
  | explorer => 4
  | console => 5
  | critical => RM_CRITICAL_APP_TYPE
  | unrecognized value => value

@[simp] theorem rawValue_fromRaw (value : Int32) : (fromRaw value).rawValue = value := by
  unfold fromRaw
  split_ifs <;> simp_all [rawValue]

end ApplicationType

/-- The bits of `RM_APP_STATUS`, unknown ones included. -/
structure ApplicationStatus where
  bits : UInt32
  deriving DecidableEq, Repr

/-- The bits of `RM_REBOOT_REASON`, unknown ones included. -/
structure RebootReasons where
  bits : UInt32
  deriving DecidableEq, Repr

def ApplicationStatus.fromBitsRetain (bits : UInt32) : ApplicationStatus := ⟨bits⟩

def RebootReasons.fromBitsRetain (bits : UInt32) : RebootReasons := ⟨bits⟩

structure AffectedApplication where
  displayName : OsString
  serviceName : Option OsString
  applicationType : ApplicationType
  status : ApplicationStatus
  restartable : Bool
  process : Option ProcessIdentity
  terminalSessionId : Option UInt32
  deriving DecidableEq, Repr

structure AffectedApplications where
  applications : List AffectedApplication
  rebootReasons : RebootReasons
  deriving DecidableEq, Repr

end RestartManager

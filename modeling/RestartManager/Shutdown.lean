import RestartManager.Error

/-! Options, progress and retained outcomes of shutdown and restart. -/
namespace RestartManager

structure ShutdownOptions where
  forceIfHung : Bool := false
  requireRestartRegistration : Bool := false
  deriving DecidableEq, Repr

namespace ShutdownOptions

def nativeFlags (options : ShutdownOptions) : UInt32 :=
  let flags : UInt32 := 0
  let flags := if options.forceIfHung then flags ||| 0x01 else flags
  if options.requireRestartRegistration then flags ||| 0x10 else flags

end ShutdownOptions

/-- The retained result of one native shutdown or restart attempt. -/
inductive OperationOutcome
  | succeeded
  | failed (error : Error)
  deriving DecidableEq, Repr

namespace OperationOutcome

def fromResult : Except Error Unit → OperationOutcome
  | .ok () => succeeded
  | .error error => failed error

end OperationOutcome

structure RecoveryOutcome where
  shutdown : OperationOutcome
  restart : Option OperationOutcome
  deriving DecidableEq, Repr

/-- A progress value that passed validation: a percentage. -/
structure Progress where
  percentComplete : UInt8
  le_hundred : percentComplete ≤ 100
  deriving DecidableEq, Repr

namespace Progress

instance : LT Progress := ⟨fun a b => a.percentComplete < b.percentComplete⟩
instance : LE Progress := ⟨fun a b => a.percentComplete ≤ b.percentComplete⟩
instance (a b : Progress) : Decidable (a < b) :=
  inferInstanceAs (Decidable (a.percentComplete < b.percentComplete))
instance (a b : Progress) : Decidable (a ≤ b) :=
  inferInstanceAs (Decidable (a.percentComplete ≤ b.percentComplete))

def tryFromNative (percentComplete : UInt32) : Option Progress :=
  if percentComplete ≤ 0xFF then
    if h : percentComplete.toUInt8 ≤ 100 then some ⟨percentComplete.toUInt8, h⟩ else none
  else none

end Progress
end RestartManager

import Mathlib.Algebra.Group.Nat.Defs
import RestartManager.Text.Wtf8

/-! Operating-system strings and the parts of the target platform on which the
crate's behaviour depends. -/
namespace RestartManager

/-- The two widths of `usize` on the supported targets. -/
inductive PointerWidth
  | bits32
  | bits64
  deriving DecidableEq, Repr

namespace PointerWidth

def bytes : PointerWidth → Nat
  | bits32 => 4
  | bits64 => 8

def usizeMax : PointerWidth → Nat
  | bits32 => 2 ^ 32 - 1
  | bits64 => 2 ^ 64 - 1

theorem lt_usizeMax (width : PointerWidth) (n : UInt32) : n.toNat ≤ width.usizeMax := by
  have := n.toNat_lt
  cases width <;> simp only [usizeMax] <;> omega

end PointerWidth

/-- A string of the Windows target: any sixteen-bit units, stored as the
generalized UTF-8 encoding of these units. Paths are represented alike. -/
structure OsString where
  units : List UInt16
  deriving DecidableEq, Repr

abbrev PathBuf := OsString

namespace OsString

def encodeWide (value : OsString) : List UInt16 := value.units

def fromWide (units : List UInt16) : OsString := ⟨units⟩

def asEncodedBytes (value : OsString) : List UInt8 := Wtf8.encode value.units

def isEmpty (value : OsString) : Bool := value.asEncodedBytes.isEmpty

/-- The UTF-8 bytes of the string, when it is Unicode text. -/
def intoString (value : OsString) : Option (List UInt8) :=
  if Wtf8.isUnicode value.units then some value.asEncodedBytes else none

/-- `from_wide` undoes `encode_wide`. -/
@[simp] theorem fromWide_encodeWide (value : OsString) : fromWide value.encodeWide = value := rfl

@[simp] theorem encodeWide_fromWide (units : List UInt16) : (fromWide units).encodeWide = units :=
  rfl

theorem isEmpty_iff (value : OsString) : value.isEmpty = true ↔ value.units = [] := by
  rw [isEmpty, List.isEmpty_iff, asEncodedBytes, Wtf8.encode_eq_nil]

end OsString

/-- What the standard library decides per target: the width of `usize`, and
which paths have both a prefix and a root. -/
class Platform where
  pointerWidth : PointerWidth
  isAbsolute : PathBuf → Bool

namespace Platform

variable [Platform]

def usizeMax : Nat := (pointerWidth).usizeMax

/-- `usize::checked_add`. -/
def checkedAdd (a b : Nat) : Option Nat := if a + b ≤ usizeMax then some (a + b) else none

/-- Subtraction on `usize` as compiled for release: it wraps. -/
def wrappingSub (a b : Nat) : Nat := (a + (usizeMax + 1 - b)) % (usizeMax + 1)

theorem checkedAdd_eq_some {a b c : Nat} : checkedAdd a b = some c ↔ a + b ≤ usizeMax ∧ c = a + b := by
  unfold checkedAdd
  split_ifs with h
  · simp [h, eq_comm]
  · simp [h]

/-- No wrap happens on operands in order. -/
theorem wrappingSub_eq {a b : Nat} (h : b ≤ a) (ha : a ≤ usizeMax) : wrappingSub a b = a - b := by
  unfold wrappingSub
  rw [show a + (usizeMax + 1 - b) = (a - b) + (usizeMax + 1) by omega, Nat.add_mod_right,
    Nat.mod_eq_of_lt (by omega)]

/-- A sixty-four-bit target whose absolute paths start with a drive and a
backslash. -/
abbrev driveLetters : Platform where
  pointerWidth := .bits64
  isAbsolute path := match path.units with
    | _ :: 0x3A :: 0x5C :: _ => true
    | _ => false

end Platform
end RestartManager

import Mathlib.Data.Nat.Digits.Defs

/-! Numbers stored in memory with their least significant byte first. -/
namespace LittleEndian

def value (bytes : List UInt8) : Nat := Nat.ofDigits 256 (bytes.map UInt8.toNat)

/-- The lowest `width` bytes of a number. -/
def bytes : (width n : Nat) → List UInt8
  | 0, _ => []
  | width + 1, n => .ofNat n :: bytes width (n / 256)

@[simp] theorem bytes_length (width n : Nat) : (bytes width n).length = width := by
  induction width generalizing n with
  | zero => rfl
  | succ width ih => simp [bytes, ih]

@[simp] theorem drop_bytes {width k : Nat} (h : width ≤ k) (n : Nat) :
    (bytes width n).drop k = [] := by
  simpa using h

/-- A number that fits its width is read back. -/
theorem value_bytes {width n : Nat} (h : n < 256 ^ width) : value (bytes width n) = n := by
  induction width generalizing n with
  | zero => simp_all [value, bytes]
  | succ width ih =>
      have hRest : value (bytes width (n / 256)) = n / 256 :=
        ih (Nat.div_lt_of_lt_mul (by rwa [pow_succ, mul_comm] at h))
      have hFirst : (UInt8.ofNat n).toNat = n % 256 := by simp
      rw [bytes, value, List.map_cons, Nat.ofDigits_cons, hFirst]
      change n % 256 + 256 * value (bytes width (n / 256)) = n
      rw [hRest]
      omega

@[simp] theorem value_replicate_zero (n : Nat) : value (List.replicate n 0) = 0 := by
  induction n with
  | zero => rfl
  | succ n ih =>
      rw [List.replicate_succ, value, List.map_cons, Nat.ofDigits_cons]
      change (0 : UInt8).toNat + 256 * value (List.replicate n 0) = 0
      rw [ih]
      rfl

end LittleEndian

import Mathlib.Data.List.Range
import Mathlib.Data.Nat.Notation

/-! Looking again at a value that changes between two looks. Each look is
given the room that the look before it asked for, and sees the whole value
when the value fits that room. -/
namespace Resampling

variable (size : Nat → Nat)

/-- The first look has no room at all. -/
def room : Nat → Nat
  | 0 => 0
  | i + 1 => size i

def Fits (i : Nat) : Prop := size i ≤ room size i

instance (i : Nat) : Decidable (Fits size i) := inferInstanceAs (Decidable (size i ≤ room size i))

/-- The look at which the value fits for the first time. -/
def FirstFit (i : Nat) : Prop := Fits size i ∧ ∀ j < i, ¬Fits size j

variable {size}

theorem FirstFit.unique {i j : Nat} (hi : FirstFit size i) (hj : FirstFit size j) : i = j := by
  rcases Nat.lt_trichotomy i j with h | h | h
  · exact absurd hi.1 (hj.2 i h)
  · exact h
  · exact absurd hj.1 (hi.2 j h)

/-- A look that fails asks for some room. -/
theorem size_pos_of_not_fits {i : Nat} (h : ¬Fits size i) : 0 < size i := by
  unfold Fits at h
  omega

theorem fits_zero_iff : Fits size 0 ↔ size 0 = 0 := Nat.le_zero

variable (size) in
/-- The first fit among the looks up to `budget`. -/
def firstFit? (budget : Nat) : Option Nat := (List.range (budget + 1)).find? fun i => Fits size i

theorem firstFit?_eq_some {budget i : Nat} :
    firstFit? size budget = some i ↔ i ≤ budget ∧ FirstFit size i := by
  rw [firstFit?, List.find?_range_eq_some]
  simp only [decide_eq_true_eq, List.mem_range, Nat.lt_succ_iff, Bool.not_eq_true',
    decide_eq_false_iff_not, FirstFit]
  tauto

theorem firstFit?_eq_none {budget : Nat} :
    firstFit? size budget = none ↔ ∀ i ≤ budget, ¬Fits size i := by
  simp only [firstFit?, List.find?_range_eq_none, Nat.lt_succ_iff, Bool.not_eq_true',
    decide_eq_false_iff_not]

end Resampling

import Mathlib.Logic.Function.Basic
import RestartManager.Interaction.Contract

/-! Programs that share one environment. Their exchanges interleave in any
order, and each program sees no exchange but its own. -/
namespace Interaction

universe u v w w'

/-- Elements of several lists in one, each with the name of its list. -/
abbrev Interleaving (ι α : Type*) := List (ι × α)

namespace Interleaving

variable {ι : Type*} [DecidableEq ι]

section

variable {α : Type*} {i j : ι} {a : α} {rest first second : Interleaving ι α}

/-- What comes from one of them. -/
def part (merged : Interleaving ι α) (i : ι) : List α :=
  merged.filterMap fun x => if x.1 = i then some x.2 else none

omit [DecidableEq ι] in
/-- All of them together. -/
def whole (merged : Interleaving ι α) : List α := merged.map Prod.snd

theorem part_cons_self : part ((i, a) :: rest) i = a :: part rest i := by simp [part]

theorem part_cons_of_ne (h : j ≠ i) : part ((i, a) :: rest) j = part rest j := by
  simp [part, Ne.symm h]

theorem part_append : part (first ++ second) i = part first i ++ part second i :=
  List.filterMap_append

end

variable {Call : Type u} {Response : Call → Type v}

omit [DecidableEq ι] in
/-- The exchanges in order, as the environment sees them: each request with the
name of the program that makes it. -/
def named (history : Interleaving ι (Event Response)) : Trace fun x : ι × Call => Response x.2 :=
  history.map fun x => ⟨(x.1, x.2.1), x.2.2⟩

variable {S : Type w} {T : Type w'} {E : Contract (fun x : ι × Call => Response x.2) S}
  {C : Contract Response T} {R : S → (ι → T) → Prop} {s : S} {t : ι → T}
  {history : Interleaving ι (Event Response)}

/-- Where each program keeps `C` and the environment keeps `E`, a relation of
their states that one exchange preserves holds after any interleaving. -/
theorem invariant (hStep : ∀ s t i c r, R s t → C.guarantee (t i) c → E.rely s (i, c) r →
      R (E.next s (i, c) r) (Function.update t i (C.next (t i) c r)))
    (hParts : ∀ i, C.Respects (t i) (part history i)) (hWhole : E.Conforms s (named history))
    (h : R s t) : R (E.after s (named history)) fun i => C.after (t i) (part history i) := by
  induction history generalizing s t with
  | nil => exact h
  | cons x rest ih =>
      obtain ⟨i, c, r⟩ := x
      obtain ⟨hRely, hRest⟩ := hWhole
      have hSelf := hParts i
      rw [part_cons_self] at hSelf
      obtain ⟨hGuarantee, hOwn⟩ := hSelf
      have hAfter : (fun j => C.after (Function.update t i (C.next (t i) c r) j) (part rest j)) =
          fun j => C.after (t j) (part ((i, ⟨c, r⟩) :: rest) j) := by
        funext j
        by_cases hj : j = i
        · subst hj
          rw [part_cons_self, Function.update_self]
          rfl
        · rw [part_cons_of_ne hj, Function.update_of_ne hj]
      have hOthers (j : ι) : C.Respects (Function.update t i (C.next (t i) c r) j) (part rest j) := by
        by_cases hj : j = i
        · subst hj
          rw [Function.update_self]
          exact hOwn
        · have hPart := hParts j
          rw [part_cons_of_ne hj] at hPart
          rwa [Function.update_of_ne hj]
      rw [← hAfter]
      exact ih hOthers hRest (hStep s t i c r h hGuarantee hRely)

end Interleaving
end Interaction

import Mathlib.Algebra.Order.BigOperators.Group.Finset
import Mathlib.Data.List.Induction

/-! Runs of a labelled step relation, and the rule that an invariant of every
step is an invariant of every run. -/
namespace Transition

universe u v

variable {State : Type u} {Label : Type v}

/-- The runs from `s`, with the labels of their steps in order. -/
inductive Run (Step : State → Label → State → Prop) (s : State) : List Label → State → Prop
  | refl : Run Step s [] s
  | snoc {history : List Label} {t u : State} {l : Label} (run : Run Step s history t)
      (step : Step t l u) : Run Step s (history ++ [l]) u

namespace Run

variable {Step : State → Label → State → Prop} {s t u : State} {history : List Label}

/-- An invariant that may look at the labels so far. -/
theorem invariant {Inv : List Label → State → Prop} (run : Run Step s history t) (hInit : Inv [] s)
    (hStep : ∀ history t l u, Inv history t → Step t l u → Inv (history ++ [l]) u) :
    Inv history t := by
  induction run with
  | refl => exact hInit
  | snoc _ step ih => exact hStep _ _ _ _ ih step

theorem trans {later : List Label} (first : Run Step s history t) (second : Run Step t later u) :
    Run Step s (history ++ later) u := by
  induction second with
  | refl => simpa using first
  | snoc _ step ih =>
      rw [← List.append_assoc]
      exact ih.snoc step

theorem cons {later : List Label} {l : Label} (step : Step s l t) (run : Run Step t later u) :
    Run Step s (l :: later) u :=
  (Run.refl.snoc step).trans run

/-- A run passes through the step of each of its labels. -/
theorem split {first second : List Label} {l : Label} (run : Run Step s (first ++ l :: second) u) :
    ∃ t t', Run Step s first t ∧ Step t l t' ∧ Run Step t' second u := by
  induction second using List.reverseRecOn generalizing u with
  | nil =>
      generalize hHistory : first ++ [l] = history at run
      cases run with
      | refl => simp at hHistory
      | snoc run step =>
          obtain ⟨rfl, hLabel⟩ := List.append_inj' hHistory rfl
          obtain rfl := (List.cons.inj hLabel).1
          exact ⟨_, _, run, step, .refl⟩
  | append_singleton second l' ih =>
      generalize hHistory : first ++ l :: (second ++ [l']) = history at run
      cases run with
      | refl => simp at hHistory
      | snoc run step =>
          rw [← List.cons_append, ← List.append_assoc] at hHistory
          obtain ⟨rfl, hLabel⟩ := List.append_inj' hHistory rfl
          obtain rfl := (List.cons.inj hLabel).1
          obtain ⟨t, t', before, here, after⟩ := ih run
          exact ⟨t, t', before, here, after.snoc step⟩

/-- Where every step is matched by a step between related states, so is a run. -/
theorem simulate {State' : Type*} {Step' : State' → Label → State' → Prop} {R : State → State' → Prop}
    {a : State'} (run : Run Step s history t) (hs : R s a)
    (hStep : ∀ s l t a, R s a → Step s l t → ∃ b, Step' a l b ∧ R t b) :
    ∃ b, Run Step' a history b ∧ R t b := by
  induction run with
  | refl => exact ⟨a, .refl, hs⟩
  | snoc _ step ih =>
      obtain ⟨b, before, hb⟩ := ih
      obtain ⟨c, matched, hc⟩ := hStep _ _ _ _ hb step
      exact ⟨c, before.snoc matched, hc⟩

theorem of_nil (run : Run Step s [] u) : u = s := by
  generalize hNil : [] = labels at run
  cases run with
  | refl => rfl
  | snoc => simp at hNil

theorem of_cons {l : Label} (run : Run Step s (l :: history) u) :
    ∃ t, Step s l t ∧ Run Step t history u := by
  obtain ⟨t, t', before, step, after⟩ := @split _ _ Step s u [] history l run
  obtain rfl := before.of_nil
  exact ⟨t', step, after⟩

theorem of_append {later : List Label} (run : Run Step s (history ++ later) u) :
    ∃ t, Run Step s history t ∧ Run Step t later u := by
  induction history generalizing s with
  | nil => exact ⟨s, .refl, run⟩
  | cons l history ih =>
      obtain ⟨t, step, rest⟩ := of_cons run
      obtain ⟨t', before, after⟩ := ih rest
      exact ⟨t', .cons step before, after⟩

end Run

/-! ### Loops -/

/-- `Inserted Loop short long`: the labels `long` are `short`, with lists of
labels inserted that `Loop` holds of. -/
inductive Inserted (Loop : List Label → Prop) : List Label → List Label → Prop
  | nil : Inserted Loop [] []
  | keep (l : Label) {short long : List Label} (rest : Inserted Loop short long) :
      Inserted Loop (l :: short) (l :: long)
  | loop {loop short long : List Label} (h : Loop loop) (rest : Inserted Loop short long) :
      Inserted Loop short (loop ++ long)

namespace Inserted

variable {Loop : List Label → Prop} {Step : State → Label → State → Prop} {Inv : State → Prop}
  {short long : List Label}

/-- Where every inserted list leads back to its start, a run with them is a run without. -/
theorem erase (h : Inserted Loop short long) (hStep : ∀ s l t, Inv s → Step s l t → Inv t)
    (hLoop : ∀ loop s t, Loop loop → Inv s → Run Step s loop t → t = s) {s t : State} (hs : Inv s)
    (run : Run Step s long t) : Run Step s short t := by
  induction h generalizing s with
  | nil => exact run
  | keep l rest ih =>
      obtain ⟨u, step, after⟩ := run.of_cons
      exact .cons step (ih (hStep s l u hs step) after)
  | loop h rest ih =>
      obtain ⟨u, around, after⟩ := run.of_append
      obtain rfl := hLoop _ _ _ h hs around
      exact ih hs after

/-- What the inserted lists do not show is the same with and without them. -/
theorem flatMap_eq {α : Type*} {f : Label → List α} (h : Inserted Loop short long)
    (hLoop : ∀ loop, Loop loop → loop.flatMap f = []) : long.flatMap f = short.flatMap f := by
  induction h with
  | nil => rfl
  | keep l rest ih => rw [List.flatMap_cons, List.flatMap_cons, ih]
  | loop h rest ih => rw [List.flatMap_append, hLoop _ h, List.nil_append, ih]

end Inserted

/-- A run `short`, and a run `long` of the same steps that makes a loop
wherever `Loop` allows one. -/
inductive Detours (Step : State → Label → State → Prop) (Loop : State → List Label → Prop) :
    State → List Label → List Label → State → Prop
  | refl (s : State) : Detours Step Loop s [] [] s
  | step {s t u : State} {l : Label} {short long : List Label} (step : Step s l t)
      (rest : Detours Step Loop t short long u) : Detours Step Loop s (l :: short) (l :: long) u
  | loop {s u : State} {loop short long : List Label} (h : Loop s loop)
      (rest : Detours Step Loop s short long u) : Detours Step Loop s short (loop ++ long) u

namespace Detours

variable {Loop : State → List Label → Prop} {Step : State → Label → State → Prop} {Inv : State → Prop}
  {short long : List Label} {s t : State}

theorem short_run (h : Detours Step Loop s short long t) : Run Step s short t := by
  induction h with
  | refl s => exact .refl
  | step step rest ih => exact .cons step ih
  | loop h rest ih => exact ih

theorem long_run (h : Detours Step Loop s short long t) (hStep : ∀ s l t, Inv s → Step s l t → Inv t)
    (hLoop : ∀ s loop, Loop s loop → Inv s → Run Step s loop s) (hs : Inv s) : Run Step s long t := by
  induction h with
  | refl s => exact .refl
  | step step rest ih => exact .cons step (ih (hStep _ _ _ hs step))
  | loop h rest ih => exact (hLoop _ _ h hs).trans (ih hs)

end Detours

/-- Every run from `s` is finite. -/
def Terminates (Step : State → Label → State → Prop) (s : State) : Prop :=
  Acc (fun t s => ∃ l, Step s l t) s

theorem terminates_of_steps {Step : State → Label → State → Prop} {s : State}
    (h : ∀ l t, Step s l t → Terminates Step t) : Terminates Step s := by
  constructor
  intro t hStep
  obtain ⟨l, step⟩ := hStep
  exact h l t step

/-- However it goes on, a run from `s` comes to an end, and where it ends `P` holds. -/
structure Inevitable (Step : State → Label → State → Prop) (s : State) (P : State → Prop) : Prop where
  terminates : Terminates Step s
  final : ∀ history t, Run Step s history t → (∀ l u, ¬Step t l u) → P t

namespace Inevitable

variable {Step : State → Label → State → Prop} {s : State} {P Inv : State → Prop}

/-- Where every step is measured, it is enough that a state short of `P` is not stuck. -/
theorem of_progress {α : Type*} {r : α → α → Prop} (f : State → α) (hFinite : Acc (flip r) (f s))
    (hMeasure : ∀ s l t, Inv s → Step s l t → r (f s) (f t)) (hInit : Inv s)
    (hStep : ∀ s l t, Inv s → Step s l t → Inv t)
    (hProgress : ∀ s, Inv s → (∀ l t, ¬Step s l t) → P s) : Inevitable Step s P where
  terminates := by
    generalize hNow : f s = now at hFinite
    induction hFinite generalizing s with
    | intro now _ ih =>
        apply terminates_of_steps
        intro l t step
        exact ih _ (hNow ▸ hMeasure s l t hInit step) (hStep s l t hInit step) rfl
  final history t run hStuck :=
    hProgress t (run.invariant hInit fun _ s l t h step => hStep s l t h step) hStuck

end Inevitable

/-! ### Any number of threads -/

section Threads

variable {Step : State → Label → State → Prop} {Thread Phase : Type*} [DecidableEq Thread]

/-- Where a step moves one thread, a run moves finitely many. -/
theorem Run.finite_moved (phase : State → Thread → Phase) {initial : Phase} {s t : State}
    {history : List Label} (run : Run Step s history t) (hInit : ∀ i, phase s i = initial)
    (hStep : ∀ s l t, Step s l t → ∃ i, ∀ j, j ≠ i → phase t j = phase s j) :
    ∃ moved : Finset Thread, ∀ i, i ∉ moved → phase t i = initial := by
  induction run with
  | refl => exact ⟨∅, fun i _ => hInit i⟩
  | snoc _ step ih =>
      obtain ⟨moved, hSame⟩ := ih
      obtain ⟨i, hOther⟩ := hStep _ _ _ step
      refine ⟨insert i moved, fun j hj => ?_⟩
      simp only [Finset.mem_insert, not_or] at hj
      rw [hOther j hj.1, hSame j hj.2]

/-- A step that brings one thread closer to its end brings all of them closer. -/
theorem sum_update_lt {moved : Finset Thread} {left : Phase → Nat} {f : Thread → Phase} {i : Thread}
    {phase : Phase} (hMem : i ∈ moved) (hLess : left phase < left (f i)) :
    ∑ j ∈ moved, left (Function.update f i phase j) < ∑ j ∈ moved, left (f j) := by
  refine Finset.sum_lt_sum (fun j _ => ?_) ⟨i, hMem, ?_⟩
  · by_cases hj : j = i
    · rw [hj, Function.update_self]
      exact hLess.le
    · rw [Function.update_of_ne hj]
  · rw [Function.update_self]
    exact hLess

end Threads

end Transition

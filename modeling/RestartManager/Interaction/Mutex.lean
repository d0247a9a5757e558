import Mathlib.Logic.Basic

/-! A mutex and the threads inside the sections it guards: the one that has
it locked is the only one inside. -/
namespace Mutex

universe u

variable {Agent : Type u}

/-- Exactly the thread that has the mutex locked is inside a section. -/
def Exclusive (holder : Option Agent) (Inside : Agent → Prop) : Prop :=
  ∀ a, holder = some a ↔ Inside a

namespace Exclusive

variable {holder holder' : Option Agent} {Inside Inside' : Agent → Prop} {a b : Agent}

theorem same (h : Exclusive holder Inside) (ha : Inside a) (hb : Inside b) : a = b :=
  Option.some.inj (((h a).mpr ha).symm.trans ((h b).mpr hb))

theorem free (h : Exclusive holder Inside) (hFree : holder = none) : ¬Inside a := by
  intro ha
  have hHolder := (h a).mpr ha
  simp [hFree] at hHolder

/-- A step of one thread that neither enters nor leaves a section. -/
theorem keep (h : Exclusive holder Inside) (a : Agent) (hHolder : holder' = holder)
    (ha : Inside' a ↔ Inside a) (hOther : ∀ b, b ≠ a → (Inside' b ↔ Inside b)) :
    Exclusive holder' Inside' := by
  intro b
  rw [hHolder, h b]
  by_cases hb : b = a
  · rw [hb, ha]
  · rw [hOther b hb]

theorem lock (h : Exclusive holder Inside) (hFree : holder = none) (hHolder : holder' = some a)
    (ha : Inside' a) (hOther : ∀ b, b ≠ a → (Inside' b ↔ Inside b)) :
    Exclusive holder' Inside' := by
  intro b
  rw [hHolder, Option.some_inj]
  by_cases hb : b = a
  · simp [hb, ha]
  · rw [hOther b hb]
    simp [Ne.symm hb, h.free hFree]

theorem unlock (h : Exclusive holder Inside) (hHeld : Inside a) (hHolder : holder' = none)
    (ha : ¬Inside' a) (hOther : ∀ b, b ≠ a → (Inside' b ↔ Inside b)) :
    Exclusive holder' Inside' := by
  intro b
  rw [hHolder]
  by_cases hb : b = a
  · simp [hb, ha]
  · rw [hOther b hb]
    have hNot : ¬Inside b := fun hInside => hb (h.same hInside hHeld)
    simp [hNot]

end Exclusive
end Mutex

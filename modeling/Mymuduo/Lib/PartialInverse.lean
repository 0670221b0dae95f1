import Mathlib.Logic.Function.Basic

/-! # Partial inverses

Two tables that point at each other: `f` says what a key points to, `g` who points to a value.
They stay inverse to each other if a key and a value that are both free are linked, and if both
ends of a link are cleared.
-/
namespace PartialInverse

variable {κ α : Type*}

/-- The two tables say the same. -/
def Inverse (f : κ → Option α) (g : α → Option κ) : Prop := ∀ k a, f k = some a ↔ g a = some k

variable {f : κ → Option α} {g : α → Option κ} {k : κ} {a : α}

/-- Nothing is pointed at twice. -/
theorem Inverse.injective (h : Inverse f g) {j : κ} (hj : f j = some a) (hk : f k = some a) :
    j = k :=
  Option.some.inj (((h j a).mp hj).symm.trans ((h k a).mp hk))

variable [DecidableEq κ] [DecidableEq α]

theorem Inverse.link (h : Inverse f g) (hk : f k = none) (ha : g a = none) :
    Inverse (Function.update f k (some a)) (Function.update g a (some k)) := by
  intro j b
  by_cases hj : j = k <;> by_cases hb : b = a
  · simp [hj, hb]
  · have hnot : g b ≠ some k := fun heq => by simp [(h k b).mpr heq] at hk
    simp [hj, hb, hnot, Ne.symm hb]
  · have hnot : f j ≠ some a := fun heq => by simp [(h j a).mp heq] at ha
    simp [hj, hb, hnot, Ne.symm hj]
  · simpa [hj, hb] using h j b

theorem Inverse.unlink (h : Inverse f g) (hka : f k = some a) :
    Inverse (Function.update f k none) (Function.update g a none) := by
  intro j b
  by_cases hj : j = k <;> by_cases hb : b = a
  · simp [hj, hb]
  · have hnot : g b ≠ some k := fun heq => hb (Option.some.inj (((h k b).mpr heq).symm.trans hka))
    simp [hj, hb, hnot]
  · have hnot : f j ≠ some a := fun heq => hj (h.injective heq hka)
    simp [hj, hb, hnot]
  · simpa [hj, hb] using h j b

end PartialInverse

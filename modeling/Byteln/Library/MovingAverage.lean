import Mathlib.Algebra.Order.Field.Basic
import Mathlib.Tactic.Linarith
import Mathlib.Tactic.Ring

/-!
# Moving averages

An exponentially weighted mean with its variance.  The mean starts at a value
of its own, so that the weight of that value, which shrinks with every sample,
can be read off samples that do not vary.
-/

namespace Byteln.Library

/-- A mean and a variance. -/
structure Moments (κ : Type*) where
  mean : κ
  variance : κ

namespace Moments

section

variable {κ : Type*} [CommRing κ]

/-- A sample of weight `α`. -/
def observe (α : κ) (m : Moments κ) (x : κ) : Moments κ :=
  let d := x - m.mean
  { mean := m.mean + α * d
    variance := (1 - α) * (m.variance + α * d * d) }

/-- A sample that equals the mean of samples that do not vary. -/
theorem observe_mean (α x : κ) : observe α ⟨x, 0⟩ x = ⟨x, 0⟩ := by
  unfold observe
  simp

/-- What `n` samples `x` leave of a mean that starts at zero. -/
theorem observe_constant (α x : κ) (n : ℕ) :
    observe α ⟨x * (1 - (1 - α) ^ n),
      x ^ 2 * (1 - α) ^ n * (1 - (1 - α) ^ n)⟩ x =
    ⟨x * (1 - (1 - α) ^ (n + 1)),
      x ^ 2 * (1 - α) ^ (n + 1) * (1 - (1 - α) ^ (n + 1))⟩ := by
  have mean : x * (1 - (1 - α) ^ n) +
      α * (x - x * (1 - (1 - α) ^ n)) = x * (1 - (1 - α) ^ (n + 1)) := by
    ring
  have variance : (1 - α) * (x ^ 2 * (1 - α) ^ n * (1 - (1 - α) ^ n) +
      α * (x - x * (1 - (1 - α) ^ n)) * (x - x * (1 - (1 - α) ^ n))) =
      x ^ 2 * (1 - α) ^ (n + 1) * (1 - (1 - α) ^ (n + 1)) := by
    ring
  unfold observe
  dsimp only
  rw [mean, variance]

end

section

variable {κ : Type*} [Field κ] [LinearOrder κ] [IsStrictOrderedRing κ]
  {α x bound : κ} {m : Moments κ}

/-- The mean stays below what bounds the samples. -/
theorem observe_le (weight : 0 ≤ α) (share : α ≤ 1) (before : m.mean ≤ bound)
    (sample : x ≤ bound) : (m.observe α x).mean ≤ bound := by
  have kept : (1 - α) * m.mean ≤ (1 - α) * bound :=
    mul_le_mul_of_nonneg_left before (sub_nonneg.mpr share)
  have taken : α * x ≤ α * bound := mul_le_mul_of_nonneg_left sample weight
  calc (m.observe α x).mean = (1 - α) * m.mean + α * x := by
        unfold observe
        ring
    _ ≤ (1 - α) * bound + α * bound := add_le_add kept taken
    _ = bound := by ring

end

end Moments

end Byteln.Library

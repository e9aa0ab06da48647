import Mathlib.Algebra.Order.Field.Basic
import Mathlib.Data.Int.ConditionallyCompleteOrder
import Mathlib.Tactic.Linarith

/-!
# Rounding to a nearest integer

`ToNearest f`: `f` takes every number to an integer at most one half away.  Whatever `f` does with
ties, it is monotone (`ToNearest.mono`).
-/

namespace WezuBackend.Lib.Rounding

variable {K : Type} [Field K] [LinearOrder K] [IsStrictOrderedRing K] {f : K → ℤ}

/-- `f` takes every number to a nearest integer. -/
def ToNearest (f : K → ℤ) : Prop := ∀ x, |x - f x| ≤ 1 / 2

/-- **Rounding is monotone**, ties included. -/
theorem ToNearest.mono (hf : ToNearest f) : Monotone f := by
  intro x y hxy
  by_contra hlt
  have hstep : (f y : K) + 1 ≤ f x := by exact_mod_cast not_le.mp hlt
  have hx := abs_le.mp (hf x)
  have hy := abs_le.mp (hf y)
  -- the two are one tie, and `f` decides it once
  have heq : x = y := by linarith [hx.1, hy.2]
  exact hlt (by rw [heq])

end WezuBackend.Lib.Rounding

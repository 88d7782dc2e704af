import Mathlib.Algebra.Order.Group.Defs
import Mathlib.Algebra.Order.Group.MinMax

/-!
# Refilled budgets

A budget is topped up by what it gained since it was last looked at, and never
beyond its cap.  Looking at it more often makes no difference, and a budget
with a higher cap that gains more stays ahead.
-/

namespace Byteln.Library

section Refill

variable {κ : Type*} [AddCommGroup κ] [LinearOrder κ] [IsOrderedAddMonoid κ]
  {cap cap' gain gain' tokens tokens' : κ}

/-- The budget after a gain. -/
def topUp (cap gain tokens : κ) : κ :=
  min cap (tokens + gain)

/-- Two gains are one. -/
theorem topUp_topUp (more : 0 ≤ gain') :
    topUp cap gain' (topUp cap gain tokens) =
      topUp cap (gain + gain') tokens := by
  unfold topUp
  rw [← min_add_add_right, ← add_assoc, ← min_assoc]
  congr 1
  exact min_eq_left (le_add_of_nonneg_right more)

theorem topUp_mono (caps : cap ≤ cap') (gains : gain ≤ gain')
    (ahead : tokens ≤ tokens') :
    topUp cap gain tokens ≤ topUp cap' gain' tokens' :=
  min_le_min caps (add_le_add ahead gains)

/-- Who is ahead after a gain is ahead after a later one. -/
theorem topUp_stays_ahead {later later' : κ} (caps : cap ≤ cap')
    (ahead : topUp cap gain tokens ≤ topUp cap' gain' tokens')
    (more : 0 ≤ later) (gains : later ≤ later') :
    topUp cap (gain + later) tokens ≤
      topUp cap' (gain' + later') tokens' := by
  rw [← topUp_topUp more, ← topUp_topUp (more.trans gains)]
  exact topUp_mono caps gains ahead

end Refill

end Byteln.Library

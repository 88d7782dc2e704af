import Mathlib.Algebra.Order.Field.Basic
import Mathlib.Tactic.Linarith
import Mathlib.Tactic.Ring

/-!
# Metered spending

A budget that gains at most at a given rate and never holds more than its cap
pays for at most its cap, and what it gains meanwhile, within any window of
time.  The proof follows what has been paid within one window.
-/

namespace Byteln.Library

section Metering

variable {κ : Type*} [Field κ] [LinearOrder κ]
  {rate cap floor start length spent time later tokens left cost : κ}

def InWindow (start length time : κ) : Prop :=
  start ≤ time ∧ time ≤ start + length

instance : Decidable (InWindow start length time) :=
  inferInstanceAs (Decidable (_ ∧ _))

/-- What a list of payments comes to within a window. -/
def spentWithin (start length : κ) (payments : List (κ × κ)) : κ :=
  ((payments.filter fun payment => InWindow start length payment.1).map
    Prod.snd).sum

@[simp] theorem spentWithin_nil : spentWithin start length [] = 0 := rfl

theorem spentWithin_snoc (payments : List (κ × κ)) :
    spentWithin start length (payments ++ [(time, cost)]) =
      spentWithin start length payments +
        if InWindow start length time then cost else 0 := by
  unfold spentWithin
  rw [List.filter_append, List.map_append, List.sum_append]
  by_cases within : InWindow start length time <;> simp [within]

variable [IsStrictOrderedRing κ]

/-- What a budget with some tokens has paid for within a window, up to a
time. -/
structure Metered (rate cap floor start length spent time tokens : κ) :
    Prop where
  before : time < start → spent = 0
  during : InWindow start length time →
    spent + tokens ≤ cap + rate * (time - start)
  total : spent ≤ cap - floor + rate * length

theorem Metered.initial (capped : tokens ≤ cap) (floored : floor ≤ cap)
    (gains : 0 ≤ rate) (long : 0 ≤ length) :
    Metered rate cap floor start length 0 time tokens := by
  constructor
  · intro _
    rfl
  · intro within
    have gain := mul_nonneg gains (sub_nonneg.mpr within.1)
    linarith
  · have gain := mul_nonneg gains long
    linarith

/-- The budget gains something. -/
theorem Metered.gain
    (metered : Metered rate cap floor start length spent time tokens)
    (order : time ≤ later) (gains : 0 ≤ rate) (capped : left ≤ cap)
    (gained : left ≤ tokens + rate * (later - time)) :
    Metered rate cap floor start length spent later left := by
  constructor
  · intro early
    exact metered.before (order.trans_lt early)
  · intro within
    by_cases early : time < start
    · have gain := mul_nonneg gains (sub_nonneg.mpr within.1)
      rw [metered.before early]
      linarith
    · have held := metered.during ⟨not_lt.mp early, order.trans within.2⟩
      have split : rate * (later - start) =
          rate * (time - start) + rate * (later - time) := by
        ring
      linarith
  · exact metered.total

/-- The budget gains something, and then pays a cost. -/
theorem Metered.pay
    (metered : Metered rate cap floor start length spent time tokens)
    (order : time ≤ later) (gains : 0 ≤ rate)
    (floored : InWindow start length later → floor ≤ left)
    (capped : left + cost ≤ cap)
    (paid : left + cost ≤ tokens + rate * (later - time)) :
    Metered rate cap floor start length
      (spent + if InWindow start length later then cost else 0) later left := by
  have gained := metered.gain order gains capped paid
  by_cases within : InWindow start length later
  · rw [if_pos within]
    have bound := gained.during within
    have gain : rate * (later - start) ≤ rate * length :=
      mul_le_mul_of_nonneg_left (by linarith [within.2]) gains
    constructor
    · intro early
      exact absurd within.1 (not_le.mpr early)
    · intro _
      linarith
    · linarith [floored within]
  · rw [if_neg within, add_zero]
    constructor
    · exact gained.before
    · intro inside
      exact absurd inside within
    · exact metered.total

end Metering

end Byteln.Library

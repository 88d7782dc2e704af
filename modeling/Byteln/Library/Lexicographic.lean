import Mathlib.Algebra.Ring.Nat
import Mathlib.Data.List.Lex

/-!
# Lexicographic order of what is written

Lists that start with as many letters each are compared letter by letter,
first the starts and then the rests.  Numbers written with the same number of
digits, and lists of keys that are all written with the same number of
letters, sort as they did before.
-/

namespace Byteln.Library

section Lexicographic

variable {α κ : Type*} [LT α]

/-- The starts decide, and then the rests. -/
theorem append_lt_append_iff
    {start start' rest rest' : List α}
    (same : start.length = start'.length) :
    start ++ rest < start' ++ rest' ↔
      start < start' ∨ start = start' ∧ rest < rest' := by
  induction start generalizing start' with
  | nil =>
      obtain rfl := List.eq_nil_of_length_eq_zero same.symm
      simp
  | cons letter start induction =>
      cases start' with
      | nil => cases same
      | cons letter' start' =>
          have shorter : start.length = start'.length := Nat.succ.inj same
          simp only [List.cons_append, List.cons_lt_cons_iff,
            induction shorter, List.cons.injEq]
          tauto

/-- A larger start is larger, whatever follows. -/
theorem append_lt_append
    {start start' : List α} (rest rest' : List α)
    (same : start.length = start'.length) (less : start < start') :
    start ++ rest < start' ++ rest' :=
  (append_lt_append_iff same).mpr (.inl less)

/-- Keys that are written with `width` letters each and sort as they are
written. -/
structure Sorts [LT κ] (width : Nat) (write : κ → List α) : Prop where
  length : ∀ key, (write key).length = width
  lt : ∀ key key', key < key' → write key < write key'

namespace Sorts

variable [LT κ] {width : Nat} {write : κ → List α}

theorem length_flatMap (sorts : Sorts width write) (keys : List κ) :
    (keys.flatMap write).length = keys.length * width := by
  induction keys with
  | nil => simp
  | cons key keys induction =>
      rw [List.flatMap_cons, List.length_append, induction, sorts.length,
        List.length_cons, Nat.succ_mul, Nat.add_comm]

/-- Lists of keys sort as they are written one after the other. -/
theorem flatMap_lt (sorts : Sorts width write) {keys keys' : List κ}
    (same : keys.length = keys'.length) (less : keys < keys') :
    keys.flatMap write < keys'.flatMap write := by
  induction keys generalizing keys' with
  | nil =>
      obtain rfl := List.eq_nil_of_length_eq_zero same.symm
      cases less
  | cons key keys induction =>
      cases keys' with
      | nil => cases same
      | cons key' keys' =>
          have lengths : (write key).length = (write key').length :=
            (sorts.length key).trans (sorts.length key').symm
          rw [List.flatMap_cons, List.flatMap_cons]
          apply (append_lt_append_iff lengths).mpr
          rcases List.cons_lt_cons_iff.mp less with first | ⟨rfl, rest⟩
          · exact .inl (sorts.lt key key' first)
          · exact .inr ⟨rfl, induction (Nat.succ.inj same) rest⟩

end Sorts

end Lexicographic

/-! ## Numbers as bytes -/

/-- The last `width` bytes of a number, the highest one first. -/
def bigEndian : Nat → Nat → List UInt8
  | 0, _ => []
  | width + 1, number =>
      (number / 256 ^ width).toUInt8 :: bigEndian width number

@[simp] theorem length_bigEndian (width number : Nat) :
    (bigEndian width number).length = width := by
  induction width with
  | zero => rfl
  | succ width induction => simp [bigEndian, induction]

theorem toUInt8_lt_iff (number number' : Nat) :
    number.toUInt8 < number'.toUInt8 ↔ number % 256 < number' % 256 := by
  rw [UInt8.lt_iff_toNat_lt]
  simp

theorem toUInt8_eq_iff (number number' : Nat) :
    number.toUInt8 = number'.toUInt8 ↔ number % 256 = number' % 256 := by
  rw [← UInt8.toNat_inj]
  simp

/-- The highest byte of a number, and the lower ones. -/
theorem mod_pow_succ (number width : Nat) :
    number % 256 ^ (width + 1) =
      number % 256 ^ width + 256 ^ width * (number / 256 ^ width % 256) := by
  rw [Nat.pow_succ, Nat.mod_mul]

theorem bigEndian_congr (width : Nat) {number number' : Nat}
    (same : number % 256 ^ width = number' % 256 ^ width) :
    bigEndian width number = bigEndian width number' := by
  induction width with
  | zero => rfl
  | succ width induction =>
      have positive : 0 < 256 ^ width := Nat.pow_pos (by decide)
      rw [mod_pow_succ, mod_pow_succ] at same
      have low := congrArg (· % 256 ^ width) same
      simp only [Nat.add_mul_mod_self_left, Nat.mod_mod] at low
      rw [low] at same
      have high := Nat.eq_of_mul_eq_mul_left positive
        (Nat.add_left_cancel same)
      unfold bigEndian
      rw [(toUInt8_eq_iff _ _).mpr high, induction low]

/-- Numbers sort as their last bytes do. -/
theorem bigEndian_lt (width : Nat) {number number' : Nat}
    (less : number % 256 ^ width < number' % 256 ^ width) :
    bigEndian width number < bigEndian width number' := by
  induction width with
  | zero => simp [Nat.mod_one] at less
  | succ width induction =>
      rw [mod_pow_succ, mod_pow_succ] at less
      have low : number % 256 ^ width < 256 ^ width :=
        Nat.mod_lt _ (Nat.pow_pos (by decide))
      have low' : number' % 256 ^ width < 256 ^ width :=
        Nat.mod_lt _ (Nat.pow_pos (by decide))
      apply List.cons_lt_cons_iff.mpr
      rcases Nat.lt_trichotomy (number / 256 ^ width % 256)
        (number' / 256 ^ width % 256) with high | same | high
      · exact .inl ((toUInt8_lt_iff _ _).mpr high)
      · rw [same] at less
        have rest := Nat.lt_of_add_lt_add_right less
        exact .inr ⟨(toUInt8_eq_iff _ _).mpr same, induction rest⟩
      · have above := Nat.mul_le_mul_left (256 ^ width) high
        rw [Nat.mul_succ] at above
        omega

end Byteln.Library

import Byteln.Library.Json
import Mathlib.Data.Nat.Digits.Lemmas

/-!
# Integers as numbers

Decimal texts of integers, which make them an instance of the numbers that
JSON texts are written with.
-/

namespace Byteln.Library

def digitUnit (digit : Nat) : UInt16 :=
  UInt16.ofNat (0x30 + digit)

/-- `String(n)`. -/
def decimal (n : Nat) : JSString :=
  if n = 0 then [0x30] else ((Nat.digits 10 n).map digitUnit).reverse

def ofDecimal (s : JSString) : Nat :=
  s.foldl (fun value u => (u.toNat - 0x30) + 10 * value) 0

theorem toNat_digitUnit {digit : Nat} (small : digit < 10) :
    (digitUnit digit).toNat = 0x30 + digit := by
  unfold digitUnit
  rw [UInt16.toNat_ofNat']
  omega

theorem isDigitUnit_digitUnit :
    ∀ digit < 10, isDigitUnit (digitUnit digit) = true := by
  decide

theorem digitUnit_eq_zero_iff :
    ∀ digit < 10, digitUnit digit = 0x30 ↔ digit = 0 := by
  decide

theorem digitUnit_ne_sign :
    ∀ digit < 10, digitUnit digit ≠ 0x2d := by
  decide

theorem ofDigits_digitUnits {digits : List Nat}
    (small : ∀ digit ∈ digits, digit < 10) :
    ofDecimal (digits.map digitUnit).reverse = Nat.ofDigits 10 digits := by
  unfold ofDecimal
  rw [List.foldl_reverse]
  induction digits with
  | nil => rfl
  | cons digit digits induction =>
      obtain ⟨first, later⟩ := List.forall_mem_cons.mp small
      rw [List.map_cons, List.foldr_cons, induction later,
        Nat.ofDigits_cons, toNat_digitUnit first]
      simp

theorem ofDecimal_decimal (n : Nat) : ofDecimal (decimal n) = n := by
  unfold decimal
  split
  · rename_i zero
    rw [zero]
    rfl
  · have small : ∀ digit ∈ Nat.digits 10 n, digit < 10 :=
      fun digit member => Nat.digits_lt_base (by decide) member
    rw [ofDigits_digitUnits small, Nat.ofDigits_digits]

/-- The digits that Lean writes. -/
theorem toDigits_eq_decimal (n : Nat) :
    (Nat.toDigits 10 n).map (fun c => UInt16.ofNat c.toNat) = decimal n := by
  have digit : ∀ d < 10, UInt16.ofNat (Nat.digitChar d).toNat =
      digitUnit d := by
    decide
  induction n using Nat.strongRecOn with
  | ind n induction =>
      rw [Nat.toDigits_eq_if (by decide)]
      by_cases small : n < 10
      · rw [if_pos small]
        by_cases zero : n = 0
        · rw [zero]
          decide
        · unfold decimal
          rw [if_neg zero, Nat.digits_of_lt 10 n zero small]
          exact congrArg (fun u => [u]) (digit n small)
      · have some_ : n ≠ 0 := by
          omega
        have left : n / 10 ≠ 0 := by
          omega
        have less : n / 10 < n := by
          omega
        have rest := induction (n / 10) less
        unfold decimal at rest ⊢
        rw [if_neg left] at rest
        rw [if_neg small, List.map_append, rest, List.map_singleton,
          digit (n % 10) (Nat.mod_lt _ (by decide)), if_neg some_,
          Nat.digits_def' (by decide) (Nat.pos_of_ne_zero some_),
          List.map_cons, List.reverse_cons]

/-- The first digit of a number is not zero, and digits follow it. -/
theorem decimal_of_ne_zero {n : Nat} (some_ : n ≠ 0) :
    ∃ digit rest, decimal n = digitUnit digit :: rest ∧ digit < 10 ∧
      digit ≠ 0 ∧ ∀ u ∈ rest, isDigitUnit u = true := by
  have nonempty : Nat.digits 10 n ≠ [] :=
    Nat.digits_ne_nil_iff_ne_zero.mpr some_
  have split := List.dropLast_append_getLast nonempty
  have small : ∀ digit ∈ Nat.digits 10 n, digit < 10 :=
    fun digit member => Nat.digits_lt_base (by decide) member
  refine ⟨(Nat.digits 10 n).getLast nonempty,
    ((Nat.digits 10 n).dropLast.map digitUnit).reverse, ?_, ?_, ?_, ?_⟩
  · unfold decimal
    rw [if_neg some_]
    nth_rewrite 1 [← split]
    simp
  · exact small _ (List.getLast_mem nonempty)
  · exact Nat.getLast_digit_ne_zero 10 some_
  · intro u member
    rw [List.mem_reverse] at member
    obtain ⟨digit, inside, rfl⟩ := List.mem_map.mp member
    exact isDigitUnit_digitUnit digit
      (small digit (List.mem_of_mem_dropLast inside))

theorem isUnsigned_decimal (n : Nat) : isUnsigned (decimal n) = true := by
  by_cases zero : n = 0
  · rw [zero]
    decide
  · obtain ⟨digit, rest, text, small, first, digits⟩ :=
      decimal_of_ne_zero zero
    have dropped : rest.dropWhile isDigitUnit = [] := by
      simpa using digits
    rw [text]
    unfold isUnsigned
    split
    · rename_i same
      injection same with same
      exact absurd ((digitUnit_eq_zero_iff digit small).mp same) first
    · rename_i same
      injection same with head tail
      rw [← head, ← tail, dropped, isDigitUnit_digitUnit digit small]
      rfl
    · rename_i empty
      cases empty

theorem head?_decimal (n : Nat) : (decimal n).head? ≠ some 0x2d := by
  by_cases zero : n = 0
  · rw [zero]
    decide
  · obtain ⟨digit, rest, text, small, -, -⟩ := decimal_of_ne_zero zero
    rw [text]
    exact fun same => digitUnit_ne_sign digit small (Option.some.inj same)

def integerText : Int → JSString
  | .ofNat n => decimal n
  | .negSucc n => 0x2d :: decimal (n + 1)

def integerOfText (s : JSString) : Int :=
  if s.head? = some 0x2d then -(ofDecimal s.tail : Int)
  else ofDecimal s

theorem isNumeral_integerText (k : Int) :
    isNumeral (integerText k) = true := by
  cases k with
  | ofNat n =>
      have unsigned := isUnsigned_decimal n
      have head := head?_decimal n
      show isNumeral (decimal n) = true
      unfold isNumeral
      split
      · rename_i rest same
        rw [same] at head
        exact absurd rfl head
      · exact unsigned
  | negSucc n => exact isUnsigned_decimal (n + 1)

theorem integerOfText_integerText (k : Int) :
    integerOfText (integerText k) = k := by
  cases k with
  | ofNat n =>
      show integerOfText (decimal n) = n
      unfold integerOfText
      rw [if_neg (head?_decimal n), ofDecimal_decimal]
  | negSucc n =>
      show -(ofDecimal (decimal (n + 1)) : Int) = Int.negSucc n
      rw [ofDecimal_decimal]
      rfl

instance : Numeric Int where
  text := integerText
  ofText := integerOfText
  isFinite _ := true
  toInt? k := some k
  ofInt k := k
  isNumeral_text k _ := isNumeral_integerText k
  ofText_text k _ := integerOfText_integerText k
  ofInt_of_toInt? _ _ same := (Option.some.inj same).symm
  isFinite_of_toInt? _ _ _ := rfl
  toInt?_ofInt _ _ := rfl

end Byteln.Library

import Mathlib.Data.List.Nodup

/-!
# Base64

Bytes as groups of six bits, and the alphabets that write them.  A decoder
that ignores the bits left over in the last group reads back every text that
the encoder writes.
-/

namespace Byteln.Library

/-- Groups of six bits, the last of them filled up with zeros. -/
def sextets : List UInt8 → List Nat
  | a :: b :: c :: rest =>
      a.toNat / 4 :: (a.toNat % 4 * 16 + b.toNat / 16) ::
        (b.toNat % 16 * 4 + c.toNat / 64) :: c.toNat % 64 :: sextets rest
  | [a, b] =>
      [a.toNat / 4, a.toNat % 4 * 16 + b.toNat / 16, b.toNat % 16 * 4]
  | [a] => [a.toNat / 4, a.toNat % 4 * 16]
  | [] => []

/-- The bytes of groups of six bits.  One group alone is no byte. -/
def ofSextets : List Nat → Option (List UInt8)
  | p :: q :: r :: s :: rest =>
      (ofSextets rest).map fun bytes =>
        UInt8.ofNat (p * 4 + q / 16) :: UInt8.ofNat (q % 16 * 16 + r / 4) ::
          UInt8.ofNat (r % 4 * 64 + s) :: bytes
  | [p, q, r] =>
      some [UInt8.ofNat (p * 4 + q / 16), UInt8.ofNat (q % 16 * 16 + r / 4)]
  | [p, q] => some [UInt8.ofNat (p * 4 + q / 16)]
  | [_] => none
  | [] => some []

theorem byte_of_eq {b : UInt8} {n : Nat} (same : n = b.toNat) :
    UInt8.ofNat n = b := by
  rw [same, UInt8.ofNat_toNat]

theorem ofSextets_sextets (bytes : List UInt8) :
    ofSextets (sextets bytes) = some bytes := by
  induction bytes using sextets.induct with
  | case1 a b c rest induction =>
      have := a.toNat_lt
      have := b.toNat_lt
      have := c.toNat_lt
      rw [sextets, ofSextets, induction, Option.map_some,
        byte_of_eq (b := a) (by omega),
        byte_of_eq (b := b) (by omega),
        byte_of_eq (b := c) (by omega)]
  | case2 a b =>
      have := a.toNat_lt
      have := b.toNat_lt
      rw [sextets, ofSextets, byte_of_eq (b := a) (by omega),
        byte_of_eq (b := b) (by omega)]
  | case3 a =>
      have := a.toNat_lt
      rw [sextets, ofSextets, byte_of_eq (b := a) (by omega)]
  | case4 => rfl

theorem sextets_lt (bytes : List UInt8) : ∀ n ∈ sextets bytes, n < 64 := by
  induction bytes using sextets.induct with
  | case1 a b c rest induction =>
      have := a.toNat_lt
      have := b.toNat_lt
      have := c.toNat_lt
      intro n member
      simp only [sextets, List.mem_cons] at member
      rcases member with rfl | rfl | rfl | rfl | member
      · omega
      · omega
      · omega
      · omega
      · exact induction n member
  | case2 a b =>
      have := a.toNat_lt
      have := b.toNat_lt
      intro n member
      simp only [sextets, List.mem_cons, List.not_mem_nil, or_false] at member
      omega
  | case3 a =>
      have := a.toNat_lt
      intro n member
      simp only [sextets, List.mem_cons, List.not_mem_nil, or_false] at member
      omega
  | case4 =>
      intro n member
      cases member

theorem sextets_eq_nil {bytes : List UInt8} :
    sextets bytes = [] ↔ bytes = [] := by
  induction bytes using sextets.induct <;> simp [sextets]

/-- The characters that stand for the numbers below 64. -/
structure Alphabet (τ : Type*) where
  chars : List τ
  length : chars.length = 64
  distinct : chars.Nodup

namespace Alphabet

variable {τ : Type*} (alphabet : Alphabet τ)

def digit (n : Nat) : τ :=
  alphabet.chars.getD n (alphabet.chars.get ⟨0, by rw [alphabet.length]; decide⟩)

def value [DecidableEq τ] (char : τ) : Option Nat :=
  alphabet.chars.idxOf? char

/-- Encode without padding. -/
def encode (bytes : List UInt8) : List τ :=
  (sextets bytes).map alphabet.digit

/-- Decode a text without padding. -/
def decode [DecidableEq τ] (text : List τ) : Option (List UInt8) :=
  (text.mapM alphabet.value).bind ofSextets

theorem digit_eq {n : Nat} (inside : n < alphabet.chars.length) :
    alphabet.digit n = alphabet.chars[n] := by
  unfold digit
  rw [List.getD_eq_getElem?_getD, List.getElem?_eq_getElem inside,
    Option.getD_some]

theorem digit_mem {n : Nat} (small : n < 64) :
    alphabet.digit n ∈ alphabet.chars := by
  have inside : n < alphabet.chars.length := by
    rw [alphabet.length]
    exact small
  rw [alphabet.digit_eq inside]
  exact List.getElem_mem inside

theorem mem_encode {bytes : List UInt8} {char : τ}
    (member : char ∈ alphabet.encode bytes) : char ∈ alphabet.chars := by
  obtain ⟨n, inside, rfl⟩ := List.mem_map.mp member
  exact alphabet.digit_mem (sextets_lt bytes n inside)

variable [DecidableEq τ]

theorem value_digit {n : Nat} (small : n < 64) :
    alphabet.value (alphabet.digit n) = some n := by
  have inside : n < alphabet.chars.length := by
    rw [alphabet.length]
    exact small
  rw [alphabet.digit_eq inside]
  unfold value
  rw [List.idxOf?_eq_some_iff]
  refine ⟨inside, rfl, fun j earlier same => ?_⟩
  have equal := (alphabet.distinct.getElem_inj_iff).mp same
  exact Nat.ne_of_lt earlier equal

/-- What is encoded is read back. -/
theorem decode_encode (bytes : List UInt8) :
    alphabet.decode (alphabet.encode bytes) = some bytes := by
  have read : ∀ numbers : List Nat, (∀ n ∈ numbers, n < 64) →
      (numbers.map alphabet.digit).mapM alphabet.value = some numbers := by
    intro numbers
    induction numbers with
    | nil => intro _; rfl
    | cons n numbers induction =>
        intro small
        rw [List.map_cons, List.mapM_cons,
          alphabet.value_digit (small n List.mem_cons_self),
          induction fun m member => small m (List.mem_cons_of_mem n member)]
        rfl
  unfold decode encode
  rw [read _ (sextets_lt bytes)]
  exact ofSextets_sextets bytes

end Alphabet

end Byteln.Library

import Byteln.Library.CodeUnits

/-!
# UTF-8

What `TextEncoder` makes of a JavaScript string, and `TextDecoder` of bytes.
A surrogate that is not part of a pair becomes the replacement character, and
so does a sequence of bytes that is none of UTF-8.
-/

namespace Byteln.Library

def isHighSurrogate (u : UInt16) : Bool :=
  0xD800 ≤ u && u ≤ 0xDBFF

def isLowSurrogate (u : UInt16) : Bool :=
  0xDC00 ≤ u && u ≤ 0xDFFF

/-- The code point of a surrogate pair. -/
def surrogatePair (high low : UInt16) : Nat :=
  0x10000 + (high.toNat - 0xD800) * 0x400 + (low.toNat - 0xDC00)

/-- The bytes of a code point. -/
def utf8Bytes (c : Nat) : List UInt8 :=
  if c < 0x80 then [UInt8.ofNat c]
  else if c < 0x800 then
    [UInt8.ofNat (0xC0 + c / 0x40), UInt8.ofNat (0x80 + c % 0x40)]
  else if c < 0x10000 then
    [UInt8.ofNat (0xE0 + c / 0x1000), UInt8.ofNat (0x80 + c / 0x40 % 0x40),
      UInt8.ofNat (0x80 + c % 0x40)]
  else
    [UInt8.ofNat (0xF0 + c / 0x40000), UInt8.ofNat (0x80 + c / 0x1000 % 0x40),
      UInt8.ofNat (0x80 + c / 0x40 % 0x40), UInt8.ofNat (0x80 + c % 0x40)]

/-- The code points of a string, with lone surrogates replaced. -/
def codePoints : JSString → List Nat
  | [] => []
  | [u] =>
      if isHighSurrogate u || isLowSurrogate u then [0xFFFD] else [u.toNat]
  | u :: v :: rest =>
      if isHighSurrogate u && isLowSurrogate v then
        surrogatePair u v :: codePoints rest
      else if isHighSurrogate u || isLowSurrogate u then
        0xFFFD :: codePoints (v :: rest)
      else u.toNat :: codePoints (v :: rest)

/-- `encoder.encode`. -/
def textEncode (s : JSString) : List UInt8 :=
  (codePoints s).flatMap utf8Bytes

/-! ## Decoding -/

/-- A code point of which `needed` more bytes are due; the next one is at
least `lower` and at most `upper`. -/
structure Unfinished where
  point : Nat
  needed : Nat
  lower : Nat
  upper : Nat

/-- What the first byte of a code point says. -/
inductive Lead where
  | whole (point : Nat)
  | starts (unfinished : Unfinished)
  | invalid

def leadByte (b : Nat) : Lead :=
  if b < 0x80 then .whole b
  else if 0xC2 ≤ b ∧ b < 0xE0 then .starts ⟨b % 0x20, 1, 0x80, 0xBF⟩
  else if 0xE0 ≤ b ∧ b < 0xF0 then
    .starts ⟨b % 0x10, 2, if b = 0xE0 then 0xA0 else 0x80,
      if b = 0xED then 0x9F else 0xBF⟩
  else if 0xF0 ≤ b ∧ b < 0xF5 then
    .starts ⟨b % 0x08, 3, if b = 0xF0 then 0x90 else 0x80,
      if b = 0xF4 then 0x8F else 0xBF⟩
  else .invalid

/-- Go on with the first byte of a code point. -/
def afterLead (resume : Option Unfinished → List Nat) : Lead → List Nat
  | .whole point => point :: resume none
  | .starts unfinished => resume (some unfinished)
  | .invalid => 0xFFFD :: resume none

/-- The code points of bytes, after those of an unfinished one. -/
def decodePoints : List UInt8 → Option Unfinished → List Nat
  | [], none => []
  | [], some _ => [0xFFFD]
  | b :: bytes, none => afterLead (decodePoints bytes) (leadByte b.toNat)
  | b :: bytes, some u =>
      if u.lower ≤ b.toNat ∧ b.toNat ≤ u.upper then
        let point := u.point * 0x40 + b.toNat % 0x40
        if u.needed = 1 then point :: decodePoints bytes none
        else decodePoints bytes (some ⟨point, u.needed - 1, 0x80, 0xBF⟩)
      else
        -- The byte may start the next code point.
        0xFFFD :: afterLead (decodePoints bytes) (leadByte b.toNat)

/-- The code units of a code point. -/
def pointUnits (c : Nat) : JSString :=
  if c < 0x10000 then [UInt16.ofNat c]
  else
    [UInt16.ofNat (0xD800 + (c - 0x10000) / 0x400),
      UInt16.ofNat (0xDC00 + (c - 0x10000) % 0x400)]

/-- A byte order mark in front is no part of the text. -/
def withoutMark : List Nat → List Nat
  | 0xFEFF :: points => points
  | points => points

/-- `decoder.decode`. -/
def textDecode (bytes : List UInt8) : JSString :=
  (withoutMark (decodePoints bytes none)).flatMap pointUnits

/-- The string of ASCII bytes. -/
def ofAscii (bytes : List UInt8) : JSString :=
  bytes.map fun b => b.toUInt16

theorem codePoints_cons {u : UInt16} (text : isHighSurrogate u = false)
    (text' : isLowSurrogate u = false) (rest : JSString) :
    codePoints (u :: rest) = u.toNat :: codePoints rest := by
  cases rest <;> simp [codePoints, text, text']

theorem textEncode_ofAscii_append {bytes : List UInt8} (rest : JSString)
    (small : ∀ b ∈ bytes, b.toNat < 0x80) :
    textEncode (ofAscii bytes ++ rest) = bytes ++ textEncode rest := by
  induction bytes with
  | nil => rfl
  | cons b bytes induction =>
      have low := small b List.mem_cons_self
      have units : b.toUInt16.toNat = b.toNat := UInt8.toNat_toUInt16 b
      have text : isHighSurrogate b.toUInt16 = false := by
        simp only [isHighSurrogate, Bool.and_eq_false_iff,
          decide_eq_false_iff_not, UInt16.le_iff_toNat_le, units]
        left
        simp only [UInt16.reduceToNat]
        omega
      have text' : isLowSurrogate b.toUInt16 = false := by
        simp only [isLowSurrogate, Bool.and_eq_false_iff,
          decide_eq_false_iff_not, UInt16.le_iff_toNat_le, units]
        left
        simp only [UInt16.reduceToNat]
        omega
      have tail := induction fun b member =>
        small b (List.mem_cons_of_mem _ member)
      unfold textEncode at tail ⊢
      show (codePoints (b.toUInt16 :: (ofAscii bytes ++ rest))).flatMap
        utf8Bytes = _
      rw [codePoints_cons text text', List.flatMap_cons, tail, units,
        utf8Bytes, if_pos low, UInt8.ofNat_toNat]
      rfl

theorem textEncode_ne_nil {s : JSString} (some_ : s ≠ []) :
    textEncode s ≠ [] := by
  have bytes : ∀ c, utf8Bytes c ≠ [] := by
    intro c
    unfold utf8Bytes
    split_ifs <;> simp
  have points : codePoints s ≠ [] := by
    induction s using codePoints.induct with
    | case1 => exact absurd rfl some_
    | case2 u lone => simp [codePoints, lone]
    | case3 u text => simp [codePoints, text]
    | case4 u v rest pair => simp [codePoints, pair]
    | case5 u v rest pair lone => simp [codePoints, pair, lone]
    | case6 u v rest pair text => simp [codePoints, pair, text]
  obtain ⟨c, rest, same⟩ := List.exists_cons_of_ne_nil points
  unfold textEncode
  rw [same, List.flatMap_cons]
  intro empty
  exact bytes c (List.append_eq_nil_iff.mp empty).1

/-! ## Texts survive the encoding -/

/-- A code point that is no surrogate. -/
structure IsScalar (c : Nat) : Prop where
  bound : c < 0x110000
  apart : c < 0xD800 ∨ 0xE000 ≤ c

theorem toNat_ofNat_of_lt {n : Nat} (small : n < 0x100) :
    (UInt8.ofNat n).toNat = n := by
  simp only [UInt8.toNat_ofNat']
  exact Nat.mod_eq_of_lt small

/-- The last byte of a code point. -/
theorem decodePoints_last {b point lower upper : Nat} (small : b < 0x100)
    (between : lower ≤ b ∧ b ≤ upper) (rest : List UInt8) :
    decodePoints (UInt8.ofNat b :: rest) (some ⟨point, 1, lower, upper⟩) =
      (point * 0x40 + b % 0x40) :: decodePoints rest none := by
  rw [decodePoints, toNat_ofNat_of_lt small, if_pos between]
  exact if_pos rfl

/-- A byte of a code point that is not its last. -/
theorem decodePoints_more {b point needed lower upper : Nat}
    (small : b < 0x100) (between : lower ≤ b ∧ b ≤ upper)
    (rest : List UInt8) :
    decodePoints (UInt8.ofNat b :: rest)
        (some ⟨point, needed + 2, lower, upper⟩) =
      decodePoints rest
        (some ⟨point * 0x40 + b % 0x40, needed + 1, 0x80, 0xBF⟩) := by
  rw [decodePoints, toNat_ofNat_of_lt small, if_pos between]
  exact if_neg (by simp)

theorem decodePoints_lead {b : Nat} (small : b < 0x100)
    (rest : List UInt8) :
    decodePoints (UInt8.ofNat b :: rest) none =
      afterLead (decodePoints rest) (leadByte b) := by
  rw [decodePoints, toNat_ofNat_of_lt small]

/-- The bytes of a code point are read as this code point. -/
theorem decodePoints_utf8Bytes {c : Nat} (scalar : IsScalar c)
    (rest : List UInt8) :
    decodePoints (utf8Bytes c ++ rest) none = c :: decodePoints rest none := by
  obtain ⟨bound, apart⟩ := scalar
  unfold utf8Bytes
  split_ifs with one two three
  · have lead : leadByte c = .whole c := if_pos one
    rw [List.singleton_append, decodePoints_lead (by omega), lead]
    rfl
  · have lead : leadByte (0xC0 + c / 0x40) =
        .starts ⟨c / 0x40, 1, 0x80, 0xBF⟩ := by
      unfold leadByte
      rw [if_neg (by omega), if_pos (by omega)]
      congr 2
      omega
    simp only [List.cons_append, List.nil_append]
    rw [decodePoints_lead (by omega), lead, afterLead,
      decodePoints_last (by omega) (by omega)]
    congr 1
    omega
  · have lead : leadByte (0xE0 + c / 0x1000) =
        .starts ⟨c / 0x1000, 2, if c / 0x1000 = 0 then 0xA0 else 0x80,
          if c / 0x1000 = 0xD then 0x9F else 0xBF⟩ := by
      unfold leadByte
      rw [if_neg (by omega), if_neg (by omega), if_pos (by omega)]
      congr 2
      · omega
      · exact if_congr (by omega) rfl rfl
      · exact if_congr (by omega) rfl rfl
    simp only [List.cons_append, List.nil_append]
    rw [decodePoints_lead (by omega), lead, afterLead,
      decodePoints_more (by omega) (by split_ifs <;> omega),
      decodePoints_last (by omega) (by omega)]
    congr 1
    omega
  · have lead : leadByte (0xF0 + c / 0x40000) =
        .starts ⟨c / 0x40000, 3, if c / 0x40000 = 0 then 0x90 else 0x80,
          if c / 0x40000 = 4 then 0x8F else 0xBF⟩ := by
      unfold leadByte
      rw [if_neg (by omega), if_neg (by omega), if_neg (by omega),
        if_pos (by omega)]
      congr 2
      · omega
      · exact if_congr (by omega) rfl rfl
      · exact if_congr (by omega) rfl rfl
    simp only [List.cons_append, List.nil_append]
    rw [decodePoints_lead (by omega), lead, afterLead,
      decodePoints_more (by omega) (by split_ifs <;> omega),
      decodePoints_more (by omega) (by omega),
      decodePoints_last (by omega) (by omega)]
    congr 1
    omega

theorem decodePoints_flatMap_append {points : List Nat}
    (scalars : ∀ c ∈ points, IsScalar c) (rest : List UInt8) :
    decodePoints (points.flatMap utf8Bytes ++ rest) none =
      points ++ decodePoints rest none := by
  induction points with
  | nil => rfl
  | cons c points induction =>
      have later := induction fun c member =>
        scalars c (List.mem_cons_of_mem _ member)
      rw [List.flatMap_cons, List.append_assoc,
        decodePoints_utf8Bytes (scalars c List.mem_cons_self), later,
        List.cons_append]

theorem decodePoints_flatMap {points : List Nat}
    (scalars : ∀ c ∈ points, IsScalar c) :
    decodePoints (points.flatMap utf8Bytes) none = points := by
  have whole := decodePoints_flatMap_append scalars []
  rwa [List.append_nil, show decodePoints [] none = [] from rfl,
    List.append_nil] at whole

/-- Every surrogate is part of a pair. -/
def isWellFormed : JSString → Bool
  | [] => true
  | [u] => !isHighSurrogate u && !isLowSurrogate u
  | u :: v :: rest =>
      if isHighSurrogate u && isLowSurrogate v then isWellFormed rest
      else
        !isHighSurrogate u && !isLowSurrogate u && isWellFormed (v :: rest)

theorem toNat_of_isHighSurrogate {u : UInt16} :
    isHighSurrogate u = true ↔ 0xD800 ≤ u.toNat ∧ u.toNat ≤ 0xDBFF := by
  simp [isHighSurrogate, UInt16.le_iff_toNat_le]

theorem toNat_of_isLowSurrogate {u : UInt16} :
    isLowSurrogate u = true ↔ 0xDC00 ≤ u.toNat ∧ u.toNat ≤ 0xDFFF := by
  simp [isLowSurrogate, UInt16.le_iff_toNat_le]

/-- A unit that is no surrogate is a code point. -/
theorem isScalar_of_text {u : UInt16} (high : isHighSurrogate u = false)
    (low : isLowSurrogate u = false) : IsScalar u.toNat := by
  have bound := u.toNat_lt
  have notHigh := toNat_of_isHighSurrogate.not.mp (Bool.eq_false_iff.mp high)
  have notLow := toNat_of_isLowSurrogate.not.mp (Bool.eq_false_iff.mp low)
  constructor <;> omega

theorem pointUnits_toNat (u : UInt16) : pointUnits u.toNat = [u] := by
  have bound := u.toNat_lt
  rw [pointUnits, if_pos (by omega), UInt16.ofNat_toNat]

theorem pointUnits_surrogatePair {u v : UInt16}
    (high : isHighSurrogate u = true) (low : isLowSurrogate v = true) :
    pointUnits (surrogatePair u v) = [u, v] := by
  obtain ⟨highLower, highUpper⟩ := toNat_of_isHighSurrogate.mp high
  obtain ⟨lowLower, lowUpper⟩ := toNat_of_isLowSurrogate.mp low
  have beyond : ¬ surrogatePair u v < 0x10000 := by
    unfold surrogatePair
    omega
  have first : 0xD800 + (surrogatePair u v - 0x10000) / 0x400 = u.toNat := by
    unfold surrogatePair
    omega
  have second : 0xDC00 + (surrogatePair u v - 0x10000) % 0x400 =
      v.toNat := by
    unfold surrogatePair
    omega
  rw [pointUnits, if_neg beyond, first, second, UInt16.ofNat_toNat,
    UInt16.ofNat_toNat]

theorem isScalar_surrogatePair {u v : UInt16}
    (high : isHighSurrogate u = true) (low : isLowSurrogate v = true) :
    IsScalar (surrogatePair u v) := by
  have inHigh := toNat_of_isHighSurrogate.mp high
  have inLow := toNat_of_isLowSurrogate.mp low
  unfold surrogatePair
  constructor <;> omega

/-- The code points of a string without lone surrogates spell it. -/
theorem codePoints_spec {s : JSString} (formed : isWellFormed s = true) :
    (∀ c ∈ codePoints s, IsScalar c) ∧
      (codePoints s).flatMap pointUnits = s := by
  induction s using codePoints.induct with
  | case1 =>
      constructor
      · intro c member
        cases member
      · rfl
  | case2 u lone =>
      simp only [isWellFormed, Bool.and_eq_true, Bool.not_eq_true'] at formed
      rw [formed.1, formed.2] at lone
      cases lone
  | case3 u text =>
      simp only [isWellFormed, Bool.and_eq_true, Bool.not_eq_true'] at formed
      have scalar := isScalar_of_text formed.1 formed.2
      have point := pointUnits_toNat u
      simp [codePoints, formed.1, formed.2, scalar, point]
  | case4 u v rest pair induction =>
      rw [isWellFormed, if_pos pair] at formed
      obtain ⟨scalars, spelled⟩ := induction formed
      have points : codePoints (u :: v :: rest) =
          surrogatePair u v :: codePoints rest := if_pos pair
      rw [Bool.and_eq_true] at pair
      have scalar := isScalar_surrogatePair pair.1 pair.2
      have units := pointUnits_surrogatePair pair.1 pair.2
      rw [points]
      constructor
      · exact List.forall_mem_cons.mpr ⟨scalar, scalars⟩
      · rw [List.flatMap_cons, units, spelled]
        rfl
  | case5 u v rest pair lone induction =>
      rw [isWellFormed, if_neg pair] at formed
      simp only [Bool.and_eq_true, Bool.not_eq_true'] at formed
      rw [formed.1.1, formed.1.2] at lone
      cases lone
  | case6 u v rest pair text induction =>
      rw [isWellFormed, if_neg pair] at formed
      simp only [Bool.and_eq_true, Bool.not_eq_true'] at formed
      obtain ⟨scalars, spelled⟩ := induction formed.2
      have scalar := isScalar_of_text formed.1.1 formed.1.2
      rw [codePoints_cons formed.1.1 formed.1.2]
      constructor
      · exact List.forall_mem_cons.mpr ⟨scalar, scalars⟩
      · rw [List.flatMap_cons, pointUnits_toNat, spelled]
        rfl

theorem isWellFormed_cons {u : UInt16} (high : isHighSurrogate u = false)
    (low : isLowSurrogate u = false) (rest : JSString) :
    isWellFormed (u :: rest) = isWellFormed rest := by
  cases rest <;> simp [isWellFormed, high, low]

theorem isWellFormed_of_text {s : JSString}
    (text : ∀ u ∈ s, isHighSurrogate u = false ∧ isLowSurrogate u = false) :
    isWellFormed s = true := by
  induction s with
  | nil => rfl
  | cons u s induction =>
      obtain ⟨high, low⟩ := text u List.mem_cons_self
      rw [isWellFormed_cons high low]
      exact induction fun u member => text u (List.mem_cons_of_mem _ member)

theorem isWellFormed_append {s t : JSString} (formed : isWellFormed s = true)
    (formed' : isWellFormed t = true) : isWellFormed (s ++ t) = true := by
  induction s using isWellFormed.induct with
  | case1 => exact formed'
  | case2 u =>
      simp only [isWellFormed, Bool.and_eq_true, Bool.not_eq_true'] at formed
      rw [List.singleton_append, isWellFormed_cons formed.1 formed.2]
      exact formed'
  | case3 u v rest pair induction =>
      rw [isWellFormed, if_pos pair] at formed
      have joined := induction formed
      rw [List.cons_append, List.cons_append, isWellFormed, if_pos pair]
      exact joined
  | case4 u v rest pair induction =>
      rw [isWellFormed, if_neg pair] at formed
      simp only [Bool.and_eq_true, Bool.not_eq_true'] at formed
      have joined := induction formed.2
      rw [List.cons_append, isWellFormed_cons formed.1.1 formed.1.2]
      exact joined

/-- A text is read as it was written, unless it starts with a byte order
mark. -/
theorem textDecode_textEncode {s : JSString} (formed : isWellFormed s = true)
    (unmarked : s.head? ≠ some 0xFEFF) : textDecode (textEncode s) = s := by
  obtain ⟨scalars, spelled⟩ := codePoints_spec formed
  have first : ∀ rest, codePoints s ≠ 0xFEFF :: rest := by
    intro rest points
    rw [points] at spelled
    rw [← spelled] at unmarked
    exact unmarked rfl
  unfold textDecode textEncode
  rw [decodePoints_flatMap scalars]
  have kept : withoutMark (codePoints s) = codePoints s := by
    cases points : codePoints s with
    | nil => rfl
    | cons c rest =>
        unfold withoutMark
        split
        · rename_i same
          exact absurd (points.trans same) (first _)
        · rfl
  rw [kept, spelled]

end Byteln.Library

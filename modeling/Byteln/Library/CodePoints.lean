import Byteln.Library.Utf8

/-!
# Texts as code points

The texts that a decoder can return are those without lone surrogates, and
what is encoded is no more than the code points of a text.
-/

namespace Byteln.Library

/-! ## Code points of a text -/

theorem isScalar_replacement : IsScalar 0xFFFD where
  bound := by decide
  apart := by decide

theorem codePoints_scalar (s : JSString) : ∀ c ∈ codePoints s, IsScalar c := by
  induction s using codePoints.induct with
  | case1 =>
      intro c member
      cases member
  | case2 u lone =>
      rw [codePoints, if_pos lone]
      simpa using isScalar_replacement
  | case3 u text =>
      rw [codePoints, if_neg text]
      simp only [Bool.not_eq_true, Bool.or_eq_false_iff] at text
      simpa using isScalar_of_text text.1 text.2
  | case4 u v rest pair induction =>
      rw [codePoints, if_pos pair]
      rw [Bool.and_eq_true] at pair
      exact List.forall_mem_cons.mpr
        ⟨isScalar_surrogatePair pair.1 pair.2, induction⟩
  | case5 u v rest pair lone induction =>
      rw [codePoints, if_neg pair, if_pos lone]
      exact List.forall_mem_cons.mpr ⟨isScalar_replacement, induction⟩
  | case6 u v rest pair text induction =>
      rw [codePoints, if_neg pair, if_neg text]
      simp only [Bool.not_eq_true, Bool.or_eq_false_iff] at text
      exact List.forall_mem_cons.mpr
        ⟨isScalar_of_text text.1 text.2, induction⟩

/-- What is encoded is no more than the code points of a text. -/
theorem textEncode_eq_iff {s t : JSString} :
    textEncode s = textEncode t ↔ codePoints s = codePoints t := by
  constructor
  · intro same
    have read := congrArg (decodePoints · none) same
    simpa only [textEncode, decodePoints_flatMap (codePoints_scalar _)]
      using read
  · intro same
    rw [textEncode, textEncode, same]

theorem codePoints_injective {s t : JSString}
    (formed : isWellFormed s = true) (formed' : isWellFormed t = true)
    (same : codePoints s = codePoints t) : s = t := by
  rw [← (codePoints_spec formed).2, ← (codePoints_spec formed').2, same]

/-- A unit that is no surrogate parts a text. -/
theorem codePoints_append_cons {u : UInt16}
    (high : isHighSurrogate u = false) (low : isLowSurrogate u = false)
    (s t : JSString) :
    codePoints (s ++ u :: t) = codePoints s ++ u.toNat :: codePoints t := by
  induction s using codePoints.induct with
  | case1 => exact codePoints_cons high low t
  | case2 v lone =>
      have pair : ¬ (isHighSurrogate v && isLowSurrogate u) = true := by
        simp [low]
      have first : codePoints [v] = [0xFFFD] := if_pos lone
      rw [List.singleton_append, first, codePoints.eq_def]
      dsimp only
      rw [if_neg pair, if_pos lone, codePoints_cons high low]
      rfl
  | case3 v text =>
      have pair : ¬ (isHighSurrogate v && isLowSurrogate u) = true := by
        simp [low]
      have first : codePoints [v] = [v.toNat] := if_neg text
      rw [List.singleton_append, first, codePoints.eq_def]
      dsimp only
      rw [if_neg pair, if_neg text, codePoints_cons high low]
      rfl
  | case4 v w rest pair induction =>
      rw [List.cons_append, List.cons_append, codePoints, if_pos pair,
        induction, codePoints, if_pos pair]
      rfl
  | case5 v w rest pair lone induction =>
      rw [List.cons_append] at induction
      rw [List.cons_append, List.cons_append, codePoints, if_neg pair,
        if_pos lone, induction, codePoints, if_neg pair, if_pos lone]
      rfl
  | case6 v w rest pair text induction =>
      rw [List.cons_append] at induction
      rw [List.cons_append, List.cons_append, codePoints, if_neg pair,
        if_neg text, induction, codePoints, if_neg pair, if_neg text]
      rfl

theorem mem_of_codePoints {s : JSString} {u : UInt16}
    (small : u.toNat < 0x80) (member : u.toNat ∈ codePoints s) : u ∈ s := by
  have alone : ∀ v : UInt16, u.toNat = v.toNat → u = v := fun v same =>
    UInt16.toNat_inj.mp same
  induction s using codePoints.induct with
  | case1 => cases member
  | case2 v lone =>
      rw [codePoints, if_pos lone, List.mem_singleton] at member
      omega
  | case3 v text =>
      rw [codePoints, if_neg text, List.mem_singleton] at member
      rw [alone v member]
      exact List.mem_cons_self
  | case4 v w rest pair induction =>
      rw [codePoints, if_pos pair, List.mem_cons] at member
      rcases member with first | later
      · unfold surrogatePair at first
        omega
      · exact List.mem_cons_of_mem _ (List.mem_cons_of_mem _ (induction later))
  | case5 v w rest pair lone induction =>
      rw [codePoints, if_neg pair, if_pos lone, List.mem_cons] at member
      rcases member with first | later
      · omega
      · exact List.mem_cons_of_mem _ (induction later)
  | case6 v w rest pair text induction =>
      rw [codePoints, if_neg pair, if_neg text, List.mem_cons] at member
      rcases member with first | later
      · rw [alone v first]
        exact List.mem_cons_self
      · exact List.mem_cons_of_mem _ (induction later)

/-- An ASCII byte stands for its own character. -/
theorem mem_utf8Bytes {c : Nat} (bound : c < 0x110000) {b : UInt8}
    (small : b.toNat < 0x80) (member : b ∈ utf8Bytes c) : b.toNat = c := by
  have value : ∀ n < 0x100, b = UInt8.ofNat n → b.toNat = n := by
    intro n small same
    rw [same, UInt8.toNat_ofNat']
    omega
  unfold utf8Bytes at member
  split_ifs at member with one two three
  · rw [List.mem_singleton] at member
    exact value c (by omega) member
  all_goals
    simp only [List.mem_cons, List.not_mem_nil, or_false] at member
  · rcases member with same | same
    all_goals
      have := value _ (by omega) same
      omega
  · rcases member with same | same | same
    all_goals
      have := value _ (by omega) same
      omega
  · rcases member with same | same | same | same
    all_goals
      have := value _ (by omega) same
      omega

theorem mem_of_textEncode {s : JSString} {b : UInt8} (small : b.toNat < 0x80)
    (member : b ∈ textEncode s) : b.toUInt16 ∈ s := by
  obtain ⟨c, inside, byte⟩ := List.mem_flatMap.mp member
  have same := mem_utf8Bytes (codePoints_scalar s c inside).bound small byte
  have unit : b.toUInt16.toNat = c := by
    rw [UInt8.toNat_toUInt16, same]
  apply mem_of_codePoints
  · omega
  · rw [unit]
    exact inside

/-! ## Texts of code points -/

/-- The text of some code points. -/
def spell (points : List Nat) : JSString :=
  points.flatMap pointUnits

theorem surrogates_of_scalar {c : Nat} (scalar : IsScalar c)
    (large : ¬ c < 0x10000) :
    ∃ u v, pointUnits c = [u, v] ∧ isHighSurrogate u = true ∧
      isLowSurrogate v = true ∧ surrogatePair u v = c := by
  obtain ⟨bound, -⟩ := scalar
  refine ⟨_, _, if_neg large, ?_, ?_, ?_⟩
  · rw [toNat_of_isHighSurrogate, UInt16.toNat_ofNat']
    omega
  · rw [toNat_of_isLowSurrogate, UInt16.toNat_ofNat']
    omega
  · unfold surrogatePair
    rw [UInt16.toNat_ofNat', UInt16.toNat_ofNat']
    omega

theorem unit_of_scalar {c : Nat} (scalar : IsScalar c)
    (small : c < 0x10000) :
    ∃ u, pointUnits c = [u] ∧ isHighSurrogate u = false ∧
      isLowSurrogate u = false ∧ u.toNat = c := by
  obtain ⟨-, apart⟩ := scalar
  have value : (UInt16.ofNat c).toNat = c := by
    rw [UInt16.toNat_ofNat']
    omega
  refine ⟨_, if_pos small, ?_, ?_, value⟩
  · rw [Bool.eq_false_iff, ne_eq, toNat_of_isHighSurrogate, value]
    omega
  · rw [Bool.eq_false_iff, ne_eq, toNat_of_isLowSurrogate, value]
    omega

theorem codePoints_spell {points : List Nat}
    (scalars : ∀ c ∈ points, IsScalar c) :
    codePoints (spell points) = points := by
  induction points with
  | nil => rfl
  | cons c points induction =>
      obtain ⟨first, later⟩ := List.forall_mem_cons.mp scalars
      have rest := induction later
      unfold spell at rest ⊢
      rw [List.flatMap_cons]
      by_cases small : c < 0x10000
      · obtain ⟨u, units, high, low, value⟩ := unit_of_scalar first small
        rw [units, List.singleton_append, codePoints_cons high low, rest,
          value]
      · obtain ⟨u, v, units, high, low, value⟩ :=
          surrogates_of_scalar first small
        have pair : (isHighSurrogate u && isLowSurrogate v) = true := by
          rw [high, low]
          rfl
        rw [units]
        show codePoints (u :: v :: points.flatMap pointUnits) = _
        rw [codePoints, if_pos pair, rest, value]

theorem isWellFormed_spell {points : List Nat}
    (scalars : ∀ c ∈ points, IsScalar c) :
    isWellFormed (spell points) = true := by
  induction points with
  | nil => rfl
  | cons c points induction =>
      obtain ⟨first, later⟩ := List.forall_mem_cons.mp scalars
      have rest := induction later
      unfold spell at rest ⊢
      rw [List.flatMap_cons]
      apply isWellFormed_append _ rest
      by_cases small : c < 0x10000
      · obtain ⟨u, units, high, low, -⟩ := unit_of_scalar first small
        rw [units, isWellFormed, high, low]
        rfl
      · obtain ⟨u, v, units, high, low, -⟩ := surrogates_of_scalar first small
        rw [units, isWellFormed, high, low]
        rfl

/-- `s.toWellFormed()`. -/
def repair (s : JSString) : JSString :=
  spell (codePoints s)

theorem repair_of_isWellFormed {s : JSString}
    (formed : isWellFormed s = true) : repair s = s :=
  (codePoints_spec formed).2

theorem isWellFormed_repair (s : JSString) :
    isWellFormed (repair s) = true :=
  isWellFormed_spell (codePoints_scalar s)

theorem repair_eq_self_iff {s : JSString} :
    repair s = s ↔ isWellFormed s = true := by
  constructor
  · intro same
    rw [← same]
    exact isWellFormed_repair s
  · exact repair_of_isWellFormed

theorem codePoints_repair (s : JSString) :
    codePoints (repair s) = codePoints s :=
  codePoints_spell (codePoints_scalar s)

/-! ## Decoded texts -/

/-- Whatever bytes follow, the code point is no surrogate. -/
def Unfinished.Fits (u : Unfinished) : Prop :=
  0x80 ≤ u.lower ∧ u.upper ≤ 0xBF ∧
    (u.needed = 1 ∧ (∀ b, u.lower ≤ b → b ≤ u.upper →
        IsScalar (u.point * 0x40 + b % 0x40)) ∨
      u.needed = 2 ∧ (∀ b, u.lower ≤ b → b ≤ u.upper → ∀ low < 0x40,
        IsScalar ((u.point * 0x40 + b % 0x40) * 0x40 + low)) ∨
      u.needed = 3 ∧ ∀ b, u.lower ≤ b → b ≤ u.upper → ∀ mid < 0x40,
        ∀ low < 0x40,
          IsScalar (((u.point * 0x40 + b % 0x40) * 0x40 + mid) * 0x40 + low))

theorem fits_of_leadByte {b : Nat} {u : Unfinished}
    (lead : leadByte b = .starts u) : u.Fits := by
  unfold leadByte at lead
  by_cases one : b < 0x80
  · rw [if_pos one] at lead
    cases lead
  by_cases two : 0xC2 ≤ b ∧ b < 0xE0
  · rw [if_neg one, if_pos two] at lead
    obtain rfl := Lead.starts.inj lead
    refine ⟨le_rfl, le_rfl, .inl ⟨rfl, ?_⟩⟩
    intro b' lower upper
    dsimp only at lower upper
    constructor <;> dsimp only <;> omega
  by_cases three : 0xE0 ≤ b ∧ b < 0xF0
  · rw [if_neg one, if_neg two, if_pos three] at lead
    obtain rfl := Lead.starts.inj lead
    refine ⟨by dsimp only; split_ifs <;> omega,
      by dsimp only; split_ifs <;> omega, .inr (.inl ⟨rfl, ?_⟩)⟩
    intro b' lower upper low small
    dsimp only at lower upper
    constructor
    · dsimp only
      omega
    · dsimp only
      split_ifs at lower upper <;> omega
  by_cases four : 0xF0 ≤ b ∧ b < 0xF5
  · rw [if_neg one, if_neg two, if_neg three, if_pos four] at lead
    obtain rfl := Lead.starts.inj lead
    refine ⟨by dsimp only; split_ifs <;> omega,
      by dsimp only; split_ifs <;> omega, .inr (.inr ⟨rfl, ?_⟩)⟩
    intro b' lower upper mid small low small'
    dsimp only at lower upper
    constructor
    · dsimp only
      split_ifs at lower upper <;> omega
    · dsimp only
      split_ifs at lower upper <;> omega
  · rw [if_neg one, if_neg two, if_neg three, if_neg four] at lead
    cases lead

theorem whole_of_leadByte {b point : Nat}
    (lead : leadByte b = .whole point) : IsScalar point := by
  unfold leadByte at lead
  split_ifs at lead with one
  obtain rfl := Lead.whole.inj lead
  constructor <;> omega

/-- A code point that is not finished by a byte. -/
theorem Unfinished.Fits.more {u : Unfinished} (fits : u.Fits) {b : Nat}
    (lower : u.lower ≤ b) (upper : b ≤ u.upper) (more : u.needed ≠ 1) :
    Unfinished.Fits
      ⟨u.point * 0x40 + b % 0x40, u.needed - 1, 0x80, 0xBF⟩ := by
  obtain ⟨-, -, last | ⟨two, scalar⟩ | ⟨three, scalar⟩⟩ := fits
  · exact absurd last.1 more
  · refine ⟨le_rfl, le_rfl, .inl ⟨?_, ?_⟩⟩
    · rw [two]
    · intro b' _ _
      exact scalar b lower upper _ (Nat.mod_lt _ (by decide))
  · refine ⟨le_rfl, le_rfl, .inr (.inl ⟨?_, ?_⟩)⟩
    · rw [three]
    · intro b' _ _ low small
      exact scalar b lower upper _ (Nat.mod_lt _ (by decide)) low small

/-- A decoder returns no surrogates. -/
theorem decodePoints_scalar (bytes : List UInt8) (u : Option Unfinished)
    (fits : ∀ x ∈ u, x.Fits) : ∀ c ∈ decodePoints bytes u, IsScalar c := by
  have after : ∀ {bytes : List UInt8} {lead : Nat},
      (∀ u : Option Unfinished, (∀ x ∈ u, x.Fits) →
        ∀ c ∈ decodePoints bytes u, IsScalar c) →
      ∀ c ∈ afterLead (decodePoints bytes) (leadByte lead), IsScalar c := by
    intro bytes lead resume
    cases said : leadByte lead with
    | whole point =>
        exact List.forall_mem_cons.mpr ⟨whole_of_leadByte said,
          resume none (by simp)⟩
    | starts u =>
        apply resume (some u)
        intro x member
        obtain rfl := Option.some.inj member
        exact fits_of_leadByte said
    | invalid =>
        exact List.forall_mem_cons.mpr ⟨isScalar_replacement,
          resume none (by simp)⟩
  induction bytes generalizing u with
  | nil =>
      cases u with
      | none =>
          intro c member
          cases member
      | some u =>
          intro c member
          rw [List.mem_singleton.mp member]
          exact isScalar_replacement
  | cons b bytes induction =>
      cases u with
      | none => exact after induction
      | some u =>
          have unfinished := fits u rfl
          unfold decodePoints
          split
          · rename_i between
            dsimp only
            split
            · rename_i last
              refine List.forall_mem_cons.mpr ⟨?_, induction none (by simp)⟩
              obtain ⟨-, -, ⟨-, scalar⟩ | ⟨two, -⟩ | ⟨three, -⟩⟩ := unfinished
              · exact scalar _ between.1 between.2
              · omega
              · omega
            · rename_i more
              apply induction
              intro x member
              obtain rfl := Option.some.inj member
              exact unfinished.more between.1 between.2 more
          · exact List.forall_mem_cons.mpr
              ⟨isScalar_replacement, after induction⟩

/-- UTF-8 decode without BOM. -/
def utf8Decode (bytes : List UInt8) : JSString :=
  spell (decodePoints bytes none)

theorem isWellFormed_utf8Decode (bytes : List UInt8) :
    isWellFormed (utf8Decode bytes) = true :=
  isWellFormed_spell (decodePoints_scalar bytes none (by simp))

theorem utf8Decode_textEncode_append (s : JSString) (rest : List UInt8) :
    utf8Decode (textEncode s ++ rest) = repair s ++ utf8Decode rest := by
  unfold utf8Decode textEncode repair spell
  rw [decodePoints_flatMap_append (codePoints_scalar s), List.flatMap_append]

theorem utf8Decode_textEncode (s : JSString) :
    utf8Decode (textEncode s) = repair s := by
  unfold utf8Decode textEncode repair
  rw [decodePoints_flatMap (codePoints_scalar s)]

end Byteln.Library

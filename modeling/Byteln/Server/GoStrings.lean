import Mathlib.Data.List.Basic
import Mathlib.Data.List.Find

/-!
# Byte strings

Go strings are byte strings.  Splitting at a byte, and trimming the white space
of Unicode in its UTF-8 form, which is one to three bytes.
-/

namespace Byteln.Server

abbrev GoString := List UInt8

/-- A string literal of the source, which is ASCII. -/
def ascii (text : String) : GoString :=
  text.toList.map fun c => UInt8.ofNat c.toNat

/-- Split at the first `sep`. -/
def splitOnce (s : GoString) (sep : UInt8) : Option (GoString × GoString) :=
  match s.idxOf? sep with
  | none => none
  | some i => some (s.take i, s.drop (i + 1))

theorem splitOnce_append {before : GoString} {sep : UInt8} (after : GoString)
    (apart : sep ∉ before) :
    splitOnce (before ++ sep :: after) sep = some (before, after) := by
  have found : (before ++ sep :: after).idxOf? sep = some before.length := by
    induction before with
    | nil => simp [List.idxOf?_cons]
    | cons b before induction =>
        have other : (b == sep) = false := by
          rw [beq_eq_false_iff_ne]
          rintro rfl
          exact apart List.mem_cons_self
        have rest := induction fun member => apart (List.mem_cons_of_mem b member)
        rw [List.cons_append, List.idxOf?_cons, other, rest]
        rfl
  unfold splitOnce
  rw [found]
  simp

theorem splitOnce_inv {s before after : GoString} {sep : UInt8}
    (split : splitOnce s sep = some (before, after)) :
    s = before ++ sep :: after ∧ sep ∉ before := by
  induction s generalizing before with
  | nil => simp [splitOnce] at split
  | cons b s induction =>
      unfold splitOnce at split induction
      rw [List.idxOf?_cons] at split
      by_cases same : b = sep
      · subst same
        simp only [beq_self_eq_true, if_true, List.take_zero, Nat.zero_add,
          List.drop_one, List.tail_cons, Option.some.injEq,
          Prod.mk.injEq] at split
        obtain ⟨rfl, rfl⟩ := split
        simp
      · rw [if_neg (by simpa using same)] at split
        cases found : s.idxOf? sep with
        | none => simp [found] at split
        | some i =>
            simp only [found, Option.map_some, List.take_succ_cons,
              List.drop_succ_cons, Option.some.injEq, Prod.mk.injEq] at split
            obtain ⟨rfl, rfl⟩ := split
            obtain ⟨whole, apart⟩ := induction (by rw [found])
            refine ⟨by rw [List.cons_append, ← whole], ?_⟩
            intro member
            rcases List.mem_cons.mp member with rfl | member
            · exact same rfl
            · exact apart member

/-! ## Trimming -/

/-- The bytes of every character that is white space. -/
def spaceEncodings : List GoString :=
  [[0x09], [0x0A], [0x0B], [0x0C], [0x0D], [0x20], [0xC2, 0x85], [0xC2, 0xA0],
    [0xE1, 0x9A, 0x80], [0xE2, 0x80, 0x80], [0xE2, 0x80, 0x81],
    [0xE2, 0x80, 0x82], [0xE2, 0x80, 0x83], [0xE2, 0x80, 0x84],
    [0xE2, 0x80, 0x85], [0xE2, 0x80, 0x86], [0xE2, 0x80, 0x87],
    [0xE2, 0x80, 0x88], [0xE2, 0x80, 0x89], [0xE2, 0x80, 0x8A],
    [0xE2, 0x80, 0xA8], [0xE2, 0x80, 0xA9], [0xE2, 0x80, 0xAF],
    [0xE2, 0x81, 0x9F], [0xE3, 0x80, 0x80]]

/-- Remove prefixes of a list, at most so many. -/
def trimPrefixes (prefixes : List GoString) : Nat → GoString → GoString
  | 0, s => s
  | fuel + 1, s =>
      match prefixes.find? fun first => first.isPrefixOf s with
      | none => s
      | some first => trimPrefixes prefixes fuel (s.drop first.length)

def trimLeft (s : GoString) : GoString :=
  trimPrefixes spaceEncodings s.length s

def trimRight (s : GoString) : GoString :=
  (trimPrefixes (spaceEncodings.map List.reverse) s.length s.reverse).reverse

/-- `strings.TrimSpace`. -/
def trimSpace (s : GoString) : GoString :=
  trimRight (trimLeft s)

section TrimPrefixes

variable {prefixes : List GoString}

/-- Each round takes a byte away, so as many rounds as bytes are enough. -/
theorem trimPrefixes_fuel (nonempty : [] ∉ prefixes) {fuel fuel' : Nat} :
    ∀ {s : GoString}, s.length ≤ fuel → s.length ≤ fuel' →
      trimPrefixes prefixes fuel s = trimPrefixes prefixes fuel' s := by
  have empty : prefixes.find? (fun first => first.isPrefixOf []) = none := by
    rw [List.find?_eq_none]
    intro first member isPrefix
    cases first with
    | nil => exact nonempty member
    | cons => cases isPrefix
  have zero : ∀ fuel, trimPrefixes prefixes fuel [] = [] := by
    intro fuel
    cases fuel with
    | zero => rfl
    | succ fuel => rw [trimPrefixes, empty]
  induction fuel generalizing fuel' with
  | zero =>
      intro s enough _
      obtain rfl := List.eq_nil_of_length_eq_zero (Nat.le_zero.mp enough)
      rw [zero, zero]
  | succ fuel induction =>
      intro s enough enough'
      cases fuel' with
      | zero =>
          obtain rfl := List.eq_nil_of_length_eq_zero (Nat.le_zero.mp enough')
          rw [zero, zero]
      | succ fuel' =>
          rw [trimPrefixes, trimPrefixes]
          cases found : prefixes.find? (fun first => first.isPrefixOf s) with
          | none => rfl
          | some first =>
              have positive : 0 < first.length := by
                apply List.length_pos_of_ne_nil
                rintro rfl
                exact nonempty (List.mem_of_find?_eq_some found)
              apply induction <;> simp only [List.length_drop] <;> omega

/-- Nothing is left to remove. -/
theorem trimPrefixes_stops (nonempty : [] ∉ prefixes) {fuel : Nat} :
    ∀ {s : GoString}, s.length ≤ fuel →
      prefixes.find? (fun first =>
        first.isPrefixOf (trimPrefixes prefixes fuel s)) = none := by
  induction fuel with
  | zero =>
      intro s enough
      obtain rfl := List.eq_nil_of_length_eq_zero (Nat.le_zero.mp enough)
      rw [List.find?_eq_none]
      intro first member isPrefix
      cases first with
      | nil => exact nonempty member
      | cons => cases isPrefix
  | succ fuel induction =>
      intro s enough
      rw [trimPrefixes]
      cases found : prefixes.find? (fun first => first.isPrefixOf s) with
      | none => exact found
      | some first =>
          have positive : 0 < first.length := by
            apply List.length_pos_of_ne_nil
            rintro rfl
            exact nonempty (List.mem_of_find?_eq_some found)
          apply induction
          simp only [List.length_drop]
          omega

/-- A string that starts with none of the prefixes is left alone. -/
theorem trimPrefixes_of_find? {fuel : Nat} {s : GoString}
    (none : prefixes.find? (fun first => first.isPrefixOf s) = none) :
    trimPrefixes prefixes fuel s = s := by
  cases fuel with
  | zero => rfl
  | succ fuel => rw [trimPrefixes, none]

/-- What follows a byte that is in none of the prefixes is not looked at. -/
theorem trimPrefixes_append {stop : UInt8}
    (apart : ∀ first ∈ prefixes, stop ∉ first) (fuel : Nat)
    (before after : GoString) :
    trimPrefixes prefixes fuel (before ++ stop :: after) =
      trimPrefixes prefixes fuel before ++ stop :: after := by
  have same : ∀ first before : GoString, stop ∉ first →
      first.isPrefixOf (before ++ stop :: after) =
        first.isPrefixOf before := by
    intro first
    induction first with
    | nil =>
        intro before _
        simp
    | cons b first induction =>
        intro before outside
        rw [List.mem_cons, not_or] at outside
        obtain ⟨other, outside⟩ := outside
        cases before with
        | nil =>
            have other : (b == stop) = false := by
              rw [beq_eq_false_iff_ne]
              exact Ne.symm other
            simp [List.isPrefixOf, other]
        | cons b' before =>
            simp only [List.cons_append, List.isPrefixOf]
            rw [induction before outside]
  induction fuel generalizing before with
  | zero => rfl
  | succ fuel induction =>
      have found : prefixes.find?
          (fun first => first.isPrefixOf (before ++ stop :: after)) =
            prefixes.find? fun first => first.isPrefixOf before := by
        apply List.find?_congr
        intro first member
        exact same first before (apart first member)
      rw [trimPrefixes, trimPrefixes, found]
      cases taken : prefixes.find? fun first => first.isPrefixOf before with
      | none => rfl
      | some first =>
          have isPrefix := List.find?_some taken
          have within := (List.isPrefixOf_iff_prefix.mp isPrefix).length_le
          dsimp only
          rw [List.drop_append_of_le_length within]
          exact induction _

end TrimPrefixes

theorem nil_notMem_spaceEncodings : [] ∉ spaceEncodings := by
  decide

theorem trimLeft_trimLeft (s : GoString) :
    trimLeft (trimLeft s) = trimLeft s :=
  trimPrefixes_of_find?
    (trimPrefixes_stops nil_notMem_spaceEncodings (Nat.le_refl _))

theorem trimLeft_append {stop : UInt8}
    (apart : ∀ encoding ∈ spaceEncodings, stop ∉ encoding)
    (before after : GoString) :
    trimLeft (before ++ stop :: after) = trimLeft before ++ stop :: after := by
  unfold trimLeft
  rw [trimPrefixes_append apart, trimPrefixes_fuel nil_notMem_spaceEncodings
    (by simp only [List.length_append]; omega) (Nat.le_refl _)]

/-- A first byte that is a space of its own is dropped. -/
theorem trimLeft_cons_space (s : GoString) :
    trimLeft (0x20 :: s) = trimLeft s := by
  have found : spaceEncodings.find?
      (fun first => first.isPrefixOf ((0x20 : UInt8) :: s)) = some [0x20] := by
    simp [spaceEncodings, List.isPrefixOf]
  unfold trimLeft
  rw [List.length_cons, trimPrefixes, found]
  rfl

theorem trimPrefixes_isSuffix (prefixes : List GoString) (fuel : Nat)
    (s : GoString) : trimPrefixes prefixes fuel s <:+ s := by
  induction fuel generalizing s with
  | zero => exact List.suffix_rfl
  | succ fuel induction =>
      rw [trimPrefixes]
      split
      · exact List.suffix_rfl
      · exact (induction _).trans (List.drop_suffix _ s)

/-- A trimmed string starts and ends with no white space. -/
theorem trimSpace_trimSpace (s : GoString) :
    trimSpace (trimSpace s) = trimSpace s := by
  have left : trimLeft (trimSpace s) = trimSpace s := by
    have begins : trimSpace s <+: trimLeft s := by
      have ends := trimPrefixes_isSuffix (spaceEncodings.map List.reverse)
        (trimLeft s).length (trimLeft s).reverse
      rw [← List.reverse_prefix, List.reverse_reverse] at ends
      exact ends
    have none_ := trimPrefixes_stops nil_notMem_spaceEncodings
      (Nat.le_refl s.length)
    apply trimPrefixes_of_find?
    rw [List.find?_eq_none] at none_ ⊢
    intro first member isPrefix
    apply none_ first member
    rw [List.isPrefixOf_iff_prefix] at isPrefix ⊢
    exact isPrefix.trans begins
  have reversed : ([] : GoString) ∉ spaceEncodings.map List.reverse := by
    decide
  have right : trimRight (trimSpace s) = trimSpace s := by
    have length : (trimLeft s).reverse.length ≤ (trimLeft s).length :=
      Nat.le_of_eq List.length_reverse
    have stops := trimPrefixes_stops reversed length
    unfold trimSpace trimRight
    rw [List.reverse_reverse, trimPrefixes_of_find? stops]
  unfold trimSpace at left right ⊢
  rw [left, right]

end Byteln.Server

import Byteln.Library.InsertionMap
import Byteln.Library.Utf8

/-!
# JSON

What `JSON.stringify` writes and `JSON.parse` reads.  A text is cut into
tokens, and the tokens are read by a machine that keeps the arrays and objects
still open on a stack; both go once through their input.  The numbers are a
parameter, with their texts.
-/

namespace Byteln.Library

/-! ## Values -/

inductive Json (ν : Type) where
  | null
  | bool (b : Bool)
  | number (n : ν)
  | string (s : JSString)
  | array (items : List (Json ν))
  /-- The members in the order of the keys of the object. -/
  | object (members : List (JSString × Json ν))

/-! ## Numerals -/

def isDigitUnit (u : UInt16) : Bool :=
  0x30 ≤ u && u ≤ 0x39

/-- The exponent of a numeral, if any. -/
def isExponent : JSString → Bool
  | [] => true
  | e :: rest =>
      let digits :=
        if rest.head? = some 0x2b ∨ rest.head? = some 0x2d then rest.tail
        else rest
      (e = 0x65 || e = 0x45) && digits ≠ [] && digits.all isDigitUnit

/-- The fraction of a numeral, if any, and what follows. -/
def isFraction : JSString → Bool
  | 0x2e :: rest =>
      rest.head?.any isDigitUnit && isExponent (rest.dropWhile isDigitUnit)
  | rest => isExponent rest

/-- A numeral without its sign. -/
def isUnsigned : JSString → Bool
  | 0x30 :: rest => isFraction rest
  | u :: rest => isDigitUnit u && isFraction (rest.dropWhile isDigitUnit)
  | [] => false

def isNumeral : JSString → Bool
  | 0x2d :: rest => isUnsigned rest
  | rest => isUnsigned rest

/-- The numbers of JavaScript: how they are written and read, and which of
them are integers.  Zero and negative zero are one number. -/
class Numeric (ν : Type) where
  /-- `String(n)`. -/
  text : ν → JSString
  /-- The number that a numeral names. -/
  ofText : JSString → ν
  isFinite : ν → Bool
  /-- The value of an integer. -/
  toInt? : ν → Option Int
  /-- The number closest to an integer. -/
  ofInt : Int → ν
  isNumeral_text : ∀ n, isFinite n = true → isNumeral (text n) = true
  ofText_text : ∀ n, isFinite n = true → ofText (text n) = n
  ofInt_of_toInt? : ∀ n k, toInt? n = some k → ofInt k = n
  isFinite_of_toInt? : ∀ n k, toInt? n = some k → isFinite n = true
  /-- Integers up to `Number.MAX_SAFE_INTEGER` are numbers. -/
  toInt?_ofInt : ∀ k : Int, k.natAbs < 2 ^ 53 → toInt? (ofInt k) = some k

variable {ν : Type} [Numeric ν]

/-! ## Writing -/

/-- `\u` and four digits. -/
def unicodeEscape (u : UInt16) : JSString :=
  let n := u.toNat
  [0x5c, 0x75, hexUnit (n / 0x1000), hexUnit (n / 0x100 % 0x10),
    hexUnit (n / 0x10 % 0x10), hexUnit (n % 0x10)]

/-- A code unit inside of a string literal, unless it is a surrogate. -/
def quoteUnit (u : UInt16) : JSString :=
  if u = 0x08 then [0x5c, 0x62]
  else if u = 0x09 then [0x5c, 0x74]
  else if u = 0x0a then [0x5c, 0x6e]
  else if u = 0x0c then [0x5c, 0x66]
  else if u = 0x0d then [0x5c, 0x72]
  else if u = 0x22 then [0x5c, 0x22]
  else if u = 0x5c then [0x5c, 0x5c]
  else if u < 0x20 then unicodeEscape u
  else [u]

/-- A code unit that is not part of a surrogate pair. -/
def quoteSingle (u : UInt16) : JSString :=
  if isHighSurrogate u || isLowSurrogate u then unicodeEscape u
  else quoteUnit u

/-- The inside of a string literal. -/
def quote : JSString → JSString
  | [] => []
  | [u] => quoteSingle u
  | u :: v :: rest =>
      if isHighSurrogate u && isLowSurrogate v then u :: v :: quote rest
      else quoteSingle u ++ quote (v :: rest)

def literal (s : JSString) : JSString :=
  0x22 :: (quote s ++ [0x22])

def numberText (n : ν) : JSString :=
  if Numeric.isFinite n then Numeric.text n else js "null"

mutual

/-- `JSON.stringify`. -/
def Json.stringify : Json ν → JSString
  | .null => js "null"
  | .bool true => js "true"
  | .bool false => js "false"
  | .number n => numberText n
  | .string s => literal s
  | .array [] => [0x5b, 0x5d]
  | .array (v :: items) => 0x5b :: (v.stringify ++ stringifyItems items)
  | .object [] => [0x7b, 0x7d]
  | .object (m :: members) =>
      0x7b :: (stringifyMember m ++ stringifyMembers members)

/-- The other items of an array, up to its end. -/
def Json.stringifyItems : List (Json ν) → JSString
  | [] => [0x5d]
  | v :: items => 0x2c :: (v.stringify ++ stringifyItems items)

def Json.stringifyMember : JSString × Json ν → JSString
  | (key, v) => literal key ++ 0x3a :: v.stringify

def Json.stringifyMembers : List (JSString × Json ν) → JSString
  | [] => [0x7d]
  | m :: members => 0x2c :: (stringifyMember m ++ stringifyMembers members)

end

/-! ## Tokens -/

inductive Token (ν : Type) where
  | openArray
  | closeArray
  | openObject
  | closeObject
  | colon
  | comma
  | text (s : JSString)
  /-- A number, a truth value or `null`. -/
  | scalar (v : Json ν)

def punctuation (u : UInt16) : Option (Token ν) :=
  if u = 0x5b then some .openArray
  else if u = 0x5d then some .closeArray
  else if u = 0x7b then some .openObject
  else if u = 0x7d then some .closeObject
  else if u = 0x3a then some .colon
  else if u = 0x2c then some .comma
  else none

def isSpace (u : UInt16) : Bool :=
  u = 0x20 || u = 0x09 || u = 0x0a || u = 0x0d

/-- The units of numerals and of the words of the language. -/
def isWordUnit (u : UInt16) : Bool :=
  isDigitUnit u || (0x61 ≤ u && u ≤ 0x7a) || u = 0x45 || u = 0x2b ||
    u = 0x2d || u = 0x2e

def word (w : JSString) : Option (Token ν) :=
  if w = js "null" then some (.scalar .null)
  else if w = js "true" then some (.scalar (.bool true))
  else if w = js "false" then some (.scalar (.bool false))
  else if isNumeral w then some (.scalar (.number (Numeric.ofText w)))
  else none

def hexValue (u : UInt16) : Option Nat :=
  if isDigitUnit u then some (u.toNat - 0x30)
  else if 0x61 ≤ u && u ≤ 0x66 then some (u.toNat - 0x57)
  else if 0x41 ≤ u && u ≤ 0x46 then some (u.toNat - 0x37)
  else none

/-- The unit that stands after a backslash, unless it is `u`. -/
def unescape (u : UInt16) : Option UInt16 :=
  if u = 0x22 ∨ u = 0x5c ∨ u = 0x2f then some u
  else if u = 0x62 then some 0x08
  else if u = 0x66 then some 0x0c
  else if u = 0x6e then some 0x0a
  else if u = 0x72 then some 0x0d
  else if u = 0x74 then some 0x09
  else none

/-- Where the reader stands; a word or string read in part is kept. -/
inductive LexMode where
  | between
  | word (w : JSString)
  | text (s : JSString)
  | escape (s : JSString)
  | hex (s : JSString) (value digits : Nat)

/-- A unit outside of words and strings. -/
def lexBetween (resume : LexMode → Option (List (Token ν))) (u : UInt16) :
    Option (List (Token ν)) :=
  if isSpace u then resume .between
  else if u = 0x22 then resume (.text [])
  else if isWordUnit u then resume (.word [u])
  else do
    let token ← punctuation u
    let tokens ← resume .between
    pure (token :: tokens)

/-- Cut a text into tokens. -/
def lex : JSString → LexMode → Option (List (Token ν))
  | [], .between => some []
  | [], .word w => (word w).map fun token => [token]
  | [], _ => none
  | u :: rest, .between => lexBetween (lex rest) u
  | u :: rest, .word w =>
      if isWordUnit u then lex rest (.word (w ++ [u]))
      else do
        let token ← word w
        let tokens ← lexBetween (lex rest) u
        pure (token :: tokens)
  | u :: rest, .text s =>
      if u = 0x22 then do
        let tokens ← lex rest .between
        pure (.text s :: tokens)
      else if u = 0x5c then lex rest (.escape s)
      else if u < 0x20 then none
      else lex rest (.text (s ++ [u]))
  | u :: rest, .escape s =>
      if u = 0x75 then lex rest (.hex s 0 0)
      else do
        let unit ← unescape u
        lex rest (.text (s ++ [unit]))
  | u :: rest, .hex s value digits => do
      let digit ← hexValue u
      let value := value * 0x10 + digit
      if digits = 3 then lex rest (.text (s ++ [UInt16.ofNat value]))
      else lex rest (.hex s value (digits + 1))

/-! ## Reading -/

/-- An array or object that is still open: its parts so far, and the key whose
value is being read. -/
inductive Frame (ν : Type) where
  | array (items : List (Json ν))
  | object (members : List (JSString × Json ν)) (key : JSString)

/-- What may come next. -/
inductive ReadState (ν : Type) where
  | value (frames : List (Frame ν))
  /-- After `[`. -/
  | firstItem (frames : List (Frame ν))
  | afterItem (items : List (Json ν)) (frames : List (Frame ν))
  /-- After an opening brace. -/
  | firstMember (frames : List (Frame ν))
  | nextKey (members : List (JSString × Json ν))
      (frames : List (Frame ν))
  | colon (members : List (JSString × Json ν)) (key : JSString)
      (frames : List (Frame ν))
  | afterMember (members : List (JSString × Json ν))
      (frames : List (Frame ν))
  | done (v : Json ν)

/-- A value has been read.  Of two members with one key the later counts. -/
def ReadState.complete (v : Json ν) : List (Frame ν) → ReadState ν
  | [] => .done v
  | .array items :: frames => .afterItem (items ++ [v]) frames
  | .object members key :: frames =>
      .afterMember (InsertionMap.setEntries members key v) frames

/-- The first token of a value. -/
def ReadState.start (frames : List (Frame ν)) :
    Token ν → Option (ReadState ν)
  | .scalar v => some (.complete v frames)
  | .text s => some (.complete (.string s) frames)
  | .openArray => some (.firstItem frames)
  | .openObject => some (.firstMember frames)
  | _ => none

def ReadState.next : ReadState ν → Token ν → Option (ReadState ν)
  | .value frames, token => start frames token
  | .firstItem frames, .closeArray => some (complete (.array []) frames)
  | .firstItem frames, token => start (.array [] :: frames) token
  | .afterItem items frames, .comma => some (.value (.array items :: frames))
  | .afterItem items frames, .closeArray =>
      some (complete (.array items) frames)
  | .firstMember frames, .closeObject => some (complete (.object []) frames)
  | .firstMember frames, .text key => some (.colon [] key frames)
  | .nextKey members frames, .text key => some (.colon members key frames)
  | .colon members key frames, .colon =>
      some (.value (.object members key :: frames))
  | .afterMember members frames, .comma => some (.nextKey members frames)
  | .afterMember members frames, .closeObject =>
      some (complete (.object members) frames)
  | _, _ => none

def ReadState.result : ReadState ν → Option (Json ν)
  | .done v => some v
  | _ => none

/-- `JSON.parse`; `none` when it throws. -/
def Json.parse (s : JSString) : Option (Json ν) := do
  let tokens ← lex s .between
  let state ← tokens.foldlM ReadState.next (.value [])
  state.result

/-- The value of a property; `none` when there is none. -/
def Json.get? (v : Json ν) (key : JSString) : Option (Json ν) :=
  match v with
  | .object members =>
      (members.find? fun member => member.1 = key).map Prod.snd
  | _ => none

/-- An object literal; a property without a value is left out. -/
def Json.record (fields : List (JSString × Option (Json ν))) : Json ν :=
  .object (fields.filterMap fun field => field.2.map fun v => (field.1, v))

/-! ### What a value is -/

def Json.isObject : Json ν → Bool
  | .array _ | .object _ => true
  | _ => false

def Json.string? : Json ν → Option JSString
  | .string s => some s
  | _ => none

def Json.number? : Json ν → Option ν
  | .number n => some n
  | _ => none

/-- An integer. -/
def Json.integer? (v : Json ν) : Option Int :=
  v.number?.bind Numeric.toInt?

def Json.array? : Json ν → Option (List (Json ν))
  | .array items => some items
  | _ => none

def Json.isTrue : Json ν → Bool
  | .bool b => b
  | _ => false

/-- A number that is an integer. -/
def Json.integer (k : Int) : Json ν :=
  .number (Numeric.ofInt k)

omit [Numeric ν] in
theorem Json.get?_record {fields : List (JSString × Option (Json ν))}
    (nodup : (fields.map Prod.fst).Nodup) {key : JSString}
    {value : Option (Json ν)} (member : (key, value) ∈ fields) :
    (record fields).get? key = value := by
  induction fields with
  | nil => cases member
  | cons field fields induction =>
      obtain ⟨name, value'⟩ := field
      rw [List.map_cons, List.nodup_cons] at nodup
      have skip : key ≠ name → (record ((name, value') :: fields)).get? key =
          (record fields).get? key := by
        intro different
        cases value' with
        | none => rfl
        | some v => simp [record, get?, Ne.symm different]
      rcases List.mem_cons.mp member with same | later
      · cases same
        cases value with
        | some v => simp [record, get?]
        | none =>
            simp only [record, get?, List.filterMap_cons, Option.map_none,
              Option.map_eq_none_iff, List.find?_eq_none]
            intro m found same
            obtain ⟨field, inFields, mapped⟩ := List.mem_filterMap.mp found
            obtain ⟨v, -, rfl⟩ := Option.map_eq_some_iff.mp mapped
            have name := of_decide_eq_true same
            exact nodup.1 (List.mem_map.mpr ⟨field, inFields, name⟩)
      · have different : key ≠ name := by
          intro same
          rw [← same] at nodup
          exact nodup.1 (List.mem_map.mpr ⟨_, later, rfl⟩)
        rw [skip different]
        exact induction nodup.2 later

/-! ## Strings are read as they were written -/

theorem hexValue_hexUnit {n : Nat} (small : n < 0x10) :
    hexValue (hexUnit n) = some n := by
  have table : ∀ n < 0x10, hexValue (hexUnit n) = some n := by decide
  exact table n small

theorem lex_hex (s : JSString) {value digits n : Nat} (small : n < 0x10)
    (rest : JSString) :
    lex (ν := ν) (hexUnit n :: rest) (.hex s value digits) =
      if digits = 3 then
        lex rest (.text (s ++ [UInt16.ofNat (value * 0x10 + n)]))
      else lex rest (.hex s (value * 0x10 + n) (digits + 1)) := by
  rw [lex, hexValue_hexUnit small]
  rfl

theorem lex_unicodeEscape (s : JSString) (u : UInt16) (rest : JSString) :
    lex (ν := ν) (unicodeEscape u ++ rest) (.text s) =
      lex rest (.text (s ++ [u])) := by
  have bound := u.toNat_lt
  have escape : lex (ν := ν) (unicodeEscape u ++ rest) (.text s) =
      lex (hexUnit (u.toNat / 0x1000) :: hexUnit (u.toNat / 0x100 % 0x10) ::
        hexUnit (u.toNat / 0x10 % 0x10) :: hexUnit (u.toNat % 0x10) :: rest)
        (.hex s 0 0) := rfl
  have value : (((0 * 0x10 + u.toNat / 0x1000) * 0x10 +
      u.toNat / 0x100 % 0x10) * 0x10 + u.toNat / 0x10 % 0x10) * 0x10 +
      u.toNat % 0x10 = u.toNat := by
    omega
  rw [escape, lex_hex s (by omega), if_neg (by decide), lex_hex s (by omega),
    if_neg (by decide), lex_hex s (by omega), if_neg (by decide),
    lex_hex s (by omega), if_pos rfl, value, UInt16.ofNat_toNat]

/-- A unit that stands for itself. -/
theorem lex_plain (s : JSString) {u : UInt16} (quotation : u ≠ 0x22)
    (backslash : u ≠ 0x5c) (printable : ¬ u < 0x20) (rest : JSString) :
    lex (ν := ν) (u :: rest) (.text s) = lex rest (.text (s ++ [u])) := by
  rw [lex, if_neg quotation, if_neg backslash, if_neg printable]

theorem lex_quoteUnit (s : JSString) (u : UInt16) (rest : JSString) :
    lex (ν := ν) (quoteUnit u ++ rest) (.text s) =
      lex rest (.text (s ++ [u])) := by
  unfold quoteUnit
  split_ifs with backspace tab newline form enter quotation backslash control
  · subst backspace
    rfl
  · subst tab
    rfl
  · subst newline
    rfl
  · subst form
    rfl
  · subst enter
    rfl
  · subst quotation
    rfl
  · subst backslash
    rfl
  · exact lex_unicodeEscape s u rest
  · exact lex_plain s quotation backslash control rest

theorem lex_quoteSingle (s : JSString) (u : UInt16) (rest : JSString) :
    lex (ν := ν) (quoteSingle u ++ rest) (.text s) =
      lex rest (.text (s ++ [u])) := by
  unfold quoteSingle
  split
  · exact lex_unicodeEscape s u rest
  · exact lex_quoteUnit s u rest

/-- A surrogate needs no escape in itself. -/
theorem lex_surrogate (s : JSString) {u : UInt16} (large : 0xD800 ≤ u.toNat)
    (rest : JSString) :
    lex (ν := ν) (u :: rest) (.text s) = lex rest (.text (s ++ [u])) := by
  apply lex_plain
  · intro same
    subst same
    simp at large
  · intro same
    subst same
    simp at large
  · intro small
    have below := UInt16.lt_iff_toNat_lt.mp small
    simp at below
    omega

theorem lex_quote (s t : JSString) (rest : JSString) :
    lex (ν := ν) (quote t ++ rest) (.text s) = lex rest (.text (s ++ t)) := by
  induction t using quote.induct generalizing s with
  | case1 => simp [quote]
  | case2 u => exact lex_quoteSingle s u rest
  | case3 u v t pair induction =>
      have high := toNat_of_isHighSurrogate.mp (Bool.and_eq_true_iff.mp pair).1
      have low := toNat_of_isLowSurrogate.mp (Bool.and_eq_true_iff.mp pair).2
      rw [quote, if_pos pair, List.cons_append, List.cons_append,
        lex_surrogate s (by omega), lex_surrogate _ (by omega), induction]
      simp
  | case4 u v t pair induction =>
      rw [quote, if_neg pair, List.append_assoc, lex_quoteSingle, induction]
      simp

theorem lex_literal (t rest : JSString) :
    lex (ν := ν) (literal t ++ rest) .between =
      (lex rest .between).map (.text t :: ·) := by
  have opened : lex (ν := ν) (literal t ++ rest) .between =
      lex (quote t ++ 0x22 :: rest) (.text []) := by
    simp [literal, lex, lexBetween, isSpace]
  rw [opened, lex_quote, lex, if_pos rfl]
  cases lex (ν := ν) rest .between <;> rfl

/-! ## Words are read as they were written -/

theorem isWordUnit_of_digit {u : UInt16} (digit : isDigitUnit u = true) :
    isWordUnit u = true := by
  simp [isWordUnit, digit]

theorem forall_of_dropWhile {p q : UInt16 → Bool} {s : JSString}
    (taken : ∀ u, p u = true → q u = true)
    (rest : ∀ u ∈ s.dropWhile p, q u = true) : ∀ u ∈ s, q u = true := by
  intro u member
  rw [← List.takeWhile_append_dropWhile (p := p) (l := s)] at member
  rcases List.mem_append.mp member with digit | other
  · exact taken u (List.mem_takeWhile_imp digit)
  · exact rest u other

theorem wordUnits_of_isExponent {s : JSString}
    (exponent : isExponent s = true) : ∀ u ∈ s, isWordUnit u = true := by
  cases s with
  | nil =>
      intro u member
      cases member
  | cons e rest =>
      simp only [isExponent, Bool.and_eq_true, Bool.or_eq_true,
        decide_eq_true_eq, List.all_eq_true] at exponent
      obtain ⟨⟨letter, -⟩, digits⟩ := exponent
      intro u member
      rcases List.mem_cons.mp member with rfl | later
      · rcases letter with rfl | rfl <;> decide
      · split at digits
        · rename_i sign
          cases rest with
          | nil => cases later
          | cons first rest =>
              rcases List.mem_cons.mp later with rfl | last
              · simp only [List.head?_cons, Option.some.injEq] at sign
                rcases sign with rfl | rfl <;> decide
              · exact isWordUnit_of_digit (digits u last)
        · exact isWordUnit_of_digit (digits u later)

theorem wordUnits_of_isFraction {s : JSString}
    (fraction : isFraction s = true) : ∀ u ∈ s, isWordUnit u = true := by
  unfold isFraction at fraction
  split at fraction
  · rename_i rest
    have exponent := (Bool.and_eq_true_iff.mp fraction).2
    intro u member
    rcases List.mem_cons.mp member with rfl | later
    · decide
    · exact forall_of_dropWhile (fun _ => isWordUnit_of_digit)
        (wordUnits_of_isExponent exponent) u later
  · exact wordUnits_of_isExponent fraction

theorem wordUnits_of_isUnsigned {s : JSString}
    (unsigned : isUnsigned s = true) : ∀ u ∈ s, isWordUnit u = true := by
  unfold isUnsigned at unsigned
  intro u member
  split at unsigned
  · rcases List.mem_cons.mp member with rfl | later
    · decide
    · exact wordUnits_of_isFraction unsigned u later
  · obtain ⟨digit, fraction⟩ := Bool.and_eq_true_iff.mp unsigned
    rcases List.mem_cons.mp member with rfl | later
    · exact isWordUnit_of_digit digit
    · exact forall_of_dropWhile (fun _ => isWordUnit_of_digit)
        (wordUnits_of_isFraction fraction) u later
  · cases member

theorem wordUnits_of_isNumeral {s : JSString} (numeral : isNumeral s = true) :
    ∀ u ∈ s, isWordUnit u = true := by
  unfold isNumeral at numeral
  intro u member
  split at numeral
  · rcases List.mem_cons.mp member with rfl | later
    · decide
    · exact wordUnits_of_isUnsigned numeral u later
  · exact wordUnits_of_isUnsigned numeral u member

theorem word_of_isNumeral {s : JSString} (numeral : isNumeral s = true) :
    word (ν := ν) s = some (.scalar (.number (Numeric.ofText s))) := by
  have apart : ∀ t, isNumeral t = false → s ≠ t := by
    intro t other same
    rw [same, other] at numeral
    cases numeral
  rw [word, if_neg (apart _ (by decide)), if_neg (apart _ (by decide)),
    if_neg (apart _ (by decide)), if_pos numeral]

/-- What follows a word is not part of it. -/
def EndsWord (rest : JSString) : Prop :=
  ∀ u ∈ rest.head?, isWordUnit u = false

theorem lex_word_append {acc w rest : JSString} {token : Token ν}
    (units : ∀ u ∈ w, isWordUnit u = true) (ends : EndsWord rest)
    (named : word (acc ++ w) = some token) :
    lex (w ++ rest) (.word acc) = (lex rest .between).map (token :: ·) := by
  induction w generalizing acc with
  | nil =>
      rw [List.append_nil] at named
      cases rest with
      | nil =>
          have read : lex (ν := ν) [] (.word acc) =
              (word acc).map fun token => [token] := rfl
          rw [List.nil_append, read, named]
          rfl
      | cons u rest =>
          have other : ¬ isWordUnit u = true := by
            rw [ends u rfl]
            exact Bool.false_ne_true
          have read : lex (ν := ν) (u :: rest) (.word acc) = _ := if_neg other
          have next : lex (ν := ν) (u :: rest) .between =
              lexBetween (lex rest) u := rfl
          rw [List.nil_append, read, named, next]
          cases lexBetween (ν := ν) (lex rest) u <;> rfl
  | cons u w induction =>
      have rest_ := fun u member => units u (List.mem_cons_of_mem _ member)
      rw [List.cons_append, lex, if_pos (units u List.mem_cons_self)]
      apply induction rest_
      rw [List.append_assoc]
      exact named

theorem apart_of_isWordUnit {u : UInt16} (unit : isWordUnit u = true) :
    isSpace u = false ∧ u ≠ 0x22 := by
  constructor
  · rw [Bool.eq_false_iff]
    intro space
    simp only [isSpace, Bool.or_eq_true, decide_eq_true_eq] at space
    rcases space with ((rfl | rfl) | rfl) | rfl <;> cases unit
  · intro same
    subst same
    cases unit

theorem lex_word {w rest : JSString} {token : Token ν} (some_ : w ≠ [])
    (units : ∀ u ∈ w, isWordUnit u = true) (ends : EndsWord rest)
    (named : word w = some token) :
    lex (w ++ rest) .between = (lex rest .between).map (token :: ·) := by
  obtain ⟨u, w, rfl⟩ := List.exists_cons_of_ne_nil some_
  have first := units u List.mem_cons_self
  obtain ⟨space, quotation⟩ := apart_of_isWordUnit first
  rw [List.cons_append, lex, lexBetween, space, if_neg Bool.false_ne_true,
    if_neg quotation, if_pos first]
  exact lex_word_append
    (fun u member => units u (List.mem_cons_of_mem _ member)) ends named

/-! ## Values are read as they were written -/

/-- The text is cut into these tokens, whatever ends it. -/
def Spells (text : JSString) (tokens : List (Token ν)) : Prop :=
  ∀ rest, EndsWord rest →
    lex (text ++ rest) .between = (lex rest .between).map (tokens ++ ·)

theorem Spells.word {w : JSString} {token : Token ν} (some_ : w ≠ [])
    (units : ∀ u ∈ w, isWordUnit u = true)
    (named : Library.word w = some token) : Spells w [token] := by
  intro rest ends
  exact lex_word some_ units ends named

theorem Spells.literal (s : JSString) :
    Spells (ν := ν) (literal s) [.text s] := by
  intro rest _
  exact lex_literal s rest

/-- Punctuation may stand anywhere. -/
theorem Spells.cons {u : UInt16} {token : Token ν} {text : JSString}
    {tokens : List (Token ν)} (spells : Spells text tokens)
    (other : isSpace u = false ∧ u ≠ 0x22 ∧ isWordUnit u = false)
    (mark : punctuation u = some token) :
    Spells (u :: text) (token :: tokens) := by
  intro rest ends
  obtain ⟨space, quotation, unit⟩ := other
  rw [List.cons_append, lex, lexBetween, space, if_neg Bool.false_ne_true,
    if_neg quotation, unit, if_neg Bool.false_ne_true, mark,
    spells rest ends]
  cases lex (ν := ν) rest .between <;> rfl

theorem Spells.append {text text' : JSString} {tokens tokens' : List (Token ν)}
    (spells : Spells text tokens) (spells' : Spells text' tokens')
    (ends : EndsWord text') (some_ : text' ≠ []) :
    Spells (text ++ text') (tokens ++ tokens') := by
  intro rest ends'
  have apart : EndsWord (text' ++ rest) := by
    obtain ⟨u, text', rfl⟩ := List.exists_cons_of_ne_nil some_
    exact ends
  rw [List.append_assoc, spells _ apart, spells' rest ends']
  cases lex (ν := ν) rest .between with
  | none => rfl
  | some tail => simp

theorem Spells.mark {u : UInt16} {token : Token ν}
    (other : isSpace u = false ∧ u ≠ 0x22 ∧ isWordUnit u = false)
    (mark : punctuation u = some token) : Spells [u] [token] := by
  have none_ : Spells (ν := ν) [] [] := by
    intro rest _
    cases same : lex (ν := ν) rest .between <;> simp [same]
  exact none_.cons other mark

/-- A value that JSON can express: its numbers are finite, and no two members
of an object have one key. -/
inductive Json.Regular : Json ν → Prop where
  | null : Regular .null
  | bool (b : Bool) : Regular (.bool b)
  | number {n : ν} : Numeric.isFinite n = true → Regular (.number n)
  | string (s : JSString) : Regular (.string s)
  | array {items : List (Json ν)} :
      (∀ v ∈ items, Regular v) → Regular (.array items)
  | object {members : List (JSString × Json ν)} :
      (members.map Prod.fst).Nodup → (∀ m ∈ members, Regular m.2) →
      Regular (.object members)

omit [Numeric ν] in
theorem Json.record_nodup {fields : List (JSString × Option (Json ν))}
    (nodup : (fields.map Prod.fst).Nodup) :
    ((fields.filterMap fun field =>
      field.2.map fun v => (field.1, v)).map Prod.fst).Nodup := by
  have sublist : ((fields.filterMap fun field =>
      field.2.map fun v => (field.1, v)).map Prod.fst).Sublist
        (fields.map Prod.fst) := by
    rw [List.map_filterMap]
    clear nodup
    induction fields with
    | nil => exact .slnil
    | cons field fields induction =>
        obtain ⟨name, value⟩ := field
        cases value with
        | none => exact induction.cons _
        | some v => exact induction.cons_cons _
  exact sublist.nodup nodup

omit [Numeric ν] in
theorem Json.mem_record {fields : List (JSString × Option (Json ν))}
    {m : JSString × Json ν}
    (member : m ∈ fields.filterMap fun field =>
      field.2.map fun v => (field.1, v)) :
    ∃ field ∈ fields, m.2 ∈ field.2 := by
  obtain ⟨field, inFields, mapped⟩ := List.mem_filterMap.mp member
  obtain ⟨v, value, rfl⟩ := Option.map_eq_some_iff.mp mapped
  exact ⟨field, inFields, value⟩

theorem Json.Regular.record {fields : List (JSString × Option (Json ν))}
    (nodup : (fields.map Prod.fst).Nodup)
    (regular : ∀ field ∈ fields, ∀ v ∈ field.2, Regular v) :
    (Json.record fields).Regular := by
  apply Regular.object (record_nodup nodup)
  intro m member
  obtain ⟨field, inFields, value⟩ := mem_record member
  exact regular field inFields m.2 value

/-- The tokens are read as the value, wherever one is due. -/
def Reads (tokens : List (Token ν)) (v : Json ν) : Prop :=
  ∀ frames, tokens.foldlM ReadState.next (.value frames) =
    some (.complete v frames)

/-- What `JSON.stringify` writes of a value is read as this value. -/
def Json.Returns (v : Json ν) : Prop :=
  ∃ tokens, Spells v.stringify tokens ∧ Reads tokens v

theorem Json.Returns.word {v : Json ν} {w : JSString}
    (text : v.stringify = w) (some_ : w ≠ [])
    (units : w.all isWordUnit = true)
    (named : Library.word w = some (.scalar v)) : v.Returns := by
  refine ⟨[.scalar v], ?_, ?_⟩
  · rw [text]
    exact .word some_ (List.all_eq_true.mp units) named
  · intro frames
    rfl

theorem Json.Returns.number {n : ν} (finite : Numeric.isFinite n = true) :
    (Json.number n).Returns := by
  have numeral := Numeric.isNumeral_text n finite
  have text : (Json.number n).stringify = Numeric.text n := by
    rw [Json.stringify, numberText, if_pos finite]
  have some_ : Numeric.text n ≠ [] := by
    intro empty
    rw [empty] at numeral
    cases numeral
  have units := List.all_eq_true.mpr (wordUnits_of_isNumeral numeral)
  apply Json.Returns.word text some_ units
  rw [word_of_isNumeral numeral, Numeric.ofText_text n finite]

omit [Numeric ν] in
/-- The first value of an array is read like the others. -/
theorem reads_first {tokens : List (Token ν)} {frames : List (Frame ν)}
    {v : Json ν} (reads : Reads tokens v) :
    tokens.foldlM ReadState.next (.firstItem frames) =
      some (.afterItem [v] frames) := by
  have read := reads (.array [] :: frames)
  cases tokens with
  | nil => cases read
  | cons token tokens =>
      cases token with
      | closeArray => cases read
      | _ => exact read

theorem endsWord_of_cons {u : UInt16} (rest : JSString)
    (other : isWordUnit u = false) : EndsWord (u :: rest) := by
  intro u' first
  obtain rfl := Option.some.inj first
  exact other

/-- The items of an array from the second on, and its end. -/
theorem Json.returns_items {items : List (Json ν)}
    (returns : ∀ v ∈ items, v.Returns) :
    ∃ tokens, Spells (stringifyItems items) tokens ∧
      ∀ before frames,
        tokens.foldlM ReadState.next (.afterItem before frames) =
          some (.complete (.array (before ++ items)) frames) := by
  induction items with
  | nil =>
      refine ⟨[.closeArray], ?_, ?_⟩
      · rw [stringifyItems]
        exact .mark (by decide) rfl
      · intro before frames
        rw [List.append_nil]
        rfl
  | cons v items induction =>
      obtain ⟨first, spells, reads⟩ := returns v List.mem_cons_self
      obtain ⟨later, spells', reads'⟩ := induction fun v member =>
        returns v (List.mem_cons_of_mem _ member)
      refine ⟨.comma :: (first ++ later), ?_, ?_⟩
      · rw [stringifyItems]
        apply Spells.cons _ (by decide) rfl
        apply spells.append spells'
        · cases items <;> exact endsWord_of_cons _ (by decide)
        · cases items <;> simp [stringifyItems]
      · intro before frames
        simp only [List.foldlM_cons, List.foldlM_append, ReadState.next,
          Option.bind_eq_bind, Option.bind_some, reads _,
          ReadState.complete, reads', List.append_assoc,
          List.singleton_append]

/-- A member after the opening brace or a comma. -/
theorem Json.returns_member (key : JSString) {v : Json ν}
    (returns : v.Returns) :
    ∃ tokens, Spells (stringifyMember (key, v)) (.text key :: tokens) ∧
      ∀ before frames,
        tokens.foldlM ReadState.next (.colon before key frames) =
          some (.afterMember (InsertionMap.setEntries before key v)
            frames) := by
  obtain ⟨tokens, spells, reads⟩ := returns
  refine ⟨.colon :: tokens, ?_, ?_⟩
  · have colon : Spells (0x3a :: v.stringify) (.colon :: tokens) :=
      spells.cons (by decide) rfl
    have joined := (Spells.literal key).append colon
      (endsWord_of_cons _ (by decide)) (List.cons_ne_nil _ _)
    rw [stringifyMember]
    exact joined
  · intro before frames
    rw [List.foldlM_cons]
    exact reads _

theorem setEntries_of_absent {κ α : Type} [DecidableEq κ]
    {entries : List (κ × α)} {key : κ} (value : α)
    (absent : key ∉ entries.map Prod.fst) :
    InsertionMap.setEntries entries key value =
      entries ++ [(key, value)] := by
  induction entries with
  | nil => rfl
  | cons entry entries induction =>
      simp only [List.map_cons, List.mem_cons, not_or] at absent
      rw [InsertionMap.setEntries, if_neg (Ne.symm absent.1),
        induction absent.2]
      rfl

/-- The members of an object from the second on, and its end. -/
theorem Json.returns_members {members : List (JSString × Json ν)}
    (returns : ∀ m ∈ members, m.2.Returns) :
    ∃ tokens, Spells (stringifyMembers members) tokens ∧
      ∀ before frames, ((before ++ members).map Prod.fst).Nodup →
        tokens.foldlM ReadState.next (.afterMember before frames) =
          some (.complete (.object (before ++ members)) frames) := by
  induction members with
  | nil =>
      refine ⟨[.closeObject], ?_, ?_⟩
      · rw [stringifyMembers]
        exact .mark (by decide) rfl
      · intro before frames _
        rw [List.append_nil]
        rfl
  | cons m members induction =>
      obtain ⟨key, v⟩ := m
      obtain ⟨first, spells, reads⟩ :=
        returns_member key (returns _ List.mem_cons_self)
      obtain ⟨later, spells', reads'⟩ := induction fun m member =>
        returns m (List.mem_cons_of_mem _ member)
      refine ⟨.comma :: (.text key :: first ++ later), ?_, ?_⟩
      · rw [stringifyMembers]
        apply Spells.cons _ (by decide) rfl
        apply spells.append spells'
        · cases members <;> exact endsWord_of_cons _ (by decide)
        · cases members <;> simp [stringifyMembers]
      · intro before frames nodup
        have same : before ++ (key, v) :: members =
            (before ++ [(key, v)]) ++ members := by
          simp
        have absent : key ∉ before.map Prod.fst := by
          rw [List.map_append] at nodup
          intro member
          exact (List.nodup_append.mp nodup).2.2 key member key
            List.mem_cons_self rfl
        rw [same] at nodup ⊢
        simp only [List.foldlM_cons, List.cons_append, List.foldlM_append,
          ReadState.next, Option.bind_eq_bind, Option.bind_some, reads,
          setEntries_of_absent v absent, reads' _ _ nodup]

/-- Every value that JSON can express is read as it was written. -/
theorem Json.Regular.returns {v : Json ν} (regular : v.Regular) :
    v.Returns := by
  induction regular with
  | null =>
      apply Returns.word (w := js "null") rfl (by decide) (by decide)
      exact if_pos rfl
  | bool b =>
      cases b with
      | false =>
          apply Returns.word (w := js "false") rfl (by decide) (by decide)
          rw [Library.word, if_neg (by decide), if_neg (by decide),
            if_pos rfl]
      | true =>
          apply Returns.word (w := js "true") rfl (by decide) (by decide)
          rw [Library.word, if_neg (by decide), if_pos rfl]
  | number finite => exact .number finite
  | string s => exact ⟨[.text s], .literal s, fun _ => rfl⟩
  | @array items _ induction =>
      cases items with
      | nil =>
          refine ⟨[.openArray, .closeArray], ?_, fun _ => rfl⟩
          have closed : Spells (ν := ν) [0x5d] [.closeArray] :=
            .mark (by decide) rfl
          exact closed.cons (by decide) rfl
      | cons v items =>
          obtain ⟨first, spells, reads⟩ := induction v List.mem_cons_self
          obtain ⟨later, spells', reads'⟩ := returns_items fun v member =>
            induction v (List.mem_cons_of_mem _ member)
          refine ⟨.openArray :: (first ++ later), ?_, ?_⟩
          · rw [stringify]
            apply Spells.cons _ (by decide) rfl
            apply spells.append spells'
            · cases items <;> exact endsWord_of_cons _ (by decide)
            · cases items <;> simp [stringifyItems]
          · intro frames
            simp only [List.foldlM_cons, List.foldlM_append, ReadState.next,
              ReadState.start, Option.bind_eq_bind, Option.bind_some,
              reads_first reads, reads', List.singleton_append]
  | @object members nodup _ induction =>
      cases members with
      | nil =>
          refine ⟨[.openObject, .closeObject], ?_, fun _ => rfl⟩
          have closed : Spells (ν := ν) [0x7d] [.closeObject] :=
            .mark (by decide) rfl
          exact closed.cons (by decide) rfl
      | cons m members =>
          obtain ⟨key, v⟩ := m
          obtain ⟨first, spells, reads⟩ :=
            returns_member key (induction _ List.mem_cons_self)
          obtain ⟨later, spells', reads'⟩ := returns_members fun m member =>
            induction m (List.mem_cons_of_mem _ member)
          refine ⟨.openObject :: (.text key :: first ++ later), ?_, ?_⟩
          · rw [stringify]
            apply Spells.cons _ (by decide) rfl
            apply spells.append spells'
            · cases members <;> exact endsWord_of_cons _ (by decide)
            · cases members <;> simp [stringifyMembers]
          · intro frames
            have rest_ : later.foldlM ReadState.next
                (.afterMember [(key, v)] frames) =
                some (.complete (.object ((key, v) :: members)) frames) :=
              reads' [(key, v)] frames nodup
            simp only [List.foldlM_cons, List.cons_append,
              List.foldlM_append, ReadState.next, ReadState.start,
              Option.bind_eq_bind, Option.bind_some, reads,
              InsertionMap.setEntries, rest_]

/-- `JSON.parse(JSON.stringify(v))`. -/
theorem Json.parse_stringify {v : Json ν} (regular : v.Regular) :
    Json.parse v.stringify = some v := by
  obtain ⟨tokens, spells, reads⟩ := regular.returns
  have ends : EndsWord [] := by
    intro u first
    cases first
  have cut := spells [] ends
  have read := reads []
  rw [List.append_nil] at cut
  simp only [Json.parse, cut, lex, Option.map_some, List.append_nil,
    Option.bind_eq_bind, Option.bind_some, read]
  rfl

/-- A line with a value. -/
theorem Json.parse_line {v : Json ν} (regular : v.Regular) :
    Json.parse (v.stringify ++ [0x0a]) = some v := by
  obtain ⟨tokens, spells, reads⟩ := regular.returns
  have cut := spells [0x0a] (endsWord_of_cons [] (by decide))
  have read := reads []
  have blank : lex (ν := ν) [0x0a] .between = some [] := by
    rw [lex, lexBetween, if_pos (by decide), lex]
  simp only [Json.parse, cut, blank, Option.map_some, List.append_nil,
    Option.bind_eq_bind, Option.bind_some, read]
  rfl

/-! ## JSON texts as bytes -/

/-- An ASCII unit. -/
theorem text_of_small {u : UInt16} (small : u.toNat < 0x80) :
    isHighSurrogate u = false ∧ isLowSurrogate u = false := by
  constructor
  · rw [Bool.eq_false_iff]
    intro high
    have bounds := toNat_of_isHighSurrogate.mp high
    omega
  · rw [Bool.eq_false_iff]
    intro low
    have bounds := toNat_of_isLowSurrogate.mp low
    omega

/-- A text of plain units is quoted as it is. -/
theorem quote_plain {s : JSString}
    (plain : ∀ u ∈ s, quoteUnit u = [u] ∧ u.toNat < 0x80) : quote s = s := by
  have single : ∀ u : UInt16, quoteUnit u = [u] → u.toNat < 0x80 →
      quoteSingle u = [u] := by
    intro u same small
    obtain ⟨high, low⟩ := text_of_small small
    unfold quoteSingle
    rw [high, low]
    exact same
  induction s using quote.induct with
  | case1 => rfl
  | case2 u =>
      obtain ⟨same, small⟩ := plain u List.mem_cons_self
      exact single u same small
  | case3 u v s pair induction =>
      obtain ⟨same, small⟩ := plain u List.mem_cons_self
      rw [(text_of_small small).1] at pair
      cases pair
  | case4 u v s pair induction =>
      obtain ⟨same, small⟩ := plain u List.mem_cons_self
      rw [quote, if_neg pair, single u same small,
        induction fun w member => plain w (List.mem_cons_of_mem u member)]
      rfl

theorem toNat_of_isWordUnit {u : UInt16} (unit : isWordUnit u = true) :
    u.toNat < 0x80 := by
  simp only [isWordUnit, isDigitUnit, Bool.or_eq_true, Bool.and_eq_true,
    decide_eq_true_eq, UInt16.le_iff_toNat_le, UInt16.reduceToNat,
    ← UInt16.toNat_inj] at unit
  omega

theorem hexUnit_small {n : Nat} (small : n < 0x10) :
    (hexUnit n).toNat < 0x80 := by
  have table : ∀ n < 0x10, (hexUnit n).toNat < 0x80 := by decide
  exact table n small

theorem isWellFormed_unicodeEscape (u : UInt16) :
    isWellFormed (unicodeEscape u) = true := by
  have bound := u.toNat_lt
  apply isWellFormed_of_text
  intro v member
  apply text_of_small
  simp only [unicodeEscape, List.mem_cons, List.not_mem_nil, or_false]
    at member
  rcases member with rfl | rfl | rfl | rfl | rfl | rfl
  · decide
  · decide
  · exact hexUnit_small (by omega)
  · exact hexUnit_small (by omega)
  · exact hexUnit_small (by omega)
  · exact hexUnit_small (by omega)

theorem isWellFormed_quoteSingle (u : UInt16) :
    isWellFormed (quoteSingle u) = true := by
  unfold quoteSingle
  split
  · exact isWellFormed_unicodeEscape u
  · rename_i text
    simp only [Bool.or_eq_true, not_or, Bool.not_eq_true] at text
    unfold quoteUnit
    split_ifs
    all_goals first
      | rfl
      | exact isWellFormed_unicodeEscape u
      | exact (isWellFormed_cons text.1 text.2 []).trans rfl

theorem isWellFormed_quote (t : JSString) :
    isWellFormed (quote t) = true := by
  induction t using quote.induct with
  | case1 => rfl
  | case2 u => exact isWellFormed_quoteSingle u
  | case3 u v t pair induction =>
      rw [quote, if_pos pair, isWellFormed, if_pos pair]
      exact induction
  | case4 u v t pair induction =>
      rw [quote, if_neg pair]
      exact isWellFormed_append (isWellFormed_quoteSingle u) induction

theorem isWellFormed_literal (t : JSString) :
    isWellFormed (literal t) = true := by
  have mark := text_of_small (u := 0x22) (by decide)
  rw [literal, isWellFormed_cons mark.1 mark.2]
  exact isWellFormed_append (isWellFormed_quote t) rfl

theorem isWellFormed_numberText (n : ν) :
    isWellFormed (numberText n) = true := by
  unfold numberText
  split
  · rename_i finite
    apply isWellFormed_of_text
    intro u member
    have units := wordUnits_of_isNumeral (Numeric.isNumeral_text n finite)
    exact text_of_small (toNat_of_isWordUnit (units u member))
  · decide

/-- Punctuation in front of a text. -/
theorem isWellFormed_punctuation {u : UInt16} (small : u.toNat < 0x80)
    {rest : JSString} (formed : isWellFormed rest = true) :
    isWellFormed (u :: rest) = true := by
  obtain ⟨high, low⟩ := text_of_small small
  rw [isWellFormed_cons high low]
  exact formed

theorem isWellFormed_words :
    isWellFormed (js "null") = true ∧ isWellFormed (js "true") = true ∧
      isWellFormed (js "false") = true := by
  decide

mutual

/-- Lone surrogates are escaped. -/
theorem Json.isWellFormed_stringify :
    ∀ v : Json ν, isWellFormed v.stringify = true
  | .null => isWellFormed_words.1
  | .bool true => isWellFormed_words.2.1
  | .bool false => isWellFormed_words.2.2
  | .number n => isWellFormed_numberText n
  | .string s => isWellFormed_literal s
  | .array [] => rfl
  | .array (v :: items) =>
      isWellFormed_punctuation (by decide)
        (isWellFormed_append (isWellFormed_stringify v)
          (isWellFormed_stringifyItems items))
  | .object [] => rfl
  | .object (m :: members) =>
      isWellFormed_punctuation (by decide)
        (isWellFormed_append (isWellFormed_stringifyMember m)
          (isWellFormed_stringifyMembers members))

theorem Json.isWellFormed_stringifyItems :
    ∀ items : List (Json ν), isWellFormed (stringifyItems items) = true
  | [] => rfl
  | v :: items =>
      isWellFormed_punctuation (by decide)
        (isWellFormed_append (isWellFormed_stringify v)
          (isWellFormed_stringifyItems items))

theorem Json.isWellFormed_stringifyMember :
    ∀ m : JSString × Json ν, isWellFormed (stringifyMember m) = true
  | (key, v) =>
      isWellFormed_append (isWellFormed_literal key)
        (isWellFormed_punctuation (by decide) (isWellFormed_stringify v))

theorem Json.isWellFormed_stringifyMembers :
    ∀ members : List (JSString × Json ν),
      isWellFormed (stringifyMembers members) = true
  | [] => rfl
  | m :: members =>
      isWellFormed_punctuation (by decide)
        (isWellFormed_append (isWellFormed_stringifyMember m)
          (isWellFormed_stringifyMembers members))

end

/-- The bytes of an object are read as the object. -/
theorem Json.parse_textDecode {members : List (JSString × Json ν)}
    (regular : (Json.object members).Regular) :
    Json.parse (textDecode (textEncode (Json.object members).stringify)) =
      some (.object members) := by
  have unmarked : (Json.object members).stringify.head? ≠ some 0xFEFF := by
    cases members <;> simp [stringify]
  rw [textDecode_textEncode (isWellFormed_stringify _) unmarked,
    parse_stringify regular]

/-! ## Numbers that are not finite -/

mutual

/-- The value that `JSON.stringify` writes: `null` for a number that is not
finite. -/
def Json.norm : Json ν → Json ν
  | .null => .null
  | .bool b => .bool b
  | .number n => if Numeric.isFinite n then .number n else .null
  | .string s => .string s
  | .array items => .array (normItems items)
  | .object members => .object (normMembers members)

def Json.normItems : List (Json ν) → List (Json ν)
  | [] => []
  | v :: items => v.norm :: normItems items

def Json.normMembers :
    List (JSString × Json ν) → List (JSString × Json ν)
  | [] => []
  | m :: members => normMember m :: normMembers members

def Json.normMember : JSString × Json ν → JSString × Json ν
  | (key, v) => (key, v.norm)

end

theorem Json.normItems_eq (items : List (Json ν)) :
    normItems items = items.map norm := by
  induction items with
  | nil => rfl
  | cons v items induction => rw [normItems, List.map_cons, induction]

theorem Json.normMembers_eq (members : List (JSString × Json ν)) :
    normMembers members = members.map fun m => (m.1, m.2.norm) := by
  induction members with
  | nil => rfl
  | cons m members induction =>
      obtain ⟨key, v⟩ := m
      rw [normMembers, List.map_cons, induction, normMember]

mutual

theorem Json.stringify_norm : ∀ v : Json ν, v.norm.stringify = v.stringify
  | .null => rfl
  | .bool _ => rfl
  | .number n => by
      unfold norm
      split
      · rfl
      · rename_i infinite
        rw [stringify, stringify, numberText, if_neg infinite]
  | .string _ => rfl
  | .array [] => rfl
  | .array (v :: items) => by
      rw [norm, normItems, stringify, stringify, stringify_norm v,
        stringifyItems_norm items]
  | .object [] => rfl
  | .object (m :: members) => by
      rw [norm, normMembers, stringify, stringify, stringifyMember_norm m,
        stringifyMembers_norm members]

theorem Json.stringifyItems_norm : ∀ items : List (Json ν),
    stringifyItems (normItems items) = stringifyItems items
  | [] => rfl
  | v :: items => by
      rw [normItems, stringifyItems, stringifyItems, stringify_norm v,
        stringifyItems_norm items]

theorem Json.stringifyMember_norm : ∀ m : JSString × Json ν,
    stringifyMember (normMember m) = stringifyMember m
  | (key, v) => by
      rw [normMember, stringifyMember, stringifyMember, stringify_norm v]

theorem Json.stringifyMembers_norm : ∀ members : List (JSString × Json ν),
    stringifyMembers (normMembers members) = stringifyMembers members
  | [] => rfl
  | m :: members => by
      rw [normMembers, stringifyMembers, stringifyMembers,
        stringifyMember_norm m, stringifyMembers_norm members]

end

/-- No two members of an object have one key. -/
inductive Json.Distinct : Json ν → Prop where
  | null : Distinct .null
  | bool (b : Bool) : Distinct (.bool b)
  | number (n : ν) : Distinct (.number n)
  | string (s : JSString) : Distinct (.string s)
  | array {items : List (Json ν)} :
      (∀ v ∈ items, Distinct v) → Distinct (.array items)
  | object {members : List (JSString × Json ν)} :
      (members.map Prod.fst).Nodup → (∀ m ∈ members, Distinct m.2) →
      Distinct (.object members)

omit [Numeric ν] in
theorem Json.Distinct.record {fields : List (JSString × Option (Json ν))}
    (nodup : (fields.map Prod.fst).Nodup)
    (distinct : ∀ field ∈ fields, ∀ v ∈ field.2, Distinct v) :
    (Json.record fields).Distinct := by
  apply Distinct.object (record_nodup nodup)
  intro m member
  obtain ⟨field, inFields, value⟩ := mem_record member
  exact distinct field inFields m.2 value

theorem Json.Regular.distinct {v : Json ν} (regular : v.Regular) :
    v.Distinct := by
  induction regular with
  | null => exact .null
  | bool b => exact .bool b
  | number _ => exact .number _
  | string s => exact .string s
  | array _ induction => exact .array induction
  | object nodup _ induction => exact .object nodup induction

theorem Json.Distinct.norm_regular {v : Json ν} (distinct : v.Distinct) :
    v.norm.Regular := by
  induction distinct with
  | null => exact .null
  | bool b => exact .bool b
  | number n =>
      unfold norm
      split
      · rename_i finite
        exact .number finite
      · exact .null
  | string s => exact .string s
  | array _ induction =>
      rw [norm, normItems_eq]
      apply Regular.array
      intro v member
      obtain ⟨item, inside, rfl⟩ := List.mem_map.mp member
      exact induction item inside
  | object nodup _ induction =>
      rw [norm, normMembers_eq]
      apply Regular.object
      · rw [List.map_map]
        exact nodup
      · intro m member
        obtain ⟨field, inside, rfl⟩ := List.mem_map.mp member
        exact induction field inside

/-- Every value without a key twice is read as what was written of it. -/
theorem Json.parse_stringify_norm {v : Json ν} (distinct : v.Distinct) :
    Json.parse v.stringify = some v.norm := by
  rw [← stringify_norm, parse_stringify distinct.norm_regular]

theorem Json.Regular.norm_eq {v : Json ν} (regular : v.Regular) :
    v.norm = v := by
  have read := parse_stringify_norm regular.distinct
  rw [parse_stringify regular] at read
  exact (Option.some.inj read).symm

theorem Json.parse_textDecode_norm {members : List (JSString × Json ν)}
    (distinct : (Json.object members).Distinct) :
    Json.parse (textDecode (textEncode (Json.object members).stringify)) =
      some (Json.object members).norm := by
  have regular := distinct.norm_regular
  rw [norm] at regular
  rw [← stringify_norm, norm, parse_textDecode regular]

end Byteln.Library

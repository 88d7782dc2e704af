import Byteln.Library.CodePoints
import Byteln.Library.Trimming

/-!
# URL parameters

Lists of names and values, as `URLSearchParams` writes and reads them.  What
is written is ASCII; what is read may have been followed by other text.
-/

namespace Byteln.Library

abbrev UrlParams := List (JSString × JSString)

/-! ## Bytes in a parameter -/

/-- The value of a hexadecimal digit. -/
def hexByteValue (b : UInt8) : Option Nat :=
  if 0x30 ≤ b.toNat ∧ b.toNat ≤ 0x39 then some (b.toNat - 0x30)
  else if 0x41 ≤ b.toNat ∧ b.toNat ≤ 0x46 then some (b.toNat - 0x37)
  else if 0x61 ≤ b.toNat ∧ b.toNat ≤ 0x66 then some (b.toNat - 0x57)
  else none

/-- An escaped byte. -/
def escaped (high low : UInt8) : Option UInt8 := do
  let h ← hexByteValue high
  let l ← hexByteValue low
  pure (UInt8.ofNat (h * 0x10 + l))

/-- A percent sign that no two digits follow stands for itself. -/
def percentDecode : List UInt8 → List UInt8
  | [] => []
  | [b] => [b]
  | [b, c] => [b, c]
  | b :: c :: d :: rest =>
      if b = 0x25 then
        match escaped c d with
        | some byte => byte :: percentDecode rest
        | none => b :: percentDecode (c :: d :: rest)
      else b :: percentDecode (c :: d :: rest)

def plusToSpace (b : UInt8) : UInt8 :=
  if b = 0x2b then 0x20 else b

def formDecode (bytes : List UInt8) : List UInt8 :=
  percentDecode (bytes.map plusToSpace)

/-- A byte that stands for itself: `[A-Za-z0-9*._-]`. -/
def isUnreserved (b : UInt8) : Bool :=
  (0x41 ≤ b && b ≤ 0x5a) || (0x61 ≤ b && b ≤ 0x7a) ||
    (0x30 ≤ b && b ≤ 0x39) || b = 0x2a || b = 0x2d || b = 0x2e || b = 0x5f

def hexDigit (n : Nat) : UInt8 :=
  UInt8.ofNat (if n < 10 then 0x30 + n else 0x37 + n)

def formEncodeByte (b : UInt8) : List UInt8 :=
  if b = 0x20 then [0x2b]
  else if isUnreserved b then [b]
  else [0x25, hexDigit (b.toNat / 0x10), hexDigit (b.toNat % 0x10)]

def formEncode (bytes : List UInt8) : List UInt8 :=
  bytes.flatMap formEncodeByte

/-! ## Parameters -/

namespace UrlParams

/-- A piece between two ampersands. -/
def parsePiece (piece : List UInt8) : JSString × JSString :=
  (utf8Decode (formDecode (piece.takeWhile fun b => b ≠ 0x3d)),
    utf8Decode (formDecode ((piece.dropWhile fun b => b ≠ 0x3d).drop 1)))

def parseBytes (bytes : List UInt8) : UrlParams :=
  ((bytes.splitOn 0x26).filter fun piece => piece ≠ []).map parsePiece

/-- `new URLSearchParams(s)`. -/
def parse (s : JSString) : UrlParams :=
  parseBytes (textEncode (if s.head? = some 0x3f then s.tail else s))

def formatPiece (pair : JSString × JSString) : List UInt8 :=
  formEncode (textEncode pair.1) ++ 0x3d :: formEncode (textEncode pair.2)

/-- `params.toString()`. -/
def format (params : UrlParams) : JSString :=
  ofAscii ([0x26].intercalate (params.map formatPiece))

def get? (params : UrlParams) (name : JSString) : Option JSString :=
  (params.find? fun pair => pair.1 = name).map Prod.snd

def delete (params : UrlParams) (name : JSString) : UrlParams :=
  params.filter fun pair => pair.1 ≠ name

/-- The first value of the name is replaced, all others go. -/
def set (params : UrlParams) (name value : JSString) : UrlParams :=
  match params with
  | [] => [(name, repair value)]
  | pair :: rest =>
      if pair.1 = name then (name, repair value) :: delete rest name
      else pair :: set rest name value

end UrlParams

/-! ## Bytes survive -/

theorem percentDecode_cons {b : UInt8} (plain : b ≠ 0x25)
    (rest : List UInt8) :
    percentDecode (b :: rest) = b :: percentDecode rest := by
  match rest with
  | [] => rfl
  | [c] => rfl
  | c :: d :: rest => rw [percentDecode, if_neg plain]

theorem percentDecode_escape {high low byte : UInt8}
    (digits : escaped high low = some byte) (rest : List UInt8) :
    percentDecode (0x25 :: high :: low :: rest) =
      byte :: percentDecode rest := by
  rw [percentDecode, if_pos rfl, digits]

/-- A class of bytes tells its members from other bytes. -/
theorem ne_of_class {told : UInt8 → Bool} {b c : UInt8}
    (member : told b = true) (outside : told c = false) : b ≠ c := by
  intro same
  rw [← same, member] at outside
  exact Bool.noConfusion outside

theorem unreserved_plain {b : UInt8} (unreserved : isUnreserved b = true) :
    plusToSpace b = b ∧ b ≠ 0x25 ∧ b ≠ 0x26 ∧ b ≠ 0x3d ∧ b ≠ 0x3f ∧
      b ≠ 0x23 ∧ b.toNat < 0x80 := by
  have other : ∀ c : UInt8, isUnreserved c = false → b ≠ c := fun _ =>
    ne_of_class unreserved
  have small : b.toNat < 0x80 := by
    by_contra large
    simp only [isUnreserved, Bool.or_eq_true, Bool.and_eq_true,
      decide_eq_true_eq, UInt8.le_iff_toNat_le] at unreserved
    rcases unreserved with
      (((((⟨-, high⟩ | ⟨-, high⟩) | ⟨-, high⟩) | rfl) | rfl) | rfl) | rfl
    · exact large (lt_of_le_of_lt high (by decide))
    · exact large (lt_of_le_of_lt high (by decide))
    · exact large (lt_of_le_of_lt high (by decide))
    all_goals exact large (by decide)
  exact ⟨if_neg (other _ rfl), other _ rfl, other _ rfl, other _ rfl,
    other _ rfl, other _ rfl, small⟩

theorem escaped_hexDigits (b : UInt8) :
    escaped (hexDigit (b.toNat / 0x10)) (hexDigit (b.toNat % 0x10)) =
      some b := by
  revert b
  decide +kernel

theorem hexDigit_plain {n : Nat} (small : n < 0x10) :
    plusToSpace (hexDigit n) = hexDigit n ∧ hexDigit n ≠ 0x25 ∧
      hexDigit n ≠ 0x26 ∧ hexDigit n ≠ 0x3d ∧ hexDigit n ≠ 0x3f ∧
      hexDigit n ≠ 0x23 ∧ (hexDigit n).toNat < 0x80 := by
  revert n
  decide

/-- A byte that is written can be followed by anything. -/
theorem formDecode_formEncodeByte (b : UInt8) (rest : List UInt8) :
    formDecode (formEncodeByte b ++ rest) = b :: formDecode rest := by
  have high : b.toNat / 0x10 < 0x10 := by
    have := b.toNat_lt
    omega
  have low : b.toNat % 0x10 < 0x10 := Nat.mod_lt _ (by decide)
  unfold formDecode formEncodeByte
  split
  · rename_i space
    rw [List.singleton_append, List.map_cons]
    show percentDecode (0x20 :: _) = _
    rw [percentDecode_cons (by decide), space]
  · split
    · rename_i unreserved
      obtain ⟨same, plain, -⟩ := unreserved_plain unreserved
      rw [List.singleton_append, List.map_cons, same,
        percentDecode_cons plain]
    · simp only [List.cons_append, List.nil_append, List.map_cons,
        (hexDigit_plain high).1, (hexDigit_plain low).1]
      exact percentDecode_escape (escaped_hexDigits b) _

theorem formDecode_formEncode (bytes rest : List UInt8) :
    formDecode (formEncode bytes ++ rest) = bytes ++ formDecode rest := by
  unfold formEncode
  induction bytes with
  | nil => rfl
  | cons b bytes induction =>
      rw [List.flatMap_cons, List.append_assoc, formDecode_formEncodeByte,
        induction, List.cons_append]

/-- A text that spells bytes as escapes, in digits of either case. -/
inductive Escapes : List UInt8 → List UInt8 → Prop
  | nil : Escapes [] []
  | cons {b high low : UInt8} {bytes text : List UInt8} :
      escaped high low = some b → Escapes bytes text →
        Escapes (b :: bytes) (0x25 :: high :: low :: text)

theorem hexByteValue_plain {b : UInt8} {n : Nat}
    (digit : hexByteValue b = some n) :
    plusToSpace b = b ∧ b.toNat < 0x80 := by
  have bounds : 0x30 ≤ b.toNat ∧ b.toNat < 0x67 := by
    unfold hexByteValue at digit
    split at digit
    · omega
    · split at digit
      · omega
      · split at digit
        · omega
        · cases digit
  have other : b ≠ 0x2b := by
    intro same
    rw [same] at bounds
    exact absurd bounds.1 (by decide)
  exact ⟨if_neg other, bounds.2.trans (by decide)⟩

theorem digits_of_escaped {high low b : UInt8}
    (digits : escaped high low = some b) :
    (plusToSpace high = high ∧ high.toNat < 0x80) ∧
      plusToSpace low = low ∧ low.toNat < 0x80 := by
  unfold escaped at digits
  cases first : hexByteValue high with
  | none =>
      rw [first] at digits
      cases digits
  | some h =>
      cases second : hexByteValue low with
      | none =>
          rw [first, second] at digits
          cases digits
      | some l => exact ⟨hexByteValue_plain first, hexByteValue_plain second⟩

theorem Escapes.ascii {bytes text : List UInt8}
    (escapes : Escapes bytes text) : ∀ b ∈ text, b.toNat < 0x80 := by
  induction escapes with
  | nil =>
      intro b member
      cases member
  | cons digits _ induction =>
      obtain ⟨⟨-, high⟩, -, low⟩ := digits_of_escaped digits
      exact List.forall_mem_cons.mpr ⟨by decide, List.forall_mem_cons.mpr
        ⟨high, List.forall_mem_cons.mpr ⟨low, induction⟩⟩⟩

theorem Escapes.formDecode {bytes text : List UInt8}
    (escapes : Escapes bytes text) (rest : List UInt8) :
    formDecode (text ++ rest) = bytes ++ formDecode rest := by
  induction escapes with
  | nil => rfl
  | cons digits _ induction =>
      obtain ⟨⟨high, -⟩, low, -⟩ := digits_of_escaped digits
      unfold Library.formDecode at induction ⊢
      simp only [List.cons_append, List.map_cons, high, low]
      rw [← induction]
      exact percentDecode_escape digits _

/-- Bytes that stand for themselves. -/
theorem formDecode_append {bytes : List UInt8}
    (plain : ∀ b ∈ bytes, b ≠ 0x25 ∧ b ≠ 0x2b) (rest : List UInt8) :
    formDecode (bytes ++ rest) = bytes ++ formDecode rest := by
  unfold formDecode
  induction bytes with
  | nil => rfl
  | cons b bytes induction =>
      obtain ⟨⟨percent, plus⟩, later⟩ := List.forall_mem_cons.mp plain
      have same : plusToSpace b = b := if_neg plus
      rw [List.cons_append, List.map_cons, same, percentDecode_cons percent,
        induction later, List.cons_append]

/-- A byte that separates nothing. -/
def IsQuiet (b : UInt8) : Prop :=
  b ≠ 0x26 ∧ b ≠ 0x3d ∧ b ≠ 0x3f ∧ b ≠ 0x23 ∧ b.toNat < 0x80

theorem quiet_of_formEncode {bytes : List UInt8} :
    ∀ b ∈ formEncode bytes, IsQuiet b := by
  intro b member
  obtain ⟨byte, -, inside⟩ := List.mem_flatMap.mp member
  have high : byte.toNat / 0x10 < 0x10 := by
    have := byte.toNat_lt
    omega
  have low : byte.toNat % 0x10 < 0x10 := Nat.mod_lt _ (by decide)
  unfold formEncodeByte at inside
  split at inside
  · rw [List.mem_singleton.mp inside]
    exact ⟨by decide, by decide, by decide, by decide, by decide⟩
  · split at inside
    · rename_i unreserved
      rw [List.mem_singleton.mp inside]
      exact (unreserved_plain unreserved).2.2
    · simp only [List.mem_cons, List.not_mem_nil, or_false] at inside
      rcases inside with rfl | rfl | rfl
      · exact ⟨by decide, by decide, by decide, by decide, by decide⟩
      · exact (hexDigit_plain high).2.2
      · exact (hexDigit_plain low).2.2

namespace UrlParams

/-! ## Parameters survive -/

theorem takeWhile_formatPiece (pair : JSString × JSString)
    (rest : List UInt8) :
    (formatPiece pair ++ rest).takeWhile (fun b => b ≠ 0x3d) =
        formEncode (textEncode pair.1) ∧
      ((formatPiece pair ++ rest).dropWhile fun b => b ≠ 0x3d).drop 1 =
        formEncode (textEncode pair.2) ++ rest := by
  have quiet : ∀ b ∈ formEncode (textEncode pair.1),
      decide (b ≠ 0x3d) = true := fun b member =>
    decide_eq_true (quiet_of_formEncode b member).2.1
  unfold formatPiece
  rw [List.append_assoc]
  constructor
  · rw [List.takeWhile_append_of_pos quiet, List.cons_append,
      List.takeWhile_cons_of_neg (by decide), List.append_nil]
  · rw [List.dropWhile_append_of_pos quiet, List.cons_append,
      List.dropWhile_cons_of_neg (by decide)]
    rfl

/-- A piece that has been written, and what follows it. -/
theorem parsePiece_formatPiece (pair : JSString × JSString)
    (rest : List UInt8) :
    parsePiece (formatPiece pair ++ rest) =
      (repair pair.1,
        utf8Decode (textEncode pair.2 ++ formDecode rest)) := by
  obtain ⟨name, value⟩ := takeWhile_formatPiece pair rest
  have named : formDecode (formEncode (textEncode pair.1)) =
      textEncode pair.1 := by
    have whole := formDecode_formEncode (textEncode pair.1) []
    rwa [List.append_nil, show formDecode [] = [] from rfl,
      List.append_nil] at whole
  unfold parsePiece
  rw [name, value, named, formDecode_formEncode, utf8Decode_textEncode]

theorem parsePiece_formatPiece_alone (pair : JSString × JSString) :
    parsePiece (formatPiece pair) = (repair pair.1, repair pair.2) := by
  have whole := parsePiece_formatPiece pair []
  rwa [List.append_nil, show formDecode [] = [] from rfl, List.append_nil,
    utf8Decode_textEncode] at whole

theorem formatPiece_ne_nil (pair : JSString × JSString) :
    formatPiece pair ≠ [] := by
  unfold formatPiece
  simp

theorem ampersand_notMem_formatPiece (pair : JSString × JSString) :
    0x26 ∉ formatPiece pair := by
  intro member
  rcases List.mem_append.mp member with name | value
  · exact (quiet_of_formEncode _ name).1 rfl
  · rcases List.mem_cons.mp value with equal | value
    · cases equal
    · exact (quiet_of_formEncode _ value).1 rfl

/-- The bytes of parameters, the last of which goes on. -/
theorem parseBytes_append (params : UrlParams) (pair : JSString × JSString)
    {rest : List UInt8} (apart : 0x26 ∉ rest) :
    parseBytes ([0x26].intercalate ((params ++ [pair]).map formatPiece) ++
        rest) =
      params.map (fun pair => (repair pair.1, repair pair.2)) ++
        [(repair pair.1,
          utf8Decode (textEncode pair.2 ++ formDecode rest))] := by
  have pieces : [0x26].intercalate ((params ++ [pair]).map formatPiece) ++
      rest = [0x26].intercalate (params.map formatPiece ++
        [formatPiece pair ++ rest]) := by
    induction params with
    | nil => simp
    | cons first params induction =>
        cases params with
        | nil => simp
        | cons second params =>
            simp only [List.map_cons, List.cons_append,
              List.intercalate_cons_cons, List.append_assoc] at induction ⊢
            rw [induction]
  have split : ([0x26].intercalate (params.map formatPiece ++
      [formatPiece pair ++ rest])).splitOn 0x26 =
      params.map formatPiece ++ [formatPiece pair ++ rest] := by
    apply List.splitOn_intercalate
    · intro piece member
      rcases List.mem_append.mp member with earlier | last
      · obtain ⟨other, -, rfl⟩ := List.mem_map.mp earlier
        exact ampersand_notMem_formatPiece other
      · rw [List.mem_singleton.mp last]
        intro inside
        rcases List.mem_append.mp inside with written | follows
        · exact ampersand_notMem_formatPiece pair written
        · exact apart follows
    · simp
  have kept : (params.map formatPiece ++
      [formatPiece pair ++ rest]).filter (fun piece => piece ≠ []) =
      params.map formatPiece ++ [formatPiece pair ++ rest] := by
    rw [List.filter_eq_self]
    intro piece member
    rcases List.mem_append.mp member with earlier | last
    · obtain ⟨other, -, rfl⟩ := List.mem_map.mp earlier
      exact decide_eq_true (formatPiece_ne_nil other)
    · rw [List.mem_singleton.mp last]
      apply decide_eq_true
      intro empty
      exact formatPiece_ne_nil pair (List.append_eq_nil_iff.mp empty).1
  unfold parseBytes
  rw [pieces, split, kept, List.map_append, List.map_map,
    List.map_singleton, parsePiece_formatPiece]
  congr 1
  apply List.map_congr_left
  intro other _
  exact parsePiece_formatPiece_alone other

/-- Bytes of parameters are ASCII, and start neither a query nor a
fragment. -/
theorem quiet_of_intercalate (params : UrlParams) :
    ∀ b ∈ [0x26].intercalate (params.map formatPiece),
      b.toNat < 0x80 ∧ b ≠ 0x3f ∧ b ≠ 0x23 := by
  have piece : ∀ pair : JSString × JSString, ∀ b ∈ formatPiece pair,
      b.toNat < 0x80 ∧ b ≠ 0x3f ∧ b ≠ 0x23 := by
    intro pair b member
    rcases List.mem_append.mp member with name | value
    · have quiet := quiet_of_formEncode b name
      exact ⟨quiet.2.2.2.2, quiet.2.2.1, quiet.2.2.2.1⟩
    · rcases List.mem_cons.mp value with rfl | value
      · exact ⟨by decide, by decide, by decide⟩
      · have quiet := quiet_of_formEncode b value
        exact ⟨quiet.2.2.2.2, quiet.2.2.1, quiet.2.2.2.1⟩
  induction params with
  | nil =>
      intro b member
      cases member
  | cons pair params induction =>
      cases params with
      | nil => simpa using piece pair
      | cons other params =>
          intro b member
          rw [List.map_cons, List.map_cons, List.intercalate_cons_cons,
            List.append_assoc] at member
          rcases List.mem_append.mp member with first | member
          · exact piece pair b first
          · rcases List.mem_append.mp member with separator | later
            · rw [List.mem_singleton.mp separator]
              exact ⟨by decide, by decide, by decide⟩
            · exact induction b later

theorem toUInt16_ne {b u : UInt8} (other : b ≠ u) :
    b.toUInt16 ≠ u.toUInt16 := by
  intro same
  apply other
  apply UInt8.toNat_inj.mp
  have values := congrArg UInt16.toNat same
  simpa using values

theorem mem_format {params : UrlParams} {u : UInt16}
    (member : u ∈ format params) : u ≠ 0x3f ∧ u ≠ 0x23 := by
  obtain ⟨b, inside, rfl⟩ := List.mem_map.mp member
  obtain ⟨-, query, fragment⟩ := quiet_of_intercalate params b inside
  exact ⟨toUInt16_ne query, toUInt16_ne fragment⟩

theorem head?_format_append {params : UrlParams} (some_ : params ≠ [])
    (rest : JSString) :
    (format params ++ rest).head? ≠ some 0x3f ∧
      (format params ++ rest).head? ≠ some 0x23 := by
  have text : format params ≠ [] := by
    obtain ⟨pair, params, rfl⟩ := List.exists_cons_of_ne_nil some_
    unfold format ofAscii
    rw [ne_eq, List.map_eq_nil_iff]
    cases params with
    | nil => simpa using formatPiece_ne_nil pair
    | cons other params =>
        simp [List.intercalate_cons_cons]
  obtain ⟨u, units, same⟩ := List.exists_cons_of_ne_nil text
  have inside : u ∈ format params := by
    rw [same]
    exact List.mem_cons_self
  obtain ⟨query, fragment⟩ := mem_format inside
  rw [same]
  exact ⟨fun equal => query (Option.some.inj equal),
    fun equal => fragment (Option.some.inj equal)⟩

/-- Parameters and a text behind them, which becomes part of the last
value. -/
theorem parse_format_append (params : UrlParams)
    (pair : JSString × JSString) {rest : JSString}
    (apart : 0x26 ∉ textEncode rest) :
    parse (format (params ++ [pair]) ++ rest) =
      params.map (fun pair => (repair pair.1, repair pair.2)) ++
        [(repair pair.1,
          utf8Decode (textEncode pair.2 ++ formDecode (textEncode rest)))]
      := by
  have plain := (head?_format_append (List.append_ne_nil_of_right_ne_nil
    params (List.cons_ne_nil pair [])) rest).1
  unfold parse
  rw [if_neg plain]
  unfold format
  rw [textEncode_ofAscii_append rest fun b member =>
    (quiet_of_intercalate _ b member).1]
  exact parseBytes_append params pair apart

/-- Parameters that are written are read back. -/
theorem parse_format (params : UrlParams) :
    parse (format params) =
      params.map fun pair => (repair pair.1, repair pair.2) := by
  rcases List.eq_nil_or_concat params with rfl | ⟨init, last, rfl⟩
  · rfl
  · have whole := parse_format_append init last
      (show 0x26 ∉ textEncode [] from List.not_mem_nil)
    rw [List.append_nil] at whole
    rw [List.concat_eq_append, whole, List.map_append, List.map_singleton,
      show formDecode (textEncode []) = [] from rfl, List.append_nil,
      utf8Decode_textEncode]

/-- All names and values are texts. -/
def WellFormed (params : UrlParams) : Prop :=
  ∀ pair ∈ params, isWellFormed pair.1 = true ∧ isWellFormed pair.2 = true

theorem WellFormed.repair {params : UrlParams} (formed : WellFormed params) :
    (params.map fun pair => (repair pair.1, repair pair.2)) = params := by
  have same : (params.map fun pair => (Library.repair pair.1,
      Library.repair pair.2)) = params.map id := by
    apply List.map_congr_left
    intro pair member
    obtain ⟨name, value⟩ := formed pair member
    rw [repair_of_isWellFormed name, repair_of_isWellFormed value]
    rfl
  rw [same, List.map_id]

theorem wellFormed_parse (s : JSString) : WellFormed (parse s) := by
  intro pair member
  obtain ⟨piece, -, rfl⟩ := List.mem_map.mp member
  exact ⟨isWellFormed_utf8Decode _, isWellFormed_utf8Decode _⟩

theorem WellFormed.delete {params : UrlParams} (formed : WellFormed params)
    (name : JSString) : WellFormed (params.delete name) :=
  fun pair member => formed pair (List.mem_filter.mp member).1

theorem WellFormed.set {params : UrlParams} (formed : WellFormed params)
    {name : JSString} (named : isWellFormed name = true) (value : JSString) :
    WellFormed (params.set name value) := by
  have fresh : isWellFormed name = true ∧
      isWellFormed (Library.repair value) = true :=
    ⟨named, isWellFormed_repair value⟩
  induction params with
  | nil =>
      intro pair member
      rw [List.mem_singleton.mp member]
      exact fresh
  | cons pair params induction =>
      obtain ⟨first, later⟩ := List.forall_mem_cons.mp formed
      unfold UrlParams.set
      split
      · exact List.forall_mem_cons.mpr ⟨fresh, WellFormed.delete later name⟩
      · exact List.forall_mem_cons.mpr ⟨first, induction later⟩

/-! ## Parameters of one name -/

/-- All parameters of a name. -/
def named (params : UrlParams) (name : JSString) : UrlParams :=
  params.filter fun pair => pair.1 = name

theorem get?_eq (params : UrlParams) (name : JSString) :
    get? params name = (named params name).head?.map Prod.snd := by
  unfold get? named
  rw [List.head?_filter]

theorem named_delete_self (params : UrlParams) (name : JSString) :
    named (delete params name) name = [] := by
  unfold named delete
  rw [List.filter_filter, List.filter_eq_nil_iff]
  intro pair _
  simp

theorem named_delete_of_ne (params : UrlParams) {name other : JSString}
    (apart : other ≠ name) :
    named (delete params name) other = named params other := by
  unfold named delete
  rw [List.filter_filter]
  apply List.filter_congr
  intro pair _
  by_cases same : pair.1 = other
  · simp [same, apart]
  · simp [same]

theorem named_set_self (params : UrlParams) (name value : JSString) :
    named (set params name value) name =
      [(name, Library.repair value)] := by
  induction params with
  | nil => simp [set, named]
  | cons pair params induction =>
      unfold set
      split
      · have gone := named_delete_self params name
        unfold named at gone ⊢
        rw [List.filter_cons_of_pos (by simp), gone]
      · rename_i other
        unfold named at induction ⊢
        rw [List.filter_cons_of_neg (by simpa using other), induction]

theorem named_set_of_ne (params : UrlParams) {name other : JSString}
    (apart : other ≠ name) (value : JSString) :
    named (set params name value) other = named params other := by
  induction params with
  | nil => simp [set, named, apart.symm]
  | cons pair params induction =>
      unfold set
      split
      · rename_i same
        have rest := named_delete_of_ne params apart
        unfold named at rest ⊢
        rw [List.filter_cons_of_neg (by simpa using apart.symm), rest,
          List.filter_cons_of_neg (by simpa [same] using apart.symm)]
      · unfold named at induction ⊢
        rw [List.filter_cons, List.filter_cons, induction]

theorem delete_eq_self {params : UrlParams} {name : JSString}
    (absent : named params name = []) : delete params name = params := by
  unfold named at absent
  unfold delete
  rw [List.filter_eq_nil_iff] at absent
  rw [List.filter_eq_self]
  intro pair member
  simpa using absent pair member

theorem set_eq_self {params : UrlParams} {name value : JSString}
    (only : named params name = [(name, value)])
    (formed : isWellFormed value = true) :
    set params name value = params := by
  induction params with
  | nil => cases only
  | cons pair params induction =>
      unfold set
      unfold named at only induction
      split
      · rename_i same
        rw [List.filter_cons_of_pos (by simpa using same),
          List.cons.injEq] at only
        rw [delete_eq_self only.2, repair_of_isWellFormed formed, only.1]
      · rename_i other
        rw [List.filter_cons_of_neg (by simpa using other)] at only
        rw [induction only]

end UrlParams

end Byteln.Library

import Byteln.Library.UrlParams

/-!
# Strict URL decoding

A reader of escapes and of queries that takes no stray percent sign.  It reads
everything that is written with escapes, and so every list of parameters.
-/

namespace Byteln.Library

/-! ## Escapes -/

/-- Decode the escapes of a path, or of a query component, in which a plus
sign is a space.  A percent sign that no two digits follow is an error. -/
def urlUnescape (query : Bool) : List UInt8 → Option (List UInt8)
  | [] => some []
  | b :: rest =>
      if b = 0x25 then
        match rest with
        | high :: low :: rest => do
            let byte ← escaped high low
            let bytes ← urlUnescape query rest
            pure (byte :: bytes)
        | _ => none
      else do
        let bytes ← urlUnescape query rest
        pure ((if query && b = 0x2b then 0x20 else b) :: bytes)

/-- What `encodeURIComponent` leaves alone: `[A-Za-z0-9!'()*._~-]`. -/
def isUriUnreserved (b : UInt8) : Bool :=
  isUnreserved b || b = 0x21 || b = 0x27 || b = 0x28 || b = 0x29 || b = 0x7e

def uriEncodeByte (b : UInt8) : List UInt8 :=
  if isUriUnreserved b then [b]
  else [0x25, hexDigit (b.toNat / 0x10), hexDigit (b.toNat % 0x10)]

/-- A lone surrogate is an error. -/
def encodeURIComponent (s : JSString) : Option JSString :=
  if isWellFormed s then
    some (ofAscii ((textEncode s).flatMap uriEncodeByte))
  else none

theorem urlUnescape_cons {query : Bool} {b : UInt8} (plain : b ≠ 0x25)
    (rest : List UInt8) :
    urlUnescape query (b :: rest) = (urlUnescape query rest).map
      ((if query && b = 0x2b then 0x20 else b) :: ·) := by
  rw [urlUnescape.eq_def]
  simp only [if_neg plain]
  cases urlUnescape query rest <;> rfl

/-- A byte that is written as an escape. -/
theorem urlUnescape_escape (query : Bool) (b : UInt8) (rest : List UInt8) :
    urlUnescape query (0x25 :: hexDigit (b.toNat / 0x10) ::
        hexDigit (b.toNat % 0x10) :: rest) =
      (urlUnescape query rest).map (b :: ·) := by
  rw [urlUnescape.eq_def]
  simp only [if_pos, escaped_hexDigits]
  cases urlUnescape query rest <;> rfl

theorem plain_of_isUriUnreserved {b : UInt8}
    (unreserved : isUriUnreserved b = true) : b ≠ 0x25 ∧ b ≠ 0x2b :=
  ⟨ne_of_class unreserved rfl, ne_of_class unreserved rfl⟩

theorem urlUnescape_uriEncodeByte (query : Bool) (b : UInt8)
    (rest : List UInt8) :
    urlUnescape query (uriEncodeByte b ++ rest) =
      (urlUnescape query rest).map (b :: ·) := by
  unfold uriEncodeByte
  split
  · rename_i unreserved
    obtain ⟨percent, plus⟩ := plain_of_isUriUnreserved unreserved
    rw [List.singleton_append, urlUnescape_cons percent]
    simp [plus]
  · exact urlUnescape_escape query b rest

theorem urlUnescape_formEncodeByte (b : UInt8) (rest : List UInt8) :
    urlUnescape true (formEncodeByte b ++ rest) =
      (urlUnescape true rest).map (b :: ·) := by
  unfold formEncodeByte
  split
  · rename_i space
    rw [List.singleton_append, urlUnescape_cons (by decide), space]
    rfl
  · split
    · rename_i unreserved
      obtain ⟨same, percent, -⟩ := unreserved_plain unreserved
      have plus : b ≠ 0x2b := by
        rintro rfl
        exact absurd same (by decide)
      rw [List.singleton_append, urlUnescape_cons percent]
      simp [plus]
    · exact urlUnescape_escape true b rest

/-- Bytes that are written one by one are read one by one. -/
theorem urlUnescape_flatMap {query : Bool} {encode : UInt8 → List UInt8}
    (reads : ∀ b rest, urlUnescape query (encode b ++ rest) =
      (urlUnescape query rest).map (b :: ·)) (bytes rest : List UInt8) :
    urlUnescape query (bytes.flatMap encode ++ rest) =
      (urlUnescape query rest).map (bytes ++ ·) := by
  induction bytes with
  | nil => simp
  | cons b bytes induction =>
      rw [List.flatMap_cons, List.append_assoc, reads, induction,
        Option.map_map]
      rfl

theorem urlUnescape_formEncode (bytes : List UInt8) :
    urlUnescape true (formEncode bytes) = some bytes := by
  have whole := urlUnescape_flatMap urlUnescape_formEncodeByte bytes []
  rw [List.append_nil] at whole
  unfold formEncode
  rw [whole]
  simp [urlUnescape]

theorem urlUnescape_uriEncode (query : Bool) (bytes : List UInt8) :
    urlUnescape query (bytes.flatMap uriEncodeByte) = some bytes := by
  have whole := urlUnescape_flatMap (urlUnescape_uriEncodeByte query) bytes []
  rw [List.append_nil] at whole
  rw [whole]
  simp [urlUnescape]

/-- A path that needs no decoding. -/
theorem urlUnescape_plain_append {bytes : List UInt8}
    (plain : ∀ b ∈ bytes, b ≠ 0x25) (rest : List UInt8) :
    urlUnescape false (bytes ++ rest) =
      (urlUnescape false rest).map (bytes ++ ·) := by
  induction bytes with
  | nil => simp
  | cons b bytes induction =>
      obtain ⟨percent, later⟩ := List.forall_mem_cons.mp plain
      rw [List.cons_append, urlUnescape_cons percent, induction later,
        Option.map_map]
      rfl

/-- A byte of a character of ASCII that is no white space. -/
def isVisible (b : UInt8) : Bool :=
  0x21 ≤ b && b ≤ 0x7E

theorem bounds_of_isVisible {b : UInt8} (visible : isVisible b = true) :
    0x21 ≤ b.toNat ∧ b.toNat < 0x7F := by
  simp only [isVisible, Bool.and_eq_true, decide_eq_true_eq] at visible
  have low : 0x21 ≤ b.toNat := visible.1
  have high : b.toNat ≤ 0x7E := visible.2
  exact ⟨low, by omega⟩

/-- What is encoded is visible, and ends neither a path nor a segment of
one. -/
theorem visible_of_uriEncode (bytes : List UInt8) :
    ∀ b ∈ bytes.flatMap uriEncodeByte, isVisible b = true ∧ b ≠ 0x2f ∧
      b ≠ 0x5c ∧ b ≠ 0x3f ∧ b ≠ 0x23 := by
  have byte : ∀ b, (uriEncodeByte b).all (fun c => isVisible c && c != 0x2f &&
      c != 0x5c && c != 0x3f && c != 0x23) = true := by
    decide +kernel
  intro c member
  obtain ⟨b, -, inside⟩ := List.mem_flatMap.mp member
  simpa [and_assoc] using List.all_eq_true.mp (byte b) c inside

/-! ## Queries -/

/-- A piece between two ampersands.  One that is empty, has a semicolon or is
no proper encoding is left out. -/
def queryPair (piece : List UInt8) : Option (List UInt8 × List UInt8) :=
  if piece = [] ∨ 0x3b ∈ piece then none
  else do
    let key ← urlUnescape true (piece.takeWhile fun b => b ≠ 0x3d)
    let value ← urlUnescape true
      ((piece.dropWhile fun b => b ≠ 0x3d).drop 1)
    pure (key, value)

def parseQuery (query : List UInt8) : List (List UInt8 × List UInt8) :=
  (query.splitOn 0x26).filterMap queryPair

/-- The first value of a key, or nothing. -/
def queryGet (values : List (List UInt8 × List UInt8)) (key : List UInt8) :
    List UInt8 :=
  ((values.find? fun pair => pair.1 = key).map Prod.snd).getD []

theorem mem_of_intercalate {α : Type*} {separator : List α}
    {pieces : List (List α)} {a : α}
    (member : a ∈ separator.intercalate pieces) :
    a ∈ separator ∨ ∃ piece ∈ pieces, a ∈ piece := by
  induction pieces with
  | nil => cases member
  | cons piece pieces induction =>
      cases pieces with
      | nil => exact .inr ⟨piece, List.mem_cons_self, by simpa using member⟩
      | cons other pieces =>
          rw [List.intercalate_cons_cons, List.append_assoc] at member
          rcases List.mem_append.mp member with first | member
          · exact .inr ⟨piece, List.mem_cons_self, first⟩
          · rcases List.mem_append.mp member with between | later
            · exact .inl between
            · rcases induction later with between | ⟨piece, inside, later⟩
              · exact .inl between
              · exact .inr ⟨piece, List.mem_cons_of_mem _ inside, later⟩

/-- A form is written in visible bytes, none of them a semicolon. -/
theorem visible_of_formEncode (bytes : List UInt8) :
    ∀ b ∈ formEncode bytes, isVisible b = true ∧ b ≠ 0x3b := by
  have byte : ∀ b, (formEncodeByte b).all
      (fun c => isVisible c && c != 0x3b) = true := by
    decide +kernel
  intro c member
  obtain ⟨b, -, inside⟩ := List.mem_flatMap.mp member
  simpa using List.all_eq_true.mp (byte b) c inside

/-- Parameters are written in visible bytes. -/
theorem visible_of_format (params : UrlParams) :
    ∀ b ∈ [0x26].intercalate (params.map UrlParams.formatPiece),
      isVisible b = true := by
  intro b member
  rcases mem_of_intercalate member with between | ⟨piece, inside, member⟩
  · rw [List.mem_singleton.mp between]
    decide
  · obtain ⟨pair, -, rfl⟩ := List.mem_map.mp inside
    rcases List.mem_append.mp member with name | value
    · exact (visible_of_formEncode _ b name).1
    · rcases List.mem_cons.mp value with rfl | value
      · decide
      · exact (visible_of_formEncode _ b value).1

theorem semicolon_notMem_formEncode (bytes : List UInt8) :
    0x3b ∉ formEncode bytes := by
  intro member
  exact (visible_of_formEncode bytes _ member).2 rfl

theorem queryPair_formatPiece (pair : JSString × JSString) :
    queryPair (UrlParams.formatPiece pair) =
      some (textEncode pair.1, textEncode pair.2) := by
  obtain ⟨name, value⟩ := UrlParams.takeWhile_formatPiece pair []
  rw [List.append_nil, List.append_nil] at *
  have semicolon : 0x3b ∉ UrlParams.formatPiece pair := by
    intro member
    rcases List.mem_append.mp member with name | value
    · exact semicolon_notMem_formEncode _ name
    · rcases List.mem_cons.mp value with equal | value
      · cases equal
      · exact semicolon_notMem_formEncode _ value
  unfold queryPair
  rw [if_neg (by
    rintro (empty | member)
    · exact UrlParams.formatPiece_ne_nil pair empty
    · exact semicolon member), name, value, urlUnescape_formEncode,
    urlUnescape_formEncode]
  rfl

theorem textEncode_format (params : UrlParams) :
    textEncode params.format =
      [0x26].intercalate (params.map UrlParams.formatPiece) := by
  have whole := textEncode_ofAscii_append [] fun b member =>
    (UrlParams.quiet_of_intercalate params b member).1
  rw [List.append_nil] at whole
  unfold UrlParams.format
  rw [whole]
  exact List.append_nil _

/-- Parameters that are written are read as their bytes. -/
theorem parseQuery_format (params : UrlParams) :
    parseQuery (textEncode (params.format)) =
      params.map fun pair => (textEncode pair.1, textEncode pair.2) := by
  rw [textEncode_format, parseQuery]
  cases params with
  | nil => rfl
  | cons pair params =>
      rw [List.splitOn_intercalate]
      · rw [List.filterMap_map]
        have read : ∀ pair : JSString × JSString,
            (queryPair ∘ UrlParams.formatPiece) pair =
              some (textEncode pair.1, textEncode pair.2) :=
          queryPair_formatPiece
        rw [List.filterMap_congr fun pair _ => read pair,
          List.filterMap_eq_map']
      · intro piece member
        obtain ⟨pair, -, rfl⟩ := List.mem_map.mp member
        exact UrlParams.ampersand_notMem_formatPiece pair
      · simp

end Byteln.Library

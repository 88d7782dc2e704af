import Byteln.Client.RoomLink

/-!
# Text behind a link

A text that is pasted behind a link lands in its last parameter.  Keys,
verifiers and salts are read up to the first blank; a seat is compared whole.
-/

namespace Byteln.Client

open Byteln.Library

/-- White space at the start of a text, as it is or percent-encoded. -/
def StartsBlank (w : JSString) : Prop :=
  ∃ blank, isWhiteSpace blank = true ∧
    ((∃ rest, w = blank :: rest) ∨
      ∃ text rest, Escapes (utf8Bytes blank.toNat) text ∧
        w = ofAscii text ++ rest)

/-- What a tail adds to the last value of a link. -/
def tailValue (w : JSString) : JSString :=
  utf8Decode (formDecode (textEncode w))

theorem text_of_isWhiteSpace {u : UInt16} (blank : isWhiteSpace u = true) :
    isHighSurrogate u = false ∧ isLowSurrogate u = false ∧
      u.toNat ≠ 0x25 ∧ u.toNat ≠ 0x2b := by
  rw [Bool.eq_false_iff, Bool.eq_false_iff, ne_eq, ne_eq,
    toNat_of_isHighSurrogate, toNat_of_isLowSurrogate]
  simp only [isWhiteSpace, within, Bool.or_eq_true, Bool.and_eq_true,
    decide_eq_true_eq] at blank
  omega

theorem plain_of_isWhiteSpace {u : UInt16} (blank : isWhiteSpace u = true) :
    ∀ b ∈ utf8Bytes u.toNat, b ≠ 0x25 ∧ b ≠ 0x2b := by
  obtain ⟨-, -, percent, plus⟩ := text_of_isWhiteSpace blank
  have bound : u.toNat < 0x110000 := by
    have := u.toNat_lt
    omega
  intro b member
  constructor
  · rintro rfl
    exact percent (mem_utf8Bytes bound (by decide) member).symm
  · rintro rfl
    exact plus (mem_utf8Bytes bound (by decide) member).symm

theorem textEncode_cons {u : UInt16} (high : isHighSurrogate u = false)
    (low : isLowSurrogate u = false) (rest : JSString) :
    textEncode (u :: rest) = utf8Bytes u.toNat ++ textEncode rest := by
  unfold textEncode
  rw [codePoints_cons high low, List.flatMap_cons]

/-- A tail starts with white space also when it has been decoded. -/
theorem StartsBlank.tailValue {w : JSString} (blank : StartsBlank w) :
    ∃ u rest, tailValue w = u :: rest ∧ isWhiteSpace u = true := by
  obtain ⟨u, white, raw | escaped⟩ := blank
  · obtain ⟨rest, rfl⟩ := raw
    obtain ⟨high, low, -⟩ := text_of_isWhiteSpace white
    refine ⟨u, utf8Decode (formDecode (textEncode rest)), ?_, white⟩
    unfold Client.tailValue utf8Decode
    rw [textEncode_cons high low, formDecode_append
      (plain_of_isWhiteSpace white), decodePoints_utf8Bytes
      (isScalar_of_text high low), spell, List.flatMap_cons,
      pointUnits_toNat, List.singleton_append, spell]
  · obtain ⟨text, rest, escapes, rfl⟩ := escaped
    obtain ⟨high, low, -⟩ := text_of_isWhiteSpace white
    refine ⟨u, utf8Decode (formDecode (textEncode rest)), ?_, white⟩
    unfold Client.tailValue utf8Decode
    rw [textEncode_ofAscii_append rest escapes.ascii, escapes.formDecode,
      decodePoints_utf8Bytes (isScalar_of_text high low), spell,
      List.flatMap_cons, pointUnits_toNat, List.singleton_append, spell]

/-! ## Where a tail lands -/

/-- A text behind parameters lands in the last value. -/
theorem parse_pasted (params : UrlParams) {name value : JSString}
    (formed : UrlParams.WellFormed (params ++ [(name, value)]))
    {w : JSString} (apart : 0x26 ∉ w) :
    UrlParams.parse (withoutHash
        (0x23 :: (params ++ [(name, value)]).format ++ w)) =
      params ++ [(name, value ++ tailValue w)] := by
  have bytes : 0x26 ∉ textEncode w := fun member =>
    apart (mem_of_textEncode (by decide) member)
  have stripped : withoutHash
      (0x23 :: (params ++ [(name, value)]).format ++ w) =
      (params ++ [(name, value)]).format ++ w := if_pos rfl
  obtain ⟨named, valued⟩ := formed (name, value) (by simp)
  have earlier : UrlParams.WellFormed params := fun pair member =>
    formed pair (List.mem_append_left _ member)
  rw [stripped, UrlParams.parse_format_append params (name, value) bytes,
    earlier.repair, utf8Decode_textEncode_append,
    repair_of_isWellFormed named, repair_of_isWellFormed valued]
  rfl

theorem wellFormed_buildParams (opts : RoomHashOpts) :
    (buildParams opts).WellFormed := by
  rw [buildParams_eq]
  apply wellFormed_linkParams <;>
    exact isWellFormed_of_base64Url fun u => isBase64Url_of_mem

/-- Behind a link without a seat, a tail lands in the salt. -/
theorem parse_pasted_unseated {opts : RoomHashOpts} (seat : opts.seat = none)
    {w : JSString} (apart : 0x26 ∉ w) :
    UrlParams.parse (withoutHash (buildRoomHash opts ++ w)) =
      linkParams (bytesToBase64Url opts.keyRaw) (bytesToBase64Url opts.pv)
        (bytesToBase64Url opts.salt ++ tailValue w) none := by
  have formed := wellFormed_buildParams opts
  unfold buildRoomHash
  rw [buildParams_eq, seat] at formed ⊢
  exact parse_pasted [(js "key", _), (js "pv", _)] formed apart

/-- Behind a link with a seat, a tail lands in the seat. -/
theorem parse_pasted_seated {opts : RoomHashOpts} {seat : Fin 2}
    (seated : opts.seat = some seat) {w : JSString} (apart : 0x26 ∉ w) :
    UrlParams.parse (withoutHash (buildRoomHash opts ++ w)) =
      linkParams (bytesToBase64Url opts.keyRaw) (bytesToBase64Url opts.pv)
          (bytesToBase64Url opts.salt) none ++
        [(js "seat", seatText seat ++ tailValue w)] := by
  have formed := wellFormed_buildParams opts
  unfold buildRoomHash
  rw [buildParams_eq, seated] at formed ⊢
  exact parse_pasted [(js "key", _), (js "pv", _), (js "salt", _)] formed
    apart

/-! ## What is read of a pasted link -/

theorem get?_linkParams_append (key pv salt : JSString) (more : UrlParams) :
    UrlParams.get? (linkParams key pv salt none ++ more) (js "key") =
        some key ∧
      UrlParams.get? (linkParams key pv salt none ++ more) (js "pv") =
        some pv ∧
      UrlParams.get? (linkParams key pv salt none ++ more) (js "salt") =
        some salt := by
  obtain ⟨pvKey, saltKey, saltPv, -, -, -⟩ := names_apart
  unfold linkParams
  refine ⟨?_, ?_, ?_⟩
  · simp [UrlParams.get?]
  · simp [UrlParams.get?, pvKey.symm]
  · simp [UrlParams.get?, saltKey.symm, saltPv.symm]

/-- A seat with a tail is no seat. -/
theorem readSeat_pasted (key pv salt : JSString) (seat : Fin 2)
    {tail : JSString} (some_ : tail ≠ []) :
    readSeat (linkParams key pv salt none ++
      [(js "seat", seatText seat ++ tail)]) = none := by
  obtain ⟨-, -, -, keySeat, pvSeat, saltSeat⟩ := names_apart
  have found : UrlParams.get? (linkParams key pv salt none ++
      [(js "seat", seatText seat ++ tail)]) (js "seat") =
      some (seatText seat ++ tail) := by
    unfold linkParams
    simp [UrlParams.get?, keySeat, pvSeat, saltSeat]
  have one : (js "0").length = 1 ∧ (js "1").length = 1 :=
    ⟨rfl, rfl⟩
  have long : ∀ text : JSString, text.length = 1 →
      seatText seat ++ tail ≠ text := by
    intro text length same
    have lengths := congrArg List.length same
    have first : (seatText seat).length = 1 := by
      unfold seatText
      split
      · exact one.1
      · exact one.2
    have more := List.length_pos_of_ne_nil some_
    rw [List.length_append] at lengths
    omega
  unfold readSeat
  rw [found, if_neg fun same => long _ one.1 (Option.some.inj same),
    if_neg fun same => long _ one.2 (Option.some.inj same)]

theorem parseRoomFragment_pasted_seated {opts : RoomHashOpts} {seat : Fin 2}
    (seated : opts.seat = some seat) {w : JSString}
    (blank : StartsBlank w) (apart : 0x26 ∉ w) :
    parseRoomFragment (buildRoomHash opts ++ w) =
      if opts.keyRaw = [] then none
      else some (if opts.pv = [] ∨ opts.salt = [] then
          ⟨opts.keyRaw, [], [], none, true⟩
        else ⟨opts.keyRaw, opts.pv, opts.salt, none, false⟩) := by
  obtain ⟨u, rest, starts, -⟩ := blank.tailValue
  have parsed := parse_pasted_seated seated apart
  obtain ⟨key, pv, salt⟩ := get?_linkParams_append
    (bytesToBase64Url opts.keyRaw) (bytesToBase64Url opts.pv)
    (bytesToBase64Url opts.salt)
    [(js "seat", seatText seat ++ tailValue w)]
  rw [← parsed] at key pv salt
  have salted : (cleanValue ((UrlParams.parse (withoutHash
      (buildRoomHash opts ++ w))).get? (js "salt"))).getD [] =
      bytesToBase64Url opts.salt := by
    rw [salt, cleanValue_base64Url]
    rfl
  rw [parseRoomFragment_link key]
  split
  · rfl
  · rename_i some_
    rw [readParams_link key pv salted some_, parsed, readSeat_pasted]
    rw [starts]
    exact List.cons_ne_nil u rest

theorem parseRoomFragment_pasted_unseated {opts : RoomHashOpts}
    (seat : opts.seat = none) {w : JSString} (apart : 0x26 ∉ w)
    {salt : List UInt8}
    (salted : (cleanValue (some (bytesToBase64Url opts.salt ++
      tailValue w))).getD [] = bytesToBase64Url salt) :
    parseRoomFragment (buildRoomHash opts ++ w) =
      if opts.keyRaw = [] then none
      else some (if opts.pv = [] ∨ salt = [] then
          ⟨opts.keyRaw, [], [], none, true⟩
        else ⟨opts.keyRaw, opts.pv, salt, none, false⟩) := by
  have parsed := parse_pasted_unseated seat apart
  obtain ⟨key, pv, value⟩ := get?_linkParams (bytesToBase64Url opts.keyRaw)
    (bytesToBase64Url opts.pv) (bytesToBase64Url opts.salt ++ tailValue w)
    none
  rw [← parsed] at key pv value
  rw [← value] at salted
  rw [parseRoomFragment_link key]
  split
  · rfl
  · rename_i some_
    rw [readParams_link key pv salted some_, parsed, readSeat_linkParams]

/-- A salt survives a tail. -/
theorem cleanValue_salt {salt : List UInt8} (some_ : salt ≠ [])
    {w : JSString} (blank : StartsBlank w) :
    cleanValue (some (bytesToBase64Url salt ++ tailValue w)) =
      some (bytesToBase64Url salt) := by
  have text := bytesToBase64Url_ne_nil some_
  obtain ⟨u, rest, starts, white⟩ := blank.tailValue
  have clean : cleanB64UrlParam (bytesToBase64Url salt ++ tailValue w) =
      bytesToBase64Url salt := by
    apply cleanB64UrlParam_append (fun u => isBase64Url_of_mem) text
    intro v head
    rw [starts, List.head?_cons, Option.some.injEq] at head
    rw [← head]
    exact white
  unfold cleanValue
  rw [Option.bind_some, if_neg (by simp [text]), clean, if_neg text]

/-- Text in the place of a missing salt is taken for one. -/
theorem not_legacy_of_tail {opts : RoomHashOpts} (seat : opts.seat = none)
    (keyed : opts.keyRaw ≠ []) (verified : opts.pv ≠ [])
    (unsalted : opts.salt = []) {w : JSString} (apart : 0x26 ∉ w)
    (text : cleanB64UrlParam (tailValue w) ≠ []) :
    ∀ room, parseRoomFragment (buildRoomHash opts ++ w) = some room →
      room.legacy = false := by
  have parsed := parse_pasted_unseated seat apart
  obtain ⟨key, pv, value⟩ := get?_linkParams (bytesToBase64Url opts.keyRaw)
    (bytesToBase64Url opts.pv) (bytesToBase64Url opts.salt ++ tailValue w)
    none
  rw [← parsed] at key pv value
  obtain ⟨keyCleaned, pvCleaned, saltCleaned, -⟩ := cleanedValues
    (UrlParams.parse (withoutHash (buildRoomHash opts ++ w)))
  rw [key, cleanValue_base64Url] at keyCleaned
  rw [pv, cleanValue_base64Url] at pvCleaned
  have some_ : tailValue w ≠ [] := by
    intro none_
    rw [none_] at text
    exact text rfl
  have salted : cleanValue (some (bytesToBase64Url opts.salt ++
      tailValue w)) = some (cleanB64UrlParam (tailValue w)) := by
    rw [unsalted]
    show cleanValue (some (tailValue w)) = _
    unfold cleanValue
    rw [Option.bind_some, if_neg some_, if_neg text]
  rw [value, salted] at saltCleaned
  rw [parseRoomFragment_link key, if_neg keyed]
  intro room read
  unfold readParams at read
  simp only [keyCleaned, pvCleaned, saltCleaned, lacks, Option.getD_some,
    Option.bind_eq_bind, Option.bind_some, if_neg
    (bytesToBase64Url_ne_nil keyed), base64UrlToBytes_bytesToBase64Url,
    bytesToBase64Url_ne_nil verified, text, decide_false, Bool.or_self,
    Bool.false_eq_true, if_false, Option.bind_eq_some_iff,
    Option.some.injEq] at read
  obtain ⟨salt, -, rfl⟩ := read
  rfl

theorem parseRoomFragment_pasted_keyless {opts : RoomHashOpts}
    (seat : opts.seat = none) (keyless : opts.keyRaw = []) {w : JSString}
    (apart : 0x26 ∉ w) :
    parseRoomFragment (buildRoomHash opts ++ w) = none := by
  have key := (get?_linkParams (bytesToBase64Url opts.keyRaw)
    (bytesToBase64Url opts.pv) (bytesToBase64Url opts.salt ++ tailValue w)
    none).1
  rw [← parse_pasted_unseated seat apart] at key
  rw [parseRoomFragment_link key, if_pos keyless]

theorem parseRoomFragment_pasted_unverified {opts : RoomHashOpts}
    (seat : opts.seat = none) (keyed : opts.keyRaw ≠ [])
    (unverified : opts.pv = []) {w : JSString} (apart : 0x26 ∉ w) :
    parseRoomFragment (buildRoomHash opts ++ w) =
      some ⟨opts.keyRaw, [], [], none, true⟩ := by
  obtain ⟨key, pv, -⟩ := get?_linkParams (bytesToBase64Url opts.keyRaw)
    (bytesToBase64Url opts.pv) (bytesToBase64Url opts.salt ++ tailValue w)
    none
  rw [← parse_pasted_unseated seat apart] at key pv
  rw [unverified] at pv
  rw [parseRoomFragment_link key, if_neg keyed,
    readParams_unverified key pv keyed]

/-- No seat is behind whole parameters, and no text where a salt is missing. -/
structure TailIsHarmless (opts : RoomHashOpts) (w : JSString) : Prop where
  seat : opts.keyRaw ≠ [] → opts.pv ≠ [] → opts.salt ≠ [] → opts.seat = none
  salt : opts.keyRaw ≠ [] → opts.pv ≠ [] → opts.salt = [] →
    opts.seat = none → cleanB64UrlParam (tailValue w) = []

theorem pasted_seated_iff {opts : RoomHashOpts} {seat : Fin 2}
    (seated : opts.seat = some seat) {w : JSString} (blank : StartsBlank w)
    (apart : 0x26 ∉ w) :
    parseRoomFragment (buildRoomHash opts ++ w) =
        parseRoomFragment (buildRoomHash opts) ↔
      TailIsHarmless opts w := by
  have unseated : opts.seat ≠ none := by
    rw [seated]
    exact Option.some_ne_none seat
  rw [parseRoomFragment_buildRoomHash,
    parseRoomFragment_pasted_seated seated blank apart]
  by_cases keyed : opts.keyRaw = []
  · rw [if_pos keyed, if_pos keyed]
    exact iff_of_true rfl
      ⟨fun some_ => absurd keyed some_, fun some_ => absurd keyed some_⟩
  rw [if_neg keyed, if_neg keyed]
  by_cases lacking : opts.pv = [] ∨ opts.salt = []
  · rw [if_pos lacking, if_pos lacking]
    apply iff_of_true rfl
    constructor
    · intro _ verified salted
      exact absurd lacking (by simp [verified, salted])
    · intro _ _ _ none_
      exact absurd none_ unseated
  · rw [if_neg lacking, if_neg lacking, seated]
    apply iff_of_false
    · intro same
      cases congrArg RoomFragment.seat (Option.some.inj same)
    · intro harmless
      rw [not_or] at lacking
      exact unseated (harmless.seat keyed lacking.1 lacking.2)

theorem pasted_unseated_iff {opts : RoomHashOpts} (seat : opts.seat = none)
    {w : JSString} (blank : StartsBlank w) (apart : 0x26 ∉ w) :
    parseRoomFragment (buildRoomHash opts ++ w) =
        parseRoomFragment (buildRoomHash opts) ↔
      TailIsHarmless opts w := by
  by_cases salted : opts.salt ≠ []
  · have cleaned : (cleanValue (some (bytesToBase64Url opts.salt ++
        tailValue w))).getD [] = bytesToBase64Url opts.salt := by
      rw [cleanValue_salt salted blank]
      rfl
    rw [parseRoomFragment_buildRoomHash,
      parseRoomFragment_pasted_unseated seat apart cleaned, seat]
    exact iff_of_true rfl
      ⟨fun _ _ _ => seat, fun _ _ unsalted => absurd unsalted salted⟩
  rw [not_not] at salted
  by_cases keyed : opts.keyRaw = []
  · rw [parseRoomFragment_pasted_keyless seat keyed apart,
      parseRoomFragment_buildRoomHash, if_pos keyed]
    exact iff_of_true rfl
      ⟨fun _ _ _ => seat, fun some_ => absurd keyed some_⟩
  by_cases text : cleanB64UrlParam (tailValue w) = []
  · have cleaned : (cleanValue (some (bytesToBase64Url opts.salt ++
        tailValue w))).getD [] = bytesToBase64Url opts.salt := by
      rw [salted]
      show (cleanValue (some (tailValue w))).getD [] = []
      unfold cleanValue
      rw [Option.bind_some]
      split
      · rfl
      · rfl
    rw [parseRoomFragment_buildRoomHash,
      parseRoomFragment_pasted_unseated seat apart cleaned, seat]
    exact iff_of_true rfl ⟨fun _ _ _ => seat, fun _ _ _ _ => text⟩
  · by_cases verified : opts.pv = []
    · rw [parseRoomFragment_buildRoomHash, if_neg keyed,
        if_pos (Or.inl verified),
        parseRoomFragment_pasted_unverified seat keyed verified apart]
      exact iff_of_true rfl
        ⟨fun _ _ _ => seat, fun _ some_ => absurd verified some_⟩
    · apply iff_of_false
      · intro same
        have legacy := not_legacy_of_tail seat keyed verified salted apart text
        rw [same, parseRoomFragment_buildRoomHash, if_neg keyed,
          if_pos (Or.inr salted)] at legacy
        cases legacy _ rfl
      · intro harmless
        exact text (harmless.salt keyed verified salted seat)

/-- A text behind a link changes what is read of it where the link ends in a
seat, or in a salt that is missing. -/
theorem pasted_text_ignored_iff (opts : RoomHashOpts) {w : JSString}
    (blank : StartsBlank w) (apart : 0x26 ∉ w) :
    parseRoomFragment (buildRoomHash opts ++ w) =
        parseRoomFragment (buildRoomHash opts) ↔
      TailIsHarmless opts w := by
  cases seat : opts.seat with
  | none => exact pasted_unseated_iff seat blank apart
  | some seat' => exact pasted_seated_iff seat blank apart

theorem startsBlank_line (rest : JSString) : StartsBlank (0x0a :: rest) :=
  ⟨0x0a, by decide, .inl ⟨rest, rfl⟩⟩

theorem pasted_text_ignored_iff_shared :
    parseRoomFragment (buildRoomHash ⟨[7], [1], [2], none⟩ ++
        0x0a :: js "PIN: 123456") =
      parseRoomFragment (buildRoomHash ⟨[7], [1], [2], none⟩) :=
  (pasted_text_ignored_iff ⟨[7], [1], [2], none⟩ (startsBlank_line _)
    (by decide +kernel)).mpr
    ⟨fun _ _ _ => rfl, fun _ _ unsalted => absurd unsalted (by decide)⟩

/-- The creator's own link, with a PIN behind it. -/
theorem pasted_text_unseats :
    StartsBlank (0x0a :: js "PIN: 123456") ∧
      (0x26 : UInt16) ∉ (0x0a :: js "PIN: 123456" : JSString) ∧
      parseRoomFragment (buildRoomHash ⟨[7], [1], [2], some 0⟩) =
        some ⟨[7], [1], [2], some 0, false⟩ ∧
      parseRoomFragment (buildRoomHash ⟨[7], [1], [2], some 0⟩ ++
        0x0a :: js "PIN: 123456") = some ⟨[7], [1], [2], none, false⟩ := by
  have apart : (0x26 : UInt16) ∉ (0x0a :: js "PIN: 123456" : JSString) := by
    decide +kernel
  refine ⟨startsBlank_line _, apart, ?_, ?_⟩
  · exact parseRoomFragment_buildRoomHash ⟨[7], [1], [2], some 0⟩
  · exact @parseRoomFragment_pasted_seated ⟨[7], [1], [2], some 0⟩ 0 rfl _
      (startsBlank_line _) apart

end Byteln.Client

import Byteln.Client.Attachments
import Byteln.Client.Base64Url
import Byteln.Library.UrlParams

/-!
# Room links

The fragment of a room's link carries its key, its PIN verifier, its salt and
the creator's seat.  Links are pasted by hand, so that a text behind the link
is taken for a part of its last parameter.
-/

namespace Byteln.Client

open Byteln.Library

/-! ## Reading and writing -/

structure RoomFragment where
  keyRaw : List UInt8
  pv : List UInt8
  salt : List UInt8
  seat : Option (Fin 2)
  legacy : Bool
deriving DecidableEq

/-- What a link is built of. -/
structure RoomHashOpts where
  keyRaw : List UInt8
  pv : List UInt8
  salt : List UInt8
  seat : Option (Fin 2)

structure SanitizedHash where
  hash : JSString
  pinHint : Option JSString

def cleanB64UrlParam (value : JSString) : JSString :=
  (trim value).takeWhile isBase64Url

/-- `hash.replace(/^#/, '')`. -/
def withoutHash (hash : JSString) : JSString :=
  if hash.head? = some 0x23 then hash.tail else hash

/-- What follows a word, in whichever case it is written. -/
def afterWord (word s : JSString) : Option JSString :=
  let lower := fun u : UInt16 => if 0x41 ≤ u && u ≤ 0x5a then u + 0x20 else u
  if (s.take word.length).map lower = word then some (s.drop word.length)
  else none

/-- `PIN\s*:\s*(\d{6})` at the start of a text. -/
def pinAt (s : JSString) : Option JSString := do
  let name ← afterWord (js "pin") s
  let colon ← afterWord (js ":") (name.dropWhile isWhiteSpace)
  let digits := (colon.dropWhile isWhiteSpace).take 6
  if digits.length = 6 ∧ digits.all (fun u => 0x30 ≤ u && u ≤ 0x39) then
    some digits
  else none

/-- `(?:Room\s*PIN|PIN)\s*:\s*(\d{6})` at its first match. -/
def pinHint (raw : JSString) : Option JSString :=
  raw.tails.findSome? fun s =>
    (do
      let room ← afterWord (js "room") s
      pinAt (room.dropWhile isWhiteSpace)) <|> pinAt s

def cleanParam (params : UrlParams) (name : JSString) : UrlParams :=
  match params.get? name with
  | none => params
  | some v =>
      if v = [] then params
      else if cleanB64UrlParam v = [] then params.delete name
      else params.set name (cleanB64UrlParam v)

def cleanSeat (params : UrlParams) : UrlParams :=
  if params.get? (js "seat") = some (js "0") ∨
      params.get? (js "seat") = some (js "1") then params
  else params.delete (js "seat")

def cleanParams (params : UrlParams) : UrlParams :=
  cleanSeat (cleanParam (cleanParam (cleanParam params (js "key")) (js "pv"))
    (js "salt"))

/-- `!params.get(name)`. -/
def lacks (params : UrlParams) (name : JSString) : Bool :=
  (params.get? name).getD [] = []

/-- Fix pasted links where PIN text got appended into the URL fragment. -/
def sanitizeRoomFragmentInput (hash : JSString) : SanitizedHash :=
  let raw := withoutHash hash
  let params := cleanParams (UrlParams.parse raw)
  if lacks params (js "key") then ⟨hash, pinHint raw⟩
  else ⟨0x23 :: params.format, pinHint raw⟩

def readSeat (params : UrlParams) : Option (Fin 2) :=
  if params.get? (js "seat") = some (js "0") then some 0
  else if params.get? (js "seat") = some (js "1") then some 1
  else none

/-- The parameters of a cleaned link. -/
def readParams (params : UrlParams) : Option RoomFragment := do
  let keyStr ← params.get? (js "key")
  if keyStr = [] then none
  else
    let keyRaw ← base64UrlToBytes keyStr
    if lacks params (js "pv") || lacks params (js "salt") then
      some ⟨keyRaw, [], [], none, true⟩
    else
      let pv ← base64UrlToBytes ((params.get? (js "pv")).getD [])
      let salt ← base64UrlToBytes ((params.get? (js "salt")).getD [])
      some ⟨keyRaw, pv, salt, readSeat params, false⟩

def parseRoomFragment (hash : JSString) : Option RoomFragment :=
  readParams
    (UrlParams.parse (withoutHash (sanitizeRoomFragmentInput hash).hash))

def seatText (seat : Fin 2) : JSString :=
  if seat = 0 then js "0" else js "1"

def buildParams (opts : RoomHashOpts) : UrlParams :=
  let params := ((UrlParams.set [] (js "key")
    (bytesToBase64Url opts.keyRaw)).set (js "pv")
    (bytesToBase64Url opts.pv)).set (js "salt") (bytesToBase64Url opts.salt)
  match opts.seat with
  | none => params
  | some seat => params.set (js "seat") (seatText seat)

def buildRoomHash (opts : RoomHashOpts) : JSString :=
  0x23 :: (buildParams opts).format

/-- Partner share link — same room, no host seat marker. -/
def shareRoomHash (hash : JSString) : JSString :=
  0x23 :: ((UrlParams.parse (withoutHash hash)).delete (js "seat")).format

/-! ## Cleaning a link -/

theorem not_isWhiteSpace_of_base64Url {u : UInt16}
    (safe : isBase64Url u = true) : isWhiteSpace u = false := by
  rw [Bool.eq_false_iff]
  intro blank
  simp only [isBase64Url, isWhiteSpace, within, Bool.or_eq_true,
    Bool.and_eq_true, decide_eq_true_eq, UInt16.le_iff_toNat_le,
    ← UInt16.toNat_inj, UInt16.reduceToNat] at safe blank
  omega

theorem text_of_base64Url {u : UInt16} (safe : isBase64Url u = true) :
    isHighSurrogate u = false ∧ isLowSurrogate u = false := by
  rw [Bool.eq_false_iff, Bool.eq_false_iff, ne_eq, ne_eq,
    toNat_of_isHighSurrogate, toNat_of_isLowSurrogate]
  simp only [isBase64Url, Bool.or_eq_true, Bool.and_eq_true,
    decide_eq_true_eq, UInt16.le_iff_toNat_le, ← UInt16.toNat_inj,
    UInt16.reduceToNat] at safe
  omega

theorem isWellFormed_of_base64Url {s : JSString}
    (safe : ∀ u ∈ s, isBase64Url u = true) : isWellFormed s = true :=
  isWellFormed_of_text fun u member => text_of_base64Url (safe u member)

theorem trim_append {s : JSString} (safe : ∀ u ∈ s, isBase64Url u = true)
    (some_ : s ≠ []) (t : JSString) :
    trim (s ++ t) = s ++ t.rdropWhile isWhiteSpace := by
  have first : (s ++ t).dropWhile isWhiteSpace = s ++ t := by
    obtain ⟨u, rest, rfl⟩ := List.exists_cons_of_ne_nil some_
    apply List.dropWhile_cons_of_neg
    simp [not_isWhiteSpace_of_base64Url (safe u List.mem_cons_self)]
  have last : s.reverse.dropWhile isWhiteSpace = s.reverse := by
    apply dropWhile_eq_self
    intro u head
    apply not_isWhiteSpace_of_base64Url
    apply safe
    rw [List.head?_reverse] at head
    exact List.mem_of_getLast? head
  unfold trim List.rdropWhile
  rw [first, List.reverse_append, List.dropWhile_append]
  split
  · rename_i all
    rw [last, List.reverse_reverse, List.isEmpty_iff.mp all]
    simp
  · rw [List.reverse_append, List.reverse_reverse]

/-- A blank ends what is read. -/
theorem cleanB64UrlParam_append {s t : JSString}
    (safe : ∀ u ∈ s, isBase64Url u = true) (some_ : s ≠ [])
    (blank : ∀ u, t.head? = some u → isWhiteSpace u = true) :
    cleanB64UrlParam (s ++ t) = s := by
  unfold cleanB64UrlParam
  rw [trim_append safe some_, List.takeWhile_append_of_pos safe]
  have nothing : (t.rdropWhile isWhiteSpace).takeWhile isBase64Url = [] := by
    cases rest : t.rdropWhile isWhiteSpace with
    | nil => rfl
    | cons u units =>
        obtain ⟨dropped, whole⟩ := List.rdropWhile_prefix isWhiteSpace t
        rw [rest] at whole
        apply List.takeWhile_cons_of_neg
        intro safe'
        have white := blank u (by rw [← whole]; rfl)
        rw [not_isWhiteSpace_of_base64Url safe'] at white
        cases white
  rw [nothing, List.append_nil]

theorem cleanB64UrlParam_eq_self {s : JSString}
    (safe : ∀ u ∈ s, isBase64Url u = true) : cleanB64UrlParam s = s := by
  by_cases none_ : s = []
  · rw [none_]
    rfl
  · have whole := cleanB64UrlParam_append (t := []) safe none_ (by simp)
    rwa [List.append_nil] at whole

theorem isBase64Url_of_clean {v : JSString} :
    ∀ u ∈ cleanB64UrlParam v, isBase64Url u = true :=
  fun _ member => List.mem_takeWhile_imp member

/-- The first value of the name is clean, and no other follows it. -/
def IsClean (params : UrlParams) (name : JSString) : Prop :=
  ∀ v, params.get? name = some v → v ≠ [] →
    cleanB64UrlParam v = v ∧ params.named name = [(name, v)]

theorem cleanParam_eq_self {params : UrlParams} {name : JSString}
    (clean : IsClean params name) : cleanParam params name = params := by
  unfold cleanParam
  split
  · rfl
  · rename_i v found
    by_cases none_ : v = []
    · rw [if_pos none_]
    · obtain ⟨same, only⟩ := clean v found none_
      rw [if_neg none_, same, if_neg none_]
      apply UrlParams.set_eq_self only
      rw [← same]
      exact isWellFormed_of_base64Url isBase64Url_of_clean

theorem cleanParam_of_some {params : UrlParams} {name v : JSString}
    (found : params.get? name = some v) :
    cleanParam params name =
      if v = [] then params
      else if cleanB64UrlParam v = [] then params.delete name
      else params.set name (cleanB64UrlParam v) := by
  unfold cleanParam
  rw [found]

theorem isClean_cleanParam (params : UrlParams) (name : JSString) :
    IsClean (cleanParam params name) name := by
  cases first : params.get? name with
  | none =>
      have same : cleanParam params name = params := by
        unfold cleanParam
        rw [first]
      intro v found
      rw [same, first] at found
      cases found
  | some before =>
      intro v found some_
      have formed := isWellFormed_of_base64Url
        (isBase64Url_of_clean (v := before))
      rw [cleanParam_of_some first] at found ⊢
      by_cases none_ : before = []
      · rw [if_pos none_, first] at found
        exact absurd ((Option.some.inj found).symm.trans none_) some_
      · rw [if_neg none_] at found ⊢
        by_cases nothing : cleanB64UrlParam before = []
        · rw [if_pos nothing, UrlParams.get?_eq,
            UrlParams.named_delete_self] at found
          cases found
        · rw [if_neg nothing, UrlParams.get?_eq, UrlParams.named_set_self,
            repair_of_isWellFormed formed] at found
          obtain rfl := Option.some.inj found
          rw [if_neg nothing, UrlParams.named_set_self,
            repair_of_isWellFormed formed]
          exact ⟨cleanB64UrlParam_eq_self isBase64Url_of_clean, rfl⟩

theorem named_cleanParam_of_ne (params : UrlParams) {name other : JSString}
    (apart : other ≠ name) :
    (cleanParam params name).named other = params.named other := by
  unfold cleanParam
  split
  · rfl
  · split
    · rfl
    · split
      · exact UrlParams.named_delete_of_ne params apart
      · exact UrlParams.named_set_of_ne params apart _

theorem named_cleanSeat_of_ne (params : UrlParams) {name : JSString}
    (apart : name ≠ js "seat") :
    (cleanSeat params).named name = params.named name := by
  unfold cleanSeat
  split
  · rfl
  · exact UrlParams.named_delete_of_ne params apart

theorem IsClean.of_named {params params' : UrlParams} {name : JSString}
    (clean : IsClean params name)
    (same : params'.named name = params.named name) :
    IsClean params' name := by
  intro v found some_
  rw [UrlParams.get?_eq, same, ← UrlParams.get?_eq] at found
  rw [same]
  exact clean v found some_

theorem cleanSeat_cleanSeat (params : UrlParams) :
    cleanSeat (cleanSeat params) = cleanSeat params := by
  by_cases seat : params.get? (js "seat") = some (js "0") ∨
      params.get? (js "seat") = some (js "1")
  · have same : cleanSeat params = params := if_pos seat
    rw [same, same]
  · have same : cleanSeat params = params.delete (js "seat") := if_neg seat
    rw [same]
    unfold cleanSeat
    split
    · rfl
    · exact UrlParams.delete_eq_self (UrlParams.named_delete_self params _)

theorem names_apart :
    js "pv" ≠ js "key" ∧ js "salt" ≠ js "key" ∧ js "salt" ≠ js "pv" ∧
      js "key" ≠ js "seat" ∧ js "pv" ≠ js "seat" ∧ js "salt" ≠ js "seat" := by
  decide

theorem isClean_cleanParams (params : UrlParams) :
    IsClean (cleanParams params) (js "key") ∧
      IsClean (cleanParams params) (js "pv") ∧
      IsClean (cleanParams params) (js "salt") := by
  obtain ⟨pvKey, saltKey, saltPv, keySeat, pvSeat, saltSeat⟩ := names_apart
  refine ⟨?_, ?_, ?_⟩
  · apply (isClean_cleanParam params (js "key")).of_named
    rw [cleanParams, named_cleanSeat_of_ne _ keySeat,
      named_cleanParam_of_ne _ saltKey.symm,
      named_cleanParam_of_ne _ pvKey.symm]
  · apply (isClean_cleanParam (cleanParam params (js "key"))
      (js "pv")).of_named
    rw [cleanParams, named_cleanSeat_of_ne _ pvSeat,
      named_cleanParam_of_ne _ saltPv.symm]
  · apply (isClean_cleanParam (cleanParam (cleanParam params (js "key"))
      (js "pv")) (js "salt")).of_named
    rw [cleanParams, named_cleanSeat_of_ne _ saltSeat]

theorem cleanParams_cleanParams (params : UrlParams) :
    cleanParams (cleanParams params) = cleanParams params := by
  obtain ⟨key, pv, salt⟩ := isClean_cleanParams params
  have seat : cleanSeat (cleanParams params) = cleanParams params :=
    cleanSeat_cleanSeat _
  rw [cleanParams, cleanParam_eq_self key, cleanParam_eq_self pv,
    cleanParam_eq_self salt, seat]

theorem wellFormed_cleanParam {params : UrlParams} (formed : params.WellFormed)
    (name : JSString) (named : isWellFormed name = true) :
    (cleanParam params name).WellFormed := by
  unfold cleanParam
  split
  · exact formed
  · split
    · exact formed
    · split
      · exact formed.delete name
      · exact formed.set named _

theorem wellFormed_cleanParams {params : UrlParams}
    (formed : params.WellFormed) : (cleanParams params).WellFormed := by
  unfold cleanParams cleanSeat
  have cleaned := wellFormed_cleanParam (wellFormed_cleanParam
    (wellFormed_cleanParam formed (js "key") rfl)
    (js "pv") rfl) (js "salt") rfl
  split
  · exact cleaned
  · exact cleaned.delete _

/-- What is written behind a number sign is read without it. -/
theorem parse_withoutHash {params : UrlParams} (formed : params.WellFormed) :
    UrlParams.parse (withoutHash (0x23 :: params.format)) = params := by
  have written : withoutHash (0x23 :: params.format) = params.format :=
    if_pos rfl
  rw [written, UrlParams.parse_format, formed.repair]

theorem sanitizeRoomFragmentInput_of_key {hash : JSString}
    (key : lacks (cleanParams (UrlParams.parse (withoutHash hash)))
      (js "key") = false) :
    (sanitizeRoomFragmentInput hash).hash =
      0x23 :: (cleanParams (UrlParams.parse (withoutHash hash))).format := by
  unfold sanitizeRoomFragmentInput
  simp [key]

theorem sanitizeRoomFragmentInput_of_lacks {hash : JSString}
    (key : lacks (cleanParams (UrlParams.parse (withoutHash hash)))
      (js "key") = true) :
    (sanitizeRoomFragmentInput hash).hash = hash := by
  unfold sanitizeRoomFragmentInput
  simp [key]

/-- A link is cleaned once. -/
theorem sanitizeRoomFragmentInput_idem (hash : JSString) :
    (sanitizeRoomFragmentInput (sanitizeRoomFragmentInput hash).hash).hash =
      (sanitizeRoomFragmentInput hash).hash := by
  have formed := wellFormed_cleanParams
    (UrlParams.wellFormed_parse (withoutHash hash))
  cases key : lacks (cleanParams (UrlParams.parse (withoutHash hash)))
      (js "key") with
  | true =>
      rw [sanitizeRoomFragmentInput_of_lacks key,
        sanitizeRoomFragmentInput_of_lacks key]
  | false =>
      rw [sanitizeRoomFragmentInput_of_key key,
        sanitizeRoomFragmentInput_of_key]
      · rw [parse_withoutHash formed, cleanParams_cleanParams]
      · rw [parse_withoutHash formed, cleanParams_cleanParams]
        exact key

theorem parseRoomFragment_of_key {hash : JSString}
    (key : lacks (cleanParams (UrlParams.parse (withoutHash hash)))
      (js "key") = false) :
    parseRoomFragment hash =
      readParams (cleanParams (UrlParams.parse (withoutHash hash))) := by
  unfold parseRoomFragment
  rw [sanitizeRoomFragmentInput_of_key key, parse_withoutHash
    (wellFormed_cleanParams (UrlParams.wellFormed_parse _))]

/-! ## Reading a cleaned link -/

/-- The value that is left of a parameter. -/
def cleanValue (value : Option JSString) : Option JSString :=
  value.bind fun v =>
    if v = [] then some []
    else if cleanB64UrlParam v = [] then none
    else some (cleanB64UrlParam v)

theorem get?_cleanParam_self (params : UrlParams) (name : JSString) :
    (cleanParam params name).get? name = cleanValue (params.get? name) := by
  cases found : params.get? name with
  | none =>
      unfold cleanParam
      rw [found]
      exact found
  | some v =>
      have formed := isWellFormed_of_base64Url
        (isBase64Url_of_clean (v := v))
      rw [cleanParam_of_some found]
      unfold cleanValue
      rw [Option.bind_some]
      split
      · rename_i none_
        rw [found, none_]
      · split
        · rw [UrlParams.get?_eq, UrlParams.named_delete_self]
          rfl
        · rw [UrlParams.get?_eq, UrlParams.named_set_self,
            repair_of_isWellFormed formed]
          rfl

theorem get?_cleanParam_of_ne (params : UrlParams) {name other : JSString}
    (apart : other ≠ name) :
    (cleanParam params name).get? other = params.get? other := by
  rw [UrlParams.get?_eq, UrlParams.get?_eq, named_cleanParam_of_ne _ apart]

theorem get?_cleanSeat_of_ne (params : UrlParams) {name : JSString}
    (apart : name ≠ js "seat") :
    (cleanSeat params).get? name = params.get? name := by
  rw [UrlParams.get?_eq, UrlParams.get?_eq, named_cleanSeat_of_ne _ apart]

theorem readSeat_cleanSeat (params : UrlParams) :
    readSeat (cleanSeat params) = readSeat params := by
  by_cases seat : params.get? (js "seat") = some (js "0") ∨
      params.get? (js "seat") = some (js "1")
  · have same : cleanSeat params = params := if_pos seat
    rw [same]
  · have same : cleanSeat params = params.delete (js "seat") := if_neg seat
    rw [not_or] at seat
    rw [same]
    unfold readSeat
    rw [if_neg seat.1, if_neg seat.2, UrlParams.get?_eq,
      UrlParams.named_delete_self]
    rfl

/-- What is read of the cleaned parameters. -/
structure CleanedValues (params : UrlParams) : Prop where
  key : (cleanParams params).get? (js "key") =
    cleanValue (params.get? (js "key"))
  pv : (cleanParams params).get? (js "pv") =
    cleanValue (params.get? (js "pv"))
  salt : (cleanParams params).get? (js "salt") =
    cleanValue (params.get? (js "salt"))
  seat : readSeat (cleanParams params) = readSeat params

theorem cleanedValues (params : UrlParams) : CleanedValues params := by
  obtain ⟨pvKey, saltKey, saltPv, keySeat, pvSeat, saltSeat⟩ := names_apart
  constructor
  · rw [cleanParams, get?_cleanSeat_of_ne _ keySeat,
      get?_cleanParam_of_ne _ saltKey.symm,
      get?_cleanParam_of_ne _ pvKey.symm, get?_cleanParam_self]
  · rw [cleanParams, get?_cleanSeat_of_ne _ pvSeat,
      get?_cleanParam_of_ne _ saltPv.symm, get?_cleanParam_self,
      get?_cleanParam_of_ne _ pvKey]
  · rw [cleanParams, get?_cleanSeat_of_ne _ saltSeat, get?_cleanParam_self,
      get?_cleanParam_of_ne _ saltPv, get?_cleanParam_of_ne _ saltKey]
  · rw [cleanParams, readSeat_cleanSeat]
    unfold readSeat
    rw [get?_cleanParam_of_ne _ saltSeat.symm,
      get?_cleanParam_of_ne _ pvSeat.symm,
      get?_cleanParam_of_ne _ keySeat.symm]

theorem cleanValue_base64Url (bytes : List UInt8) :
    cleanValue (some (bytesToBase64Url bytes)) =
      some (bytesToBase64Url bytes) := by
  have same := cleanB64UrlParam_eq_self
    fun u (member : u ∈ bytesToBase64Url bytes) => isBase64Url_of_mem member
  unfold cleanValue
  rw [Option.bind_some, same]
  split
  · rename_i none_
    rw [none_]
  · rfl

theorem bytesToBase64Url_eq_nil {bytes : List UInt8} :
    bytesToBase64Url bytes = [] ↔ bytes = [] := by
  constructor
  · intro none_
    by_contra some_
    exact bytesToBase64Url_ne_nil some_ none_
  · rintro rfl
    rfl

/-- Parameters whose key is that of a link. -/
theorem parseRoomFragment_link {hash : JSString} {keyRaw : List UInt8}
    (key : (UrlParams.parse (withoutHash hash)).get? (js "key") =
      some (bytesToBase64Url keyRaw)) :
    parseRoomFragment hash =
      if keyRaw = [] then none
      else readParams (cleanParams (UrlParams.parse (withoutHash hash))) := by
  have cleaned := (cleanedValues (UrlParams.parse (withoutHash hash))).key
  rw [key, cleanValue_base64Url] at cleaned
  split
  · rename_i none_
    have lack : lacks (cleanParams (UrlParams.parse (withoutHash hash)))
        (js "key") = true := by
      simp [lacks, cleaned, bytesToBase64Url_eq_nil, none_]
    unfold parseRoomFragment
    rw [sanitizeRoomFragmentInput_of_lacks lack]
    unfold readParams
    rw [key, none_]
    rfl
  · rename_i some_
    apply parseRoomFragment_of_key
    simp [lacks, cleaned, bytesToBase64Url_eq_nil, some_]

/-- The parameters of a link, the salt of which may have been cleaned. -/
theorem readParams_link {params : UrlParams} {keyRaw pv salt : List UInt8}
    (key : params.get? (js "key") = some (bytesToBase64Url keyRaw))
    (verifier : params.get? (js "pv") = some (bytesToBase64Url pv))
    (salted : (cleanValue (params.get? (js "salt"))).getD [] =
      bytesToBase64Url salt)
    (some_ : keyRaw ≠ []) :
    readParams (cleanParams params) =
      some (if pv = [] ∨ salt = [] then ⟨keyRaw, [], [], none, true⟩
        else ⟨keyRaw, pv, salt, readSeat params, false⟩) := by
  obtain ⟨keyed, verified, salting, seated⟩ := cleanedValues params
  rw [key, cleanValue_base64Url] at keyed
  rw [verifier, cleanValue_base64Url] at verified
  rw [← salting] at salted
  have text : bytesToBase64Url keyRaw ≠ [] := bytesToBase64Url_ne_nil some_
  have lackPv : lacks (cleanParams params) (js "pv") =
      decide (pv = []) := by
    simp [lacks, verified, bytesToBase64Url_eq_nil]
  have lackSalt : lacks (cleanParams params) (js "salt") =
      decide (salt = []) := by
    simp [lacks, salted, bytesToBase64Url_eq_nil]
  unfold readParams
  simp only [keyed, Option.bind_eq_bind, Option.bind_some, if_neg text,
    base64UrlToBytes_bytesToBase64Url, lackPv, lackSalt, verified, salted,
    Option.getD_some, seated, Bool.or_eq_true, decide_eq_true_eq]
  split <;> rfl

theorem readParams_unverified {params : UrlParams} {keyRaw : List UInt8}
    (key : params.get? (js "key") = some (bytesToBase64Url keyRaw))
    (verifier : params.get? (js "pv") = some []) (some_ : keyRaw ≠ []) :
    readParams (cleanParams params) = some ⟨keyRaw, [], [], none, true⟩ := by
  obtain ⟨keyed, verified, -, -⟩ := cleanedValues params
  rw [key, cleanValue_base64Url] at keyed
  rw [verifier] at verified
  have lackPv : lacks (cleanParams params) (js "pv") = true := by
    unfold lacks
    rw [verified]
    rfl
  unfold readParams
  simp only [keyed, Option.bind_eq_bind, Option.bind_some,
    if_neg (bytesToBase64Url_ne_nil some_), lackPv, Bool.true_or, if_true,
    base64UrlToBytes_bytesToBase64Url]

/-! ## Built links -/

/-- The parameters of a link. -/
def linkParams (key pv salt : JSString) (seat : Option (Fin 2)) : UrlParams :=
  [(js "key", key), (js "pv", pv), (js "salt", salt)] ++
    (seat.map fun seat => (js "seat", seatText seat)).toList

theorem buildParams_eq (opts : RoomHashOpts) :
    buildParams opts =
      linkParams (bytesToBase64Url opts.keyRaw) (bytesToBase64Url opts.pv)
        (bytesToBase64Url opts.salt) opts.seat := by
  obtain ⟨pvKey, saltKey, saltPv, keySeat, pvSeat, saltSeat⟩ := names_apart
  have same : ∀ bytes, repair (bytesToBase64Url bytes) =
      bytesToBase64Url bytes := fun bytes =>
    repair_of_isWellFormed (isWellFormed_of_base64Url
      fun u => isBase64Url_of_mem)
  have seated : ∀ seat, repair (seatText seat) = seatText seat := by
    decide
  unfold buildParams linkParams
  cases opts.seat with
  | none =>
      simp [UrlParams.set, same, pvKey.symm, saltKey.symm, saltPv.symm]
  | some seat =>
      simp [UrlParams.set, same, seated, pvKey.symm, saltKey.symm,
        saltPv.symm, keySeat, pvSeat, saltSeat]

theorem get?_linkParams (key pv salt : JSString) (seat : Option (Fin 2)) :
    (linkParams key pv salt seat).get? (js "key") = some key ∧
      (linkParams key pv salt seat).get? (js "pv") = some pv ∧
      (linkParams key pv salt seat).get? (js "salt") = some salt := by
  obtain ⟨pvKey, saltKey, saltPv, -, -, -⟩ := names_apart
  unfold linkParams
  refine ⟨?_, ?_, ?_⟩
  · simp [UrlParams.get?]
  · simp [UrlParams.get?, pvKey.symm]
  · simp [UrlParams.get?, saltKey.symm, saltPv.symm]

theorem readSeat_linkParams (key pv salt : JSString)
    (seat : Option (Fin 2)) :
    readSeat (linkParams key pv salt seat) = seat := by
  obtain ⟨-, -, -, keySeat, pvSeat, saltSeat⟩ := names_apart
  have texts : js "1" ≠ js "0" := by decide
  have found : (linkParams key pv salt seat).get? (js "seat") =
      seat.map seatText := by
    unfold linkParams
    cases seat with
    | none => simp [UrlParams.get?, keySeat, pvSeat, saltSeat]
    | some seat => simp [UrlParams.get?, keySeat, pvSeat, saltSeat]
  unfold readSeat
  rw [found]
  match seat with
  | none => rfl
  | some 0 => rfl
  | some 1 => simp [seatText, texts]

theorem wellFormed_linkParams {key pv salt : JSString}
    (keyed : isWellFormed key = true) (verified : isWellFormed pv = true)
    (salted : isWellFormed salt = true) (seat : Option (Fin 2)) :
    (linkParams key pv salt seat).WellFormed := by
  have names : ∀ name ∈ [js "key", js "pv", js "salt", js "seat"],
      isWellFormed name = true := by
    simp only [List.forall_mem_cons]
    exact ⟨rfl, rfl, rfl, rfl, List.forall_mem_nil _⟩
  have seated : ∀ seat, isWellFormed (seatText seat) = true := by
    decide
  intro pair member
  unfold linkParams at member
  rw [List.mem_append] at member
  rcases member with member | member
  · simp only [List.mem_cons, List.not_mem_nil, or_false] at member
    rcases member with rfl | rfl | rfl
    · exact ⟨names _ (by simp), keyed⟩
    · exact ⟨names _ (by simp), verified⟩
    · exact ⟨names _ (by simp), salted⟩
  · simp only [Option.mem_toList, Option.map_eq_some_iff] at member
    obtain ⟨seat, -, rfl⟩ := member
    exact ⟨names _ (by simp), seated seat⟩

theorem parse_buildRoomHash (opts : RoomHashOpts) :
    UrlParams.parse (withoutHash (buildRoomHash opts)) = buildParams opts := by
  unfold buildRoomHash
  apply parse_withoutHash
  rw [buildParams_eq]
  apply wellFormed_linkParams <;>
    exact isWellFormed_of_base64Url fun u => isBase64Url_of_mem

theorem parse_shareRoomHash (opts : RoomHashOpts) :
    UrlParams.parse (withoutHash (shareRoomHash (buildRoomHash opts))) =
      linkParams (bytesToBase64Url opts.keyRaw) (bytesToBase64Url opts.pv)
        (bytesToBase64Url opts.salt) none := by
  obtain ⟨-, -, -, keySeat, pvSeat, saltSeat⟩ := names_apart
  unfold shareRoomHash
  rw [parse_buildRoomHash, buildParams_eq]
  have shared : (linkParams (bytesToBase64Url opts.keyRaw)
      (bytesToBase64Url opts.pv) (bytesToBase64Url opts.salt)
      opts.seat).delete (js "seat") =
      linkParams (bytesToBase64Url opts.keyRaw) (bytesToBase64Url opts.pv)
        (bytesToBase64Url opts.salt) none := by
    unfold linkParams
    cases opts.seat with
    | none => simp [UrlParams.delete, keySeat, pvSeat, saltSeat]
    | some seat => simp [UrlParams.delete, keySeat, pvSeat, saltSeat]
  rw [shared]
  apply parse_withoutHash
  apply wellFormed_linkParams <;>
    exact isWellFormed_of_base64Url fun u => isBase64Url_of_mem

/-- What a link is read as, when nothing is behind it. -/
theorem parseRoomFragment_buildRoomHash (opts : RoomHashOpts) :
    parseRoomFragment (buildRoomHash opts) =
      if opts.keyRaw = [] then none
      else some (if opts.pv = [] ∨ opts.salt = [] then
          ⟨opts.keyRaw, [], [], none, true⟩
        else ⟨opts.keyRaw, opts.pv, opts.salt, opts.seat, false⟩) := by
  have found := get?_linkParams (bytesToBase64Url opts.keyRaw)
    (bytesToBase64Url opts.pv) (bytesToBase64Url opts.salt) opts.seat
  rw [← buildParams_eq, ← parse_buildRoomHash] at found
  obtain ⟨key, pv, salt⟩ := found
  have salted : (cleanValue ((UrlParams.parse (withoutHash
      (buildRoomHash opts))).get? (js "salt"))).getD [] =
      bytesToBase64Url opts.salt := by
    rw [salt, cleanValue_base64Url]
    rfl
  rw [parseRoomFragment_link key]
  split
  · rfl
  · rename_i some_
    rw [readParams_link key pv salted some_, parse_buildRoomHash,
      buildParams_eq, readSeat_linkParams]

theorem parseRoomFragment_shareRoomHash {opts : RoomHashOpts}
    (keyed : opts.keyRaw ≠ []) (verified : opts.pv ≠ [])
    (salted : opts.salt ≠ []) :
    parseRoomFragment (shareRoomHash (buildRoomHash opts)) =
      some ⟨opts.keyRaw, opts.pv, opts.salt, none, false⟩ := by
  have found := get?_linkParams (bytesToBase64Url opts.keyRaw)
    (bytesToBase64Url opts.pv) (bytesToBase64Url opts.salt) none
  rw [← parse_shareRoomHash] at found
  obtain ⟨key, pv, salt⟩ := found
  have cleaned : (cleanValue ((UrlParams.parse (withoutHash
      (shareRoomHash (buildRoomHash opts)))).get? (js "salt"))).getD [] =
      bytesToBase64Url opts.salt := by
    rw [salt, cleanValue_base64Url]
    rfl
  rw [parseRoomFragment_link key, if_neg keyed,
    readParams_link key pv cleaned keyed, if_neg (by simp [verified, salted]),
    parse_shareRoomHash, readSeat_linkParams]

/-- A link carries its bytes and the seat, its shared form the bytes alone;
cleaning a text once is enough. -/
theorem room_links_survive :
    (∀ opts : RoomHashOpts, opts.keyRaw ≠ [] → opts.pv ≠ [] →
      opts.salt ≠ [] →
        parseRoomFragment (buildRoomHash opts) =
            some ⟨opts.keyRaw, opts.pv, opts.salt, opts.seat, false⟩ ∧
          parseRoomFragment (shareRoomHash (buildRoomHash opts)) =
            (parseRoomFragment (buildRoomHash opts)).map
              fun room => { room with seat := none }) ∧
      ∀ hash : JSString,
        (sanitizeRoomFragmentInput
            (sanitizeRoomFragmentInput hash).hash).hash =
          (sanitizeRoomFragmentInput hash).hash := by
  constructor
  · intro opts keyed verified salted
    have read : parseRoomFragment (buildRoomHash opts) =
        some ⟨opts.keyRaw, opts.pv, opts.salt, opts.seat, false⟩ := by
      rw [parseRoomFragment_buildRoomHash, if_neg keyed,
        if_neg (by simp [verified, salted])]
    refine ⟨read, ?_⟩
    rw [read, parseRoomFragment_shareRoomHash keyed verified salted]
    rfl
  · exact sanitizeRoomFragmentInput_idem

theorem room_links_survive_seated :
    parseRoomFragment (buildRoomHash ⟨[7], [0xfb, 1], [2, 3, 4], some 1⟩) =
      some ⟨[7], [0xfb, 1], [2, 3, 4], some 1, false⟩ :=
  (room_links_survive.1 ⟨[7], [0xfb, 1], [2, 3, 4], some 1⟩ (by decide)
    (by decide) (by decide)).1

end Byteln.Client

import Byteln.Client.RoomLink

/-!
# Handoff channels

A device shows a link with a fresh channel, its one-time key and its relay;
the device that scans it opens the same channel.
-/

namespace Byteln.Client

open Byteln.Library

/-! ## Channels in links -/

structure HandoffChannel where
  channelId : JSString
  keyRaw : List UInt8
  relayUrl : JSString
deriving DecidableEq

def bucketAlphabet : JSString :=
  js "abcdefghijklmnopqrstuvwxyz0123456789"

/-- The bytes are those that have been drawn. -/
def randomBucketId {len : Nat} (bytes : Fin len → UInt8) : JSString :=
  List.ofFn fun i =>
    bucketAlphabet.getD ((bytes i).toNat % bucketAlphabet.length) 0

/-- A channel, with the bytes that are drawn for its id and its key. -/
def createHandoffChannel (idBytes : Fin 20 → UInt8)
    (keyBytes : Fin 32 → UInt8) (relayUrl : JSString) : HandoffChannel where
  channelId := randomBucketId idBytes
  keyRaw := List.ofFn keyBytes
  relayUrl := relayUrl

def handoffParams (ch : HandoffChannel) : UrlParams :=
  [(js "ch", repair ch.channelId),
    (js "k", repair (bytesToBase64Url ch.keyRaw)),
    (js "r", repair ch.relayUrl)]

def handoffUrl (origin : JSString) (ch : HandoffChannel) : JSString :=
  origin ++ (js "/handoff#" ++ (handoffParams ch).format)

/-- `/^[A-Za-z0-9_-]{4,32}$/`. -/
def isBucketId (s : JSString) : Bool :=
  4 ≤ s.length && s.length ≤ 32 && s.all isBase64Url

/-- `/^wss?:\/\//i`. -/
def isWebSocketUrl (s : JSString) : Bool :=
  (afterWord (js "ws://") s).isSome || (afterWord (js "wss://") s).isSome

def parseHandoffFragment (hash : JSString) : Option HandoffChannel :=
  let params := UrlParams.parse (withoutHash hash)
  let channelId := (params.get? (js "ch")).getD []
  let k := (params.get? (js "k")).getD []
  let relayUrl := (params.get? (js "r")).getD []
  if !isBucketId channelId || !isWebSocketUrl relayUrl then none
  else
    match base64UrlToBytes k with
    | none => none
    | some keyRaw =>
        if keyRaw.length ≠ 32 then none
        else some ⟨channelId, keyRaw, relayUrl⟩

/-- The path of a link, by `pathname`, is nothing where the source throws. -/
def parseHandoffScan (pathname : JSString → Option JSString)
    (value : JSString) : Option HandoffChannel :=
  let i := value.idxOf 0x23
  if i = value.length then none
  else if i = 0 then parseHandoffFragment value
  else
    match pathname value with
    | none => none
    | some path =>
        if (js "/handoff").isPrefixOf path then
          parseHandoffFragment (value.drop i)
        else none

/-- The WebSocket URL that a client connects to. -/
def wsBase (relayBase : JSString) : JSString :=
  let base := if relayBase.getLast? = some 0x2f then relayBase.dropLast
    else relayBase
  if (js "http").isPrefixOf base then js "ws" ++ base.drop 4
  else if (js "ws").isPrefixOf base then base
  else js "ws://" ++ base

/-- The origin of a page, in front of its path and fragment. -/
structure PageOrigin (pathname : JSString → Option JSString)
    (origin : JSString) : Prop where
  whole : 0x23 ∉ origin
  path : ∀ fragment,
    pathname (origin ++ (js "/handoff#" ++ fragment)) = some (js "/handoff")

/-! ## A channel survives -/

theorem isBase64Url_bucketAlphabet :
    ∀ u ∈ bucketAlphabet, isBase64Url u = true := by
  have all : bucketAlphabet.all isBase64Url = true :=
    rfl
  exact List.all_eq_true.mp all

theorem isBase64Url_of_randomBucketId {len : Nat} {bytes : Fin len → UInt8} :
    ∀ u ∈ randomBucketId bytes, isBase64Url u = true := by
  intro u member
  obtain ⟨i, rfl⟩ := List.mem_ofFn.mp member
  have inside : (bytes i).toNat % bucketAlphabet.length <
      bucketAlphabet.length :=
    Nat.mod_lt _ (by decide)
  rw [List.getD_eq_getElem _ _ inside]
  exact isBase64Url_bucketAlphabet _ (List.getElem_mem inside)

theorem isBucketId_randomBucketId (bytes : Fin 20 → UInt8) :
    isBucketId (randomBucketId bytes) = true := by
  have length : (randomBucketId bytes).length = 20 := List.length_ofFn
  have safe : (randomBucketId bytes).all isBase64Url = true :=
    List.all_eq_true.mpr isBase64Url_of_randomBucketId
  unfold isBucketId
  rw [length, safe]
  rfl

theorem handoffParams_wellFormed (ch : HandoffChannel) :
    (handoffParams ch).WellFormed := by
  have names : isWellFormed (js "ch") = true ∧
      isWellFormed (js "k") = true ∧ isWellFormed (js "r") = true :=
    ⟨rfl, rfl, rfl⟩
  intro pair member
  unfold handoffParams at member
  simp only [List.mem_cons, List.not_mem_nil, or_false] at member
  rcases member with rfl | rfl | rfl
  · exact ⟨names.1, isWellFormed_repair _⟩
  · exact ⟨names.2.1, isWellFormed_repair _⟩
  · exact ⟨names.2.2, isWellFormed_repair _⟩

/-- What a fragment is read as. -/
theorem parseHandoffFragment_format (idBytes : Fin 20 → UInt8)
    (keyBytes : Fin 32 → UInt8) (relayUrl : JSString) :
    parseHandoffFragment (0x23 :: (handoffParams
        (createHandoffChannel idBytes keyBytes relayUrl)).format) =
      if isWebSocketUrl (repair relayUrl) = true then
        some (createHandoffChannel idBytes keyBytes (repair relayUrl))
      else none := by
  have names : js "k" ≠ js "ch" ∧ js "r" ≠ js "ch" ∧ js "r" ≠ js "k" := by
    decide
  have id : repair (randomBucketId idBytes) = randomBucketId idBytes :=
    repair_of_isWellFormed
      (isWellFormed_of_base64Url isBase64Url_of_randomBucketId)
  have key : repair (bytesToBase64Url (List.ofFn keyBytes)) =
      bytesToBase64Url (List.ofFn keyBytes) :=
    repair_of_isWellFormed
      (isWellFormed_of_base64Url fun u => isBase64Url_of_mem)
  have length : (List.ofFn keyBytes).length = 32 := List.length_ofFn
  unfold parseHandoffFragment
  rw [parse_withoutHash (handoffParams_wellFormed _)]
  simp only [handoffParams, createHandoffChannel, UrlParams.get?, id, key,
    List.find?_cons, names.1.symm, names.2.1.symm, names.2.2.symm,
    decide_true, decide_false, Option.map_some, Option.getD_some,
    isBucketId_randomBucketId, base64UrlToBytes_bytesToBase64Url, length,
    Bool.not_true, Bool.false_or, Bool.not_eq_true', ne_eq,
    not_true_eq_false, if_false]
  cases isWebSocketUrl (repair relayUrl) <;> rfl

theorem parseHandoffScan_handoffUrl {pathname : JSString → Option JSString}
    {origin : JSString} (page : PageOrigin pathname origin)
    (ch : HandoffChannel) :
    parseHandoffScan pathname (handoffUrl origin ch) =
      parseHandoffFragment (0x23 :: (handoffParams ch).format) := by
  obtain ⟨whole, path⟩ := page
  have parted : handoffUrl origin ch =
      (origin ++ js "/handoff") ++ 0x23 :: (handoffParams ch).format := by
    have word : js "/handoff#" = js "/handoff" ++ [0x23] :=
      rfl
    unfold handoffUrl
    rw [word]
    simp
  have word : (0x23 : UInt16) ∉ js "/handoff" ∧ js "/handoff" ≠ [] := by
    decide
  have before : 0x23 ∉ origin ++ js "/handoff" := by
    rw [List.mem_append, not_or]
    exact ⟨whole, word.1⟩
  have index : (handoffUrl origin ch).idxOf 0x23 =
      (origin ++ js "/handoff").length := by
    rw [parted, List.idxOf_append_of_notMem before, List.idxOf_cons_self,
      Nat.add_zero]
  have some_ : (origin ++ js "/handoff").length ≠ 0 := by
    rw [ne_eq, List.length_eq_zero_iff]
    exact List.append_ne_nil_of_right_ne_nil origin word.2
  have length : (handoffUrl origin ch).length =
      (origin ++ js "/handoff").length +
        ((handoffParams ch).format.length + 1) := by
    rw [parted, List.length_append, List.length_cons]
  have inside : (origin ++ js "/handoff").length ≠
      (handoffUrl origin ch).length := by
    omega
  have rest : (handoffUrl origin ch).drop
      (origin ++ js "/handoff").length =
      0x23 :: (handoffParams ch).format := by
    rw [parted, List.drop_left]
  have starts : (js "/handoff").isPrefixOf (js "/handoff") = true :=
    rfl
  unfold parseHandoffScan
  rw [index, if_neg inside, if_neg some_, rest]
  unfold handoffUrl
  rw [path]
  exact if_pos starts

/-- A channel survives its link where its relay is a WebSocket URL. -/
theorem handoff_round_trip_iff {pathname : JSString → Option JSString}
    {origin : JSString} (page : PageOrigin pathname origin)
    (idBytes : Fin 20 → UInt8) (keyBytes : Fin 32 → UInt8)
    (relayUrl : JSString) :
    parseHandoffScan pathname
        (handoffUrl origin (createHandoffChannel idBytes keyBytes relayUrl)) =
        some (createHandoffChannel idBytes keyBytes relayUrl) ↔
      isWebSocketUrl relayUrl = true ∧ isWellFormed relayUrl = true := by
  rw [parseHandoffScan_handoffUrl page, parseHandoffFragment_format]
  constructor
  · intro read
    split at read
    · rename_i socket
      have same : repair relayUrl = relayUrl :=
        congrArg HandoffChannel.relayUrl (Option.some.inj read)
      rw [same] at socket
      exact ⟨socket, repair_eq_self_iff.mp same⟩
    · cases read
  · rintro ⟨socket, formed⟩
    rw [repair_of_isWellFormed formed, if_pos socket]

/-- The path of links to a handoff page. -/
def handoffPath (origin value : JSString) : Option JSString :=
  if (origin ++ js "/handoff#").isPrefixOf value then some (js "/handoff")
  else none

theorem handoffPath_page {origin : JSString} (whole : 0x23 ∉ origin) :
    PageOrigin (handoffPath origin) origin where
  whole := whole
  path fragment := by
    unfold handoffPath
    rw [← List.append_assoc, if_pos]
    exact List.isPrefixOf_iff_prefix.mpr (List.prefix_append _ _)

theorem handoff_round_trip_iff_socket :
    parseHandoffScan (handoffPath (js "https://byteln.com"))
        (handoffUrl (js "https://byteln.com")
          (createHandoffChannel 0 7 (js "wss://byteln.com"))) =
      some (createHandoffChannel 0 7 (js "wss://byteln.com")) :=
  (handoff_round_trip_iff (handoffPath_page (by decide +kernel)) 0 7
    (js "wss://byteln.com")).mpr (by decide +kernel)

/-- A client connects to a relay the link of which is refused. -/
theorem handoff_refuses_http :
    wsBase (js "https://byteln.com") = js "wss://byteln.com" ∧
      PageOrigin (handoffPath (js "https://byteln.com"))
        (js "https://byteln.com") ∧
      parseHandoffScan (handoffPath (js "https://byteln.com"))
        (handoffUrl (js "https://byteln.com")
          (createHandoffChannel 0 7 (js "https://byteln.com"))) = none := by
  have page : PageOrigin (handoffPath (js "https://byteln.com"))
      (js "https://byteln.com") :=
    handoffPath_page (by decide +kernel)
  refine ⟨by decide +kernel, page, ?_⟩
  rw [parseHandoffScan_handoffUrl page, parseHandoffFragment_format]
  decide +kernel

end Byteln.Client

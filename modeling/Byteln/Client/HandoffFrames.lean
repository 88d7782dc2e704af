import Byteln.Client.Handoff
import Byteln.Client.PlaintextRoundTrip
import Byteln.Library.Aead

/-!
# Handoff frames

A room and its acknowledgement, sealed under the one-time key of a channel.
A frame opens on its channel alone, and a room arrives if it is one that can
be joined; its link then leads to the same room, without the host's seat.
-/

namespace Byteln.Client

open Byteln.Library

structure HandoffRoom where
  bucketId : JSString
  roomHash : JSString
  pin : JSString
deriving DecidableEq

inductive HandoffMessage where
  | room (room : HandoffRoom)
  | ack
deriving DecidableEq

def FRAME_VERSION : UInt8 := 1

/-- `/^\d{6}$/`. -/
def isPin (s : JSString) : Bool :=
  s.length = 6 && s.all isDigitUnit

/-- AES-GCM takes keys of three lengths. -/
def importChannelKey (ch : HandoffChannel) : Option (List UInt8) :=
  if ch.keyRaw.length ∈ [16, 24, 32] then some ch.keyRaw else none

section

variable (ν : Type) [Numeric ν]

def HandoffMessage.toJson : HandoffMessage → Json ν
  | .room r => .record
      [(js "t", some (.string (js "room"))),
        (js "bucketId", some (.string r.bucketId)),
        (js "roomHash", some (.string r.roomHash)),
        (js "pin", some (.string r.pin))]
  | .ack => .record [(js "t", some (.string (js "ack")))]

/-- A frame, with the initialization vector that is drawn; nothing where the
key is refused. -/
def sealHandoff (aead : Aead) (ch : HandoffChannel) (iv : Vector UInt8 12)
    (msg : HandoffMessage) : Option (List UInt8) := do
  let key ← importChannelKey ch
  some (aead.record FRAME_VERSION key iv.toList (textEncode ch.channelId)
    (encodeObject (msg.toJson ν)))

end

section

variable {ν : Type} [Numeric ν]

def validateMessage (raw : Json ν) : Option HandoffMessage :=
  if !raw.isObject then none
  else if stringAt raw "t" = some (js "ack") then some .ack
  else if stringAt raw "t" ≠ some (js "room") then none
  else do
    let bucketId ← stringAt raw "bucketId"
    if !isBucketId bucketId then none
    else
      let pin ← stringAt raw "pin"
      if !isPin pin then none
      else
        let roomHash ← stringAt raw "roomHash"
        let fragment ← parseRoomFragment roomHash
        if fragment.legacy then none
        else some (.room ⟨bucketId, shareRoomHash roomHash, pin⟩)

variable (ν) in
def openHandoff (aead : Aead) (ch : HandoffChannel) (data : List UInt8) :
    Option HandoffMessage := do
  let key ← importChannelKey ch
  let plain ← aead.openRecord FRAME_VERSION key (textEncode ch.channelId) data
  let raw : Json ν ← Json.parse (textDecode plain)
  validateMessage raw

end

/-! ## Links that are handed on -/

theorem lacks_of_get? {params params' : UrlParams} {name : JSString}
    (same : params'.get? name = params.get? name) :
    lacks params' name = lacks params name := by
  unfold lacks
  rw [same]

/-- A link without its seat is read as it was, but for the seat. -/
theorem readParams_unseated {params params' : UrlParams}
    (key : params'.get? (js "key") = params.get? (js "key"))
    (pv : params'.get? (js "pv") = params.get? (js "pv"))
    (salt : params'.get? (js "salt") = params.get? (js "salt"))
    (unseated : readSeat params' = none) :
    readParams params' =
      (readParams params).map fun f => { f with seat := none } := by
  unfold readParams
  rw [key, lacks_of_get? pv, lacks_of_get? salt, pv, salt, unseated]
  cases params.get? (js "key") with
  | none => rfl
  | some keyStr =>
      simp only [Option.bind_eq_bind, Option.bind_some]
      split
      · rfl
      · cases base64UrlToBytes keyStr with
        | none => rfl
        | some keyRaw =>
            simp only [Option.bind_some]
            split
            · rfl
            · cases base64UrlToBytes ((params.get? (js "pv")).getD []) with
              | none => rfl
              | some pv =>
                  cases base64UrlToBytes
                    ((params.get? (js "salt")).getD []) <;> rfl

theorem get?_delete_of_ne (params : UrlParams) {name other : JSString}
    (apart : other ≠ name) :
    (params.delete name).get? other = params.get? other := by
  rw [UrlParams.get?_eq, UrlParams.named_delete_of_ne params apart,
    ← UrlParams.get?_eq]

theorem parse_share (hash : JSString) :
    UrlParams.parse (withoutHash (shareRoomHash hash)) =
      (UrlParams.parse (withoutHash hash)).delete (js "seat") :=
  parse_withoutHash ((UrlParams.wellFormed_parse _).delete _)

/-- The parameters that are read of a link: the cleaned ones, unless the key
is not left by the cleaning. -/
theorem parseRoomFragment_eq (hash : JSString) :
    parseRoomFragment hash =
      readParams (if lacks (cleanParams (UrlParams.parse (withoutHash hash)))
          (js "key") = true
        then UrlParams.parse (withoutHash hash)
        else cleanParams (UrlParams.parse (withoutHash hash))) := by
  split
  · rename_i lack
    unfold parseRoomFragment
    rw [sanitizeRoomFragmentInput_of_lacks lack]
  · rename_i key
    exact parseRoomFragment_of_key (Bool.eq_false_iff.mpr key)

theorem readSeat_delete (params : UrlParams) :
    readSeat (params.delete (js "seat")) = none := by
  unfold readSeat
  rw [UrlParams.get?_eq, UrlParams.named_delete_self]
  rfl

/-- A shared link leads to the same room. -/
theorem parseRoomFragment_share (hash : JSString) :
    parseRoomFragment (shareRoomHash hash) =
      (parseRoomFragment hash).map fun f => { f with seat := none } := by
  obtain ⟨-, -, -, keySeat, pvSeat, saltSeat⟩ := names_apart
  rw [parseRoomFragment_eq, parseRoomFragment_eq, parse_share]
  generalize UrlParams.parse (withoutHash hash) = params
  have before := cleanedValues params
  have after := cleanedValues (params.delete (js "seat"))
  have key : (cleanParams (params.delete (js "seat"))).get? (js "key") =
      (cleanParams params).get? (js "key") := by
    rw [after.key, before.key, get?_delete_of_ne params keySeat]
  rw [lacks_of_get? key]
  split
  · exact readParams_unseated (get?_delete_of_ne params keySeat)
      (get?_delete_of_ne params pvSeat) (get?_delete_of_ne params saltSeat)
      (readSeat_delete params)
  · apply readParams_unseated key
    · rw [after.pv, before.pv, get?_delete_of_ne params pvSeat]
    · rw [after.salt, before.salt, get?_delete_of_ne params saltSeat]
    · rw [after.seat, readSeat_delete]

/-! ## What arrives -/

/-- A room that can be joined. -/
structure HandoffRoom.Valid (room : HandoffRoom) : Prop where
  bucketId : isBucketId room.bucketId = true
  pin : isPin room.pin = true
  fragment : ∃ f, parseRoomFragment room.roomHash = some f ∧ f.legacy = false

instance (room : HandoffRoom) : Decidable room.Valid :=
  decidable_of_iff (isBucketId room.bucketId = true ∧ isPin room.pin = true ∧
      (parseRoomFragment room.roomHash).any (fun f => !f.legacy) = true)
    ⟨fun h => ⟨h.1, h.2.1, by simpa [Option.any_eq_true] using h.2.2⟩,
      fun h => ⟨h.1, h.2, by simpa [Option.any_eq_true] using h.3⟩⟩

def HandoffRoom.shared (room : HandoffRoom) : HandoffRoom :=
  { room with roomHash := shareRoomHash room.roomHash }

theorem HandoffRoom.Valid.shared {room : HandoffRoom} (valid : room.Valid) :
    room.shared.Valid := by
  obtain ⟨f, read, full⟩ := valid.fragment
  refine ⟨valid.bucketId, valid.pin, { f with seat := none }, ?_, full⟩
  show parseRoomFragment (shareRoomHash room.roomHash) = _
  rw [parseRoomFragment_share, read]
  rfl

section

variable {ν : Type} [Numeric ν]

/-- What is left of a message on the other side. -/
def HandoffMessage.received : HandoffMessage → Option HandoffMessage
  | .ack => some .ack
  | .room r => if r.Valid then some (.room r.shared) else none

omit [Numeric ν] in
/-- Only a room that can be joined is received as a room. -/
theorem received_room {room room' : HandoffRoom} :
    (HandoffMessage.room room).received = some (.room room') ↔
      room.Valid ∧ room' = room.shared := by
  show (if room.Valid then some (HandoffMessage.room room.shared) else none) =
    _ ↔ _
  split
  · rename_i valid
    rw [Option.some.injEq, HandoffMessage.room.injEq]
    exact ⟨fun same => ⟨valid, same.symm⟩, fun both => both.2.symm⟩
  · rename_i invalid
    constructor
    · intro same
      cases same
    · exact fun both => absurd both.1 invalid

theorem handoff_names :
    [js "t", js "bucketId", js "roomHash", js "pin"].Nodup := by
  decide

theorem regular_handoff (msg : HandoffMessage) :
    (msg.toJson ν).Regular := by
  cases msg with
  | ack =>
      apply Json.Regular.record
      · simp
      · simp [Json.Regular.string]
  | room room =>
      apply Json.Regular.record
      · exact handoff_names
      · simp [Json.Regular.string]

theorem parse_toJson (msg : HandoffMessage) :
    Json.parse (textDecode (encodeObject (msg.toJson ν))) =
      some (msg.toJson ν) := by
  have regular := @regular_handoff ν _ msg
  cases msg with
  | ack => exact parse_encodeObject regular
  | room room => exact parse_encodeObject regular

omit [Numeric ν] in
theorem validateMessage_toJson (msg : HandoffMessage) :
    validateMessage (msg.toJson ν) = msg.received := by
  cases msg with
  | ack => rfl
  | room room =>
      have other : some (js "room") ≠ some (js "ack") := by decide
      have fields : [(js "t", some (Json.string (js "room") : Json ν)),
          (js "bucketId", some (.string room.bucketId)),
          (js "roomHash", some (.string room.roomHash)),
          (js "pin", some (.string room.pin))].map Prod.fst =
          [js "t", js "bucketId", js "roomHash", js "pin"] := rfl
      have t : stringAt (HandoffMessage.toJson ν (.room room)) "t" =
          some (js "room") := stringAt_record handoff_names fields rfl
      have bucketId : stringAt (HandoffMessage.toJson ν (.room room))
          "bucketId" = some room.bucketId :=
        stringAt_record handoff_names fields rfl
      have roomHash : stringAt (HandoffMessage.toJson ν (.room room))
          "roomHash" = some room.roomHash :=
        stringAt_record handoff_names fields rfl
      have pin : stringAt (HandoffMessage.toJson ν (.room room)) "pin" =
          some room.pin := stringAt_record handoff_names fields rfl
      have object : (HandoffMessage.toJson ν (.room room)).isObject = true :=
        rfl
      unfold validateMessage HandoffMessage.received
      rw [object, t, bucketId, roomHash, pin, if_neg (by decide),
        if_neg other, if_neg (not_not_intro rfl)]
      simp only [Option.bind_eq_bind, Option.bind_some]
      cases id : isBucketId room.bucketId with
      | false =>
          have invalid : ¬ room.Valid := fun valid =>
            Bool.false_ne_true (id.symm.trans valid.bucketId)
          rw [if_neg invalid]
          exact if_pos rfl
      | true =>
          cases digits : isPin room.pin with
          | false =>
              have invalid : ¬ room.Valid := fun valid =>
                Bool.false_ne_true (digits.symm.trans valid.pin)
              rw [if_neg invalid]
              rfl
          | true =>
              cases read : parseRoomFragment room.roomHash with
              | none =>
                  have invalid : ¬ room.Valid := fun valid => by
                    simpa [read] using valid.fragment
                  rw [if_neg invalid]
                  rfl
              | some f =>
                  cases full : f.legacy with
                  | true =>
                      have invalid : ¬ room.Valid := fun valid => by
                        simpa [read, full] using valid.fragment
                      rw [if_neg invalid]
                      simp [full]
                  | false =>
                      rw [if_pos (⟨id, digits, f, read, full⟩ : room.Valid)]
                      simp [full, HandoffRoom.shared]

/-! ## Frames -/

/-- A channel as it is made, or read of a link. -/
structure HandoffChannel.Ready (ch : HandoffChannel) : Prop where
  channelId : isBucketId ch.channelId = true
  keyRaw : ch.keyRaw.length = 32

theorem ready_createHandoffChannel (idBytes : Fin 20 → UInt8)
    (keyBytes : Fin 32 → UInt8) (relayUrl : JSString) :
    (createHandoffChannel idBytes keyBytes relayUrl).Ready :=
  ⟨isBucketId_randomBucketId idBytes, List.length_ofFn⟩

theorem HandoffChannel.Ready.key {ch : HandoffChannel} (ready : ch.Ready) :
    importChannelKey ch = some ch.keyRaw := by
  unfold importChannelKey
  rw [ready.keyRaw]
  rfl

/-- The ids of channels are told apart by their bytes. -/
theorem HandoffChannel.Ready.textEncode_inj {ch ch' : HandoffChannel}
    (ready : ch.Ready) (ready' : ch'.Ready) :
    textEncode ch'.channelId = textEncode ch.channelId ↔
      ch'.channelId = ch.channelId := by
  have read : ∀ {ch : HandoffChannel}, ch.Ready →
      textDecode (textEncode ch.channelId) = ch.channelId := by
    intro ch ready
    have letters := ready.channelId
    unfold isBucketId at letters
    rw [Bool.and_eq_true, List.all_eq_true] at letters
    apply textDecode_textEncode (isWellFormed_of_base64Url letters.2)
    intro mark
    have letter := letters.2 _ (List.mem_of_mem_head? mark)
    revert letter
    decide
  constructor
  · intro same
    rw [← read ready', same, read ready]
  · intro same
    rw [same]

variable (ν) in
/-- What the other side makes of a frame, on whichever channel it listens. -/
theorem openHandoff_sealHandoff {aead : Aead} (ideal : aead.Ideal)
    {ch ch' : HandoffChannel} (ready : ch.Ready) (ready' : ch'.Ready)
    (iv : Vector UInt8 12) (msg : HandoffMessage) :
    ∃ data, sealHandoff ν aead ch iv msg = some data ∧
      openHandoff ν aead ch' data =
        if ch'.keyRaw = ch.keyRaw ∧ ch'.channelId = ch.channelId then
          msg.received
        else none := by
  refine ⟨aead.record FRAME_VERSION ch.keyRaw iv.toList
    (textEncode ch.channelId) (encodeObject (msg.toJson ν)), ?_, ?_⟩
  · unfold sealHandoff
    rw [ready.key]
    rfl
  · unfold openHandoff
    rw [ready'.key]
    simp only [Option.bind_eq_bind, Option.bind_some,
      ideal.openRecord_record iv.length_toList, ready.textEncode_inj ready']
    split
    · rw [Option.bind_some, parse_toJson, Option.bind_some,
        validateMessage_toJson]
    · rfl

/-! ## From one device to another -/

/-- The channel that is scanned is the one that was shown, but for how its
relay is written. -/
theorem scanned_handoffUrl {pathname : JSString → Option JSString}
    {origin : JSString} (page : PageOrigin pathname origin)
    {idBytes : Fin 20 → UInt8} {keyBytes : Fin 32 → UInt8}
    {relayUrl : JSString} {scanned : HandoffChannel}
    (scan : parseHandoffScan pathname (handoffUrl origin
      (createHandoffChannel idBytes keyBytes relayUrl)) = some scanned) :
    scanned = createHandoffChannel idBytes keyBytes (repair relayUrl) := by
  rw [parseHandoffScan_handoffUrl page, parseHandoffFragment_format] at scan
  split at scan
  · exact (Option.some.inj scan).symm
  · cases scan

variable (ν) in
/-- A room that is sealed on the channel of a scanned link arrives where the
link is shown, if it can be joined, and on no other channel; it is the room
that was sent, without the host's seat. -/
theorem handoff_hands_over {aead : Aead} (ideal : aead.Ideal)
    {pathname : JSString → Option JSString} {origin : JSString}
    (page : PageOrigin pathname origin) {idBytes : Fin 20 → UInt8}
    {keyBytes : Fin 32 → UInt8} {relayUrl : JSString}
    {scanned : HandoffChannel}
    (scan : parseHandoffScan pathname (handoffUrl origin
      (createHandoffChannel idBytes keyBytes relayUrl)) = some scanned)
    (iv : Vector UInt8 12) (room : HandoffRoom) :
    ∃ data, sealHandoff ν aead scanned iv (.room room) = some data ∧
      (∀ room', openHandoff ν aead
          (createHandoffChannel idBytes keyBytes relayUrl) data =
            some (.room room') ↔
        room.Valid ∧ room' = room.shared) ∧
      (∀ ch msg, ch.Ready → openHandoff ν aead ch data = some msg →
        ch.keyRaw = List.ofFn keyBytes ∧
          ch.channelId = randomBucketId idBytes) ∧
      parseRoomFragment room.shared.roomHash =
        (parseRoomFragment room.roomHash).map fun f =>
          { f with seat := none } := by
  obtain rfl := scanned_handoffUrl page scan
  have ready := ready_createHandoffChannel idBytes keyBytes (repair relayUrl)
  have shown := ready_createHandoffChannel idBytes keyBytes relayUrl
  obtain ⟨data, sealed, opens⟩ :=
    openHandoff_sealHandoff ν ideal ready shown iv (.room room)
  refine ⟨data, sealed, ?_, ?_, parseRoomFragment_share room.roomHash⟩
  · intro room'
    rw [opens, if_pos ⟨rfl, rfl⟩, received_room]
  · intro ch msg other opened
    obtain ⟨data', sealed', opens'⟩ :=
      openHandoff_sealHandoff ν ideal ready other iv (.room room)
    obtain rfl := Option.some.inj (sealed.symm.trans sealed')
    rw [opens'] at opened
    split at opened
    · rename_i same
      exact same
    · cases opened

/-- A room whose link has the host's seat. -/
def hostRoom : HandoffRoom where
  bucketId := js "room1"
  roomHash := js "#key=Bw&pv=-wE&salt=AgME&seat=0"
  pin := js "123456"

theorem valid_hostRoom : hostRoom.Valid := by
  decide

theorem handoff_hands_over_host :
    ∃ data, sealHandoff Int Aead.plain
        (createHandoffChannel 0 7 (js "wss://byteln.com"))
        (Vector.replicate 12 0) (.room hostRoom) = some data ∧
      openHandoff Int Aead.plain
        (createHandoffChannel 0 7 (js "wss://byteln.com")) data =
          some (.room hostRoom.shared) := by
  have page : PageOrigin (handoffPath (js "https://byteln.com"))
      (js "https://byteln.com") :=
    handoffPath_page (by decide +kernel)
  have socket : isWebSocketUrl (repair (js "wss://byteln.com")) = true ∧
      repair (js "wss://byteln.com") = js "wss://byteln.com" :=
    ⟨rfl, rfl⟩
  have scan : parseHandoffScan (handoffPath (js "https://byteln.com"))
      (handoffUrl (js "https://byteln.com")
        (createHandoffChannel 0 7 (js "wss://byteln.com"))) =
      some (createHandoffChannel 0 7 (js "wss://byteln.com")) := by
    rw [parseHandoffScan_handoffUrl page, parseHandoffFragment_format,
      if_pos socket.1, socket.2]
  obtain ⟨data, sealed, arrives, -⟩ := handoff_hands_over Int
    Aead.ideal_plain page scan (Vector.replicate 12 0) hostRoom
  exact ⟨data, sealed, (arrives _).mpr ⟨valid_hostRoom, rfl⟩⟩

end

end Byteln.Client

import Byteln.Client.Attachments
import Byteln.Client.Transfer
import Byteln.Library.Json

/-!
# Plaintext on the wire

How a message is written before it is encrypted, and read after it has been
decrypted.  Messages that carry bytes stand in a binary envelope: a mark, the
length of their description, the description and the bytes.  All others are
JSON texts.  Writer and reader are separate chains of cases, as in the source.
-/

namespace Byteln.Client

open Byteln.Library

def IMAGE_PLAIN_MARK : UInt8 := 0x02

def IMAGE_CHUNK_MARK : UInt8 := 0x03

def HISTORY_CHUNK_MARK : UInt8 := 0x04

def TRANSFER_CHUNK_MARK : UInt8 := 0x05

variable {ν : Type} [Numeric ν]

def TransferKind.text : TransferKind → JSString
  | .image => js "image"
  | .file => js "file"

/-! ## Writing -/

/-- An optional string, unless it is empty. -/
def nonempty (s : Option JSString) : Option JSString :=
  s.filter fun s => s ≠ []

/-- An optional flag. -/
def flag (b : Bool) : Option (Json ν) :=
  if b then some (.bool true) else none

def ReplyRef.toJson (r : ReplyRef) : Json ν :=
  .record [(js "id", some (.string r.id)),
    (js "preview", some (.string r.preview))]

def TransferHeader.toJson (h : TransferHeader ν) : Json ν :=
  .record
    [(js "kind", some (.string h.kind.text)),
      (js "ts", some (.number h.ts)),
      (js "mime", some (.string h.mime)),
      (js "size", some (.integer h.size)),
      (js "sha256", some (.string h.sha256)),
      (js "name", h.name.map .string),
      (js "w", h.w.map .number),
      (js "h", h.h.map .number),
      (js "replyTo", h.replyTo.map ReplyRef.toJson)]

/-- `encoder.encode(JSON.stringify(obj))`. -/
def encodeObject (obj : Json ν) : Bytes :=
  textEncode obj.stringify

def encodeBinaryEnvelope (mark : UInt8) (metaObj : Json ν)
    (payload : Bytes) : Except String Bytes :=
  let metaBytes := encodeObject metaObj
  if metaBytes.length > 0xffff then throw "image meta too large"
  else
    pure (mark :: UInt8.ofNat (metaBytes.length / 0x100) ::
      UInt8.ofNat (metaBytes.length % 0x100) :: (metaBytes ++ payload))

/-- The messages that consist of an id besides their type. -/
def encodeId (type : String) (ts : ν) (id : JSString) :
    Except String Bytes :=
  if id = [] then throw "message id required"
  else
    pure (encodeObject (ν := ν) (.record
      [(js "v", some (.integer 1)), (js "ts", some (.number ts)),
        (js "type", some (.string (js type))),
        (js "id", some (.string id))]))

/-- A message with an id and one more string. -/
def encodeWith (type key : String) (ts : ν) (id : JSString)
    (value : Option JSString) : Except String Bytes :=
  if id = [] then throw "message id required"
  else
    pure (encodeObject (ν := ν) (.record
      [(js "v", some (.integer 1)), (js "ts", some (.number ts)),
        (js "type", some (.string (js type))),
        (js "id", some (.string id)),
        (js key, (nonempty value).map .string)]))

/-- The two messages with a list of ids. -/
def encodeIds (type : String) (ts : ν) (id : JSString)
    (ids : List JSString) : Except String Bytes :=
  if id = [] then throw "message id required"
  else
    pure (encodeObject (ν := ν) (.record
      [(js "v", some (.integer 1)), (js "ts", some (.number ts)),
        (js "type", some (.string (js type))),
        (js "id", some (.string id)),
        (js "ids", some (.array (ids.map .string)))]))

def encodePlaintext : PlainMessage ν → Except String Bytes
  | .xferChunk msg =>
      encodeBinaryEnvelope (ν := ν) TRANSFER_CHUNK_MARK (.record
        [(js "v", some (.integer 1)),
          (js "type", some (.string (js "xfer_chunk"))),
          (js "id", some (.string msg.id)),
          (js "index", some (.integer msg.index)),
          (js "total", some (.integer msg.total)),
          (js "header", some msg.header.toJson)]) msg.data
  | .xferAck msg =>
      pure (encodeObject (ν := ν) (.record
        [(js "v", some (.integer 1)), (js "ts", some (.number msg.ts)),
          (js "type", some (.string (js "xfer_ack"))),
          (js "id", some (.string msg.id)),
          (js "have",
            some (.array (msg.haves.map fun (i : Nat) => .integer i))),
          (js "resend", flag msg.resend), (js "done", flag msg.done)]))
  | .xferQuery msg =>
      pure (encodeObject (ν := ν) (.record
        [(js "v", some (.integer 1)), (js "ts", some (.number msg.ts)),
          (js "type", some (.string (js "xfer_query"))),
          (js "id", some (.string msg.id))]))
  | .xferCancel msg =>
      pure (encodeObject (ν := ν) (.record
        [(js "v", some (.integer 1)), (js "ts", some (.number msg.ts)),
          (js "type", some (.string (js "xfer_cancel"))),
          (js "id", some (.string msg.id)),
          (js "reason", (nonempty msg.reason).map .string)]))
  | .file _ => throw "file messages are sent as xfer_chunk frames"
  | .historyDigest msg =>
      pure (encodeObject (ν := ν) (.record
        [(js "v", some (.integer 1)), (js "ts", some (.number msg.ts)),
          (js "type", some (.string (js "history_digest"))),
          (js "count", some (.number msg.count)),
          (js "idHash", some (.string msg.idHash)),
          (js "deviceFp", (nonempty msg.deviceFp).map .string)]))
  | .resyncRequest ts id deviceFp =>
      encodeWith "resync_request" "deviceFp" ts id deviceFp
  | .wipeHistory ts id => encodeId "wipe_history" ts id
  | .resyncReject ts id reason =>
      encodeWith "resync_reject" "reason" ts id reason
  | .resyncAccept ts id ids => encodeIds "resync_accept" ts id ids
  | .resyncIds ts id ids => encodeIds "resync_ids" ts id ids
  | .historyChunk msg =>
      if msg.id = [] then throw "message id required"
      else if msg.index = 0 ∧ msg.compressedLength = none then
        throw "history chunk 0 meta incomplete"
      else
        encodeBinaryEnvelope (ν := ν) HISTORY_CHUNK_MARK (.record
          [(js "v", some (.integer 1)),
            (js "type", some (.string (js "history_chunk"))),
            (js "id", some (.string msg.id)),
            (js "index", some (.integer msg.index)),
            (js "total", some (.integer msg.total)),
            (js "compressedLength",
              if msg.index = 0 then
                msg.compressedLength.map fun (n : Nat) => .integer n
              else none)]) msg.data
  | .delete ts id => encodeId "delete" ts id
  | .text msg =>
      match nonempty msg.id with
      | none => throw "message id required"
      | some id =>
          pure (encodeObject (ν := ν) (.record
            [(js "v", some (.integer 1)), (js "ts", some (.number msg.ts)),
              (js "type", some (.string (js "text"))),
              (js "body", some (.string msg.body)),
              (js "id", some (.string id)),
              (js "replyTo", msg.replyTo.map ReplyRef.toJson)]))
  | .imageChunk msg =>
      if msg.id = [] then throw "message id required"
      else if msg.index = 0 ∧
          (msg.ts = none ∨ msg.mime = none ∨ msg.byteLength = none) then
        throw "image chunk 0 meta incomplete"
      else
        let first := fun value : Option (Json ν) =>
          if msg.index = 0 then value else none
        encodeBinaryEnvelope (ν := ν) IMAGE_CHUNK_MARK (.record
          [(js "v", some (.integer 1)),
            (js "type", some (.string (js "image_chunk"))),
            (js "id", some (.string msg.id)),
            (js "index", some (.integer msg.index)),
            (js "total", some (.integer msg.total)),
            (js "ts", first (msg.ts.map .number)),
            (js "mime", first (msg.mime.map fun m => .string m.text)),
            (js "byteLength",
              first (msg.byteLength.map fun (n : Nat) => .integer n)),
            (js "w", first (msg.w.map .number)),
            (js "h", first (msg.h.map .number)),
            (js "replyTo", first (msg.replyTo.map ReplyRef.toJson))])
          msg.data
  | .image msg =>
      match nonempty msg.id with
      | none => throw "message id required"
      | some id =>
          encodeBinaryEnvelope (ν := ν) IMAGE_PLAIN_MARK (.record
            [(js "v", some (.integer 1)), (js "ts", some (.number msg.ts)),
              (js "type", some (.string (js "image"))),
              (js "mime", some (.string msg.mime.text)),
              (js "id", some (.string id)),
              (js "w", msg.w.map .number), (js "h", msg.h.map .number),
              (js "replyTo", msg.replyTo.map ReplyRef.toJson)]) msg.data

/-! ## Reading -/

section

variable (obj : Json ν) (key : String)

def stringAt : Option JSString :=
  (obj.get? (js key)).bind Json.string?

def numberAt : Option ν :=
  (obj.get? (js key)).bind Json.number?

def integerAt : Option Int :=
  (obj.get? (js key)).bind Json.integer?

def arrayAt : Option (List (Json ν)) :=
  (obj.get? (js key)).bind Json.array?

/-- The property is `true`. -/
def flagAt : Bool :=
  (obj.get? (js key)).any Json.isTrue

/-- The property is a string, and not the empty one. -/
def textAt : Option JSString :=
  nonempty (stringAt obj key)

end

/-- A number of bytes up to a limit. -/
def byteCount (limit : Nat) (n : Option Int) : Option Nat :=
  (n.filter fun n => 0 ≤ n ∧ n ≤ (limit : Int)).map Int.toNat

def parseReplyTo (raw : Option (Json ν)) : Option ReplyRef := do
  let r ← raw
  let id ← textAt r "id"
  let preview ← stringAt r "preview"
  pure { id := id, preview := preview }

def isPositiveDim (n : ν) : Bool :=
  (Numeric.toInt? n).any fun k => 0 < k ∧ k ≤ 100000

/-- `/^[A-Za-z0-9_-]{43}$/`. -/
def isSha256Text (s : JSString) : Bool :=
  s.length = 43 && s.all fun u =>
    within 0x41 0x5a u || within 0x61 0x7a u || within 0x30 0x39 u ||
      u ∈ js "_-"

def TransferKind.ofText? (s : JSString) : Option TransferKind :=
  [TransferKind.image, .file].find? fun kind => kind.text = s

section

variable (nfc : JSString → JSString)

def parseTransferHeader (raw : Option (Json ν)) :
    Except String (TransferHeader ν) := do
  let some h := raw.filter Json.isObject | throw "invalid transfer header"
  let some kind := (stringAt h "kind").bind TransferKind.ofText?
    | throw "invalid transfer header"
  let some ts := (numberAt h "ts").filter Numeric.isFinite
    | throw "invalid transfer header"
  let some size := byteCount MAX_TRANSFER_BYTES (integerAt h "size")
    | throw "invalid transfer size"
  let some sha256 := (stringAt h "sha256").filter isSha256Text
    | throw "invalid transfer header"
  let some mime := (stringAt h "mime").filter fun mime =>
      match kind with
      | .image => (ImageMime.ofText? mime).isSome
      | .file => isValidMime mime
    | throw "invalid transfer mime"
  pure
    { kind := kind, ts := ts, mime := mime, size := size, sha256 := sha256
      name := match kind with
        | .image => none
        | .file =>
            some (sanitizeFileName nfc ((stringAt h "name").getD []))
      w := (numberAt h "w").filter isPositiveDim
      h := (numberAt h "h").filter isPositiveDim
      replyTo := parseReplyTo (h.get? (js "replyTo")) }

def parseChunkIndices (raw : Option (List (Json ν))) :
    Except String (List Nat) := do
  let some items := raw.filter fun items => items.length ≤ MAX_TRANSFER_CHUNKS
    | throw "invalid message schema"
  items.mapM fun item =>
    match item.integer?.filter fun n =>
      0 ≤ n ∧ n < (MAX_TRANSFER_CHUNKS : Int) with
    | some n => pure n.toNat
    | none => throw "invalid message schema"

/-- The id, index and total of a chunk of a type. -/
def chunkPosition (type : String) (obj : Json ν) :
    Option (JSString × Nat × Nat) := do
  let id ← textAt obj "id"
  let index ← integerAt obj "index"
  let total ← integerAt obj "total"
  if integerAt obj "v" = some 1 ∧ stringAt obj "type" = some (js type) ∧
      0 ≤ index ∧ index < total then
    some (id, index.toNat, total.toNat)
  else none

def decodeTransferChunk (obj : Json ν) (data : Bytes) :
    Except String (PlainMessage ν) := do
  let some (id, index, total) :=
      (chunkPosition "xfer_chunk" obj).filter fun found =>
        found.1.length ≤ 64
    | throw "invalid message schema"
  let header ← parseTransferHeader nfc (obj.get? (js "header"))
  if total ≠ transferChunkCount header.size then
    throw "invalid transfer chunk count"
  else if data.length ≠ transferChunkLength header.size index then
    throw "invalid transfer chunk length"
  else
    pure (.xferChunk
      { id := id, index := index, total := total, header := header,
        data := data })

def decodeHistoryChunk (obj : Json ν) (data : Bytes) :
    Except String (PlainMessage ν) := do
  let some (id, index, total) := chunkPosition "history_chunk" obj
    | throw "invalid message schema"
  if data.length > HISTORY_CHUNK_PAYLOAD_BYTES then
    throw "history chunk too large"
  else
    let chunk : HistoryChunkPlainMessage :=
      { id := id, index := index, total := total, data := data,
        compressedLength := none }
    if index = 0 then
      match (integerAt obj "compressedLength").filter fun n => 0 ≤ n with
      | some n =>
          pure (.historyChunk { chunk with compressedLength := n.toNat })
      | none => throw "invalid message schema"
    else pure (.historyChunk chunk)

def decodeImageChunk (obj : Json ν) (data : Bytes) :
    Except String (PlainMessage ν) := do
  let some (id, index, total) :=
      (chunkPosition "image_chunk" obj).filter fun found =>
        found.2.2 ≤ MAX_TRANSFER_CHUNKS
    | throw "invalid message schema"
  if data.length > IMAGE_CHUNK_PAYLOAD_BYTES then
    throw "image chunk too large"
  else
    let chunk : ImageChunkPlainMessage ν :=
      { id := id, index := index, total := total, data := data, ts := none,
        mime := none, byteLength := none, w := none, h := none,
        replyTo := none }
    if index = 0 then
      match numberAt obj "ts", (stringAt obj "mime").bind ImageMime.ofText?,
        byteCount MAX_IMAGE_BYTES (integerAt obj "byteLength") with
      | some ts, some mime, some byteLength =>
          pure (.imageChunk
            { chunk with
              ts := ts, mime := mime, byteLength := byteLength
              w := numberAt obj "w", h := numberAt obj "h"
              replyTo := parseReplyTo (obj.get? (js "replyTo")) })
      | _, _, _ => throw "invalid message schema"
    else pure (.imageChunk chunk)

def decodeImage (obj : Json ν) (data : Bytes) :
    Except String (PlainMessage ν) :=
  match numberAt obj "ts", (stringAt obj "mime").bind ImageMime.ofText? with
  | some ts, some mime =>
      if integerAt obj "v" ≠ some 1 ∨
          stringAt obj "type" ≠ some (js "image") then
        throw "invalid message schema"
      else if data.length > MAX_IMAGE_BYTES then throw "image too large"
      else
        pure (.image
          { ts := ts, mime := mime, data := data
            w := numberAt obj "w", h := numberAt obj "h"
            id := textAt obj "id"
            replyTo := parseReplyTo (obj.get? (js "replyTo")) })
  | _, _ => throw "invalid message schema"

/-- A message that is a JSON text, after `v` and `ts` have been checked. -/
def decodeText (obj : Json ν) (ts : ν) : Except String (PlainMessage ν) :=
  let type := stringAt obj "type"
  let id := textAt obj "id"
  if type = js "xfer_ack" ∨ type = js "xfer_query" ∨
      type = js "xfer_cancel" then
    match id.filter fun id => id.length ≤ 64 with
    | none => throw "invalid message schema"
    | some id =>
        if type = js "xfer_query" then pure (.xferQuery { ts := ts, id := id })
        else if type = js "xfer_cancel" then
          pure (.xferCancel
            { ts := ts, id := id
              reason := (stringAt obj "reason").map (List.take 64) })
        else do
          let haves ← parseChunkIndices (arrayAt obj "have")
          pure (.xferAck
            { ts := ts, id := id, haves := haves
              resend := flagAt obj "resend", done := flagAt obj "done" })
  else if type = js "history_digest" then
    match numberAt obj "count", textAt obj "idHash" with
    | some count, some idHash =>
        pure (.historyDigest
          { ts := ts, count := count, idHash := idHash
            deviceFp := textAt obj "deviceFp" })
    | _, _ => throw "invalid message schema"
  else if type = js "resync_request" then
    match id with
    | some id => pure (.resyncRequest ts id (textAt obj "deviceFp"))
    | none => throw "invalid message schema"
  else if type = js "wipe_history" then
    match id with
    | some id => pure (.wipeHistory ts id)
    | none => throw "invalid message schema"
  else if type = js "resync_reject" then
    match id with
    | some id => pure (.resyncReject ts id (stringAt obj "reason"))
    | none => throw "invalid message schema"
  else if type = js "resync_accept" ∨ type = js "resync_ids" then
    match id, arrayAt obj "ids" with
    | some id, some items =>
        let ids := items.filterMap fun item => nonempty item.string?
        if ids.length ≠ items.length then throw "invalid message schema"
        else if type = js "resync_accept" then pure (.resyncAccept ts id ids)
        else pure (.resyncIds ts id ids)
    | _, _ => throw "invalid message schema"
  else if type = js "delete" then
    match id with
    | some id => pure (.delete ts id)
    | none => throw "invalid message schema"
  else
    match (if type = js "text" then stringAt obj "body" else none) with
    | some body =>
        pure (.text
          { ts := ts, body := body, id := id
            replyTo := parseReplyTo (obj.get? (js "replyTo")) })
    | none => throw "invalid message schema"

/-- What reading a property of `null` throws. -/
def nullError : String := "TypeError"

/-- The description in a binary envelope and the bytes after it. -/
def openEnvelope (pt : Bytes) : Except String (Json ν × Bytes) :=
  match pt with
  | _ :: high :: low :: rest =>
      let metaLen := high.toNat * 0x100 + low.toNat
      if rest.length < metaLen then throw "invalid image envelope"
      else
        match Json.parse (textDecode (rest.take metaLen)) with
        | none => throw "invalid image meta"
        | some .null => throw nullError
        | some obj => pure (obj, rest.drop metaLen)
  | _ => throw "invalid image envelope"

def decodePlaintext (pt : Bytes) : Except String (PlainMessage ν) :=
  match pt.head? with
  | none => throw "invalid message schema"
  | some mark =>
      if mark = TRANSFER_CHUNK_MARK then do
        let (obj, data) ← openEnvelope pt
        decodeTransferChunk nfc obj data
      else if mark = HISTORY_CHUNK_MARK then do
        let (obj, data) ← openEnvelope pt
        decodeHistoryChunk obj data
      else if mark = IMAGE_CHUNK_MARK then do
        let (obj, data) ← openEnvelope pt
        decodeImageChunk obj data
      else if mark = IMAGE_PLAIN_MARK then do
        let (obj, data) ← openEnvelope pt
        decodeImage obj data
      else
        match Json.parse (textDecode pt) with
        | none => throw "SyntaxError"
        | some .null => throw nullError
        | some obj =>
            match (if integerAt obj "v" = some 1 then numberAt obj "ts"
              else none) with
            | some ts => decodeText obj ts
            | none => throw "invalid message schema"

end

/-! ## Chunks of a transfer that are let through -/

/-- What a chunk of a transfer says once it has been read. -/
structure TransferChunkPlainMessage.Accepted
    (c : TransferChunkPlainMessage ν) : Prop where
  size : c.header.size ≤ MAX_TRANSFER_BYTES
  total : c.total = transferChunkCount c.header.size
  index : c.index < c.total
  length : c.data.length = transferChunkLength c.header.size c.index

theorem bind_eq_ok {ε α β : Type} {x : Except ε α} {f : α → Except ε β}
    {b : β} (run : x >>= f = .ok b) : ∃ a, x = .ok a ∧ f a = .ok b := by
  cases x with
  | error e => cases run
  | ok a => exact ⟨a, rfl, run⟩

theorem byteCount_le {limit : Nat} {n : Option Int} {size : Nat}
    (counted : byteCount limit n = some size) : size ≤ limit := by
  obtain ⟨k, filtered, rfl⟩ := Option.map_eq_some_iff.mp counted
  have bounds := of_decide_eq_true (Option.filter_eq_some_iff.mp filtered).2
  omega

/-- What a header says once it has been read. -/
structure TransferHeader.Checked (h : TransferHeader ν) : Prop where
  ts : Numeric.isFinite h.ts = true
  size : h.size ≤ MAX_TRANSFER_BYTES
  w : ∀ n ∈ h.w, isPositiveDim n = true
  h : ∀ n ∈ h.h, isPositiveDim n = true

theorem checked_of_parseTransferHeader {nfc : JSString → JSString}
    {raw : Option (Json ν)} {h : TransferHeader ν}
    (parsed : parseTransferHeader nfc raw = .ok h) : h.Checked := by
  unfold parseTransferHeader at parsed
  split at parsed
  · split at parsed
    · split at parsed
      · rename_i ts finite
        split at parsed
        · rename_i size counted
          split at parsed
          · split at parsed
            · cases parsed
              exact
                { ts := (Option.filter_eq_some_iff.mp finite).2
                  size := byteCount_le counted
                  w := fun n given => (Option.filter_eq_some_iff.mp given).2
                  h := fun n given => (Option.filter_eq_some_iff.mp given).2 }
            · cases parsed
          · cases parsed
        · cases parsed
      · cases parsed
    · cases parsed
  · cases parsed

theorem transferChunkCount_le {size : Nat}
    (small : size ≤ MAX_TRANSFER_BYTES) :
    transferChunkCount size ≤ MAX_TRANSFER_CHUNKS := by
  have fewer : ceilDiv size TRANSFER_CHUNK_BYTES ≤ MAX_TRANSFER_CHUNKS := by
    apply Nat.div_le_div_right
    omega
  exact Nat.max_le.mpr ⟨by decide, fewer⟩

theorem index_of_chunkPosition {type : String} {obj : Json ν}
    {id : JSString} {index total : Nat}
    (found : chunkPosition type obj = some (id, index, total)) :
    index < total := by
  unfold chunkPosition at found
  simp only [Option.bind_eq_bind, Option.bind_eq_some_iff] at found
  obtain ⟨id', -, index', -, total', -, checked⟩ := found
  split at checked
  · rename_i bounds
    cases checked
    omega
  · cases checked

theorem accepted_of_decodeTransferChunk {nfc : JSString → JSString}
    {obj : Json ν} {data : Bytes} {c : TransferChunkPlainMessage ν}
    (decoded : decodeTransferChunk nfc obj data = .ok (.xferChunk c)) :
    c.Accepted := by
  unfold decodeTransferChunk at decoded
  split at decoded
  · rename_i id index total found
    obtain ⟨header, parsed, checked⟩ := bind_eq_ok decoded
    split_ifs at checked with count length
    cases checked
    have inside := (Option.filter_eq_some_iff.mp found).1
    exact
      { size := (checked_of_parseTransferHeader parsed).size
        total := Decidable.not_not.mp count
        index := index_of_chunkPosition inside
        length := Decidable.not_not.mp length }
  · cases decoded

theorem decodeHistoryChunk_ne {obj : Json ν} {data : Bytes}
    {c : TransferChunkPlainMessage ν} :
    decodeHistoryChunk obj data ≠ .ok (.xferChunk c) := by
  intro decoded
  unfold decodeHistoryChunk at decoded
  split at decoded
  · split_ifs at decoded
    · split at decoded <;> cases decoded
    · cases decoded
  · cases decoded

theorem decodeImageChunk_ne {obj : Json ν} {data : Bytes}
    {c : TransferChunkPlainMessage ν} :
    decodeImageChunk obj data ≠ .ok (.xferChunk c) := by
  intro decoded
  unfold decodeImageChunk at decoded
  split at decoded
  · split_ifs at decoded
    · split at decoded <;> cases decoded
    · cases decoded
  · cases decoded

theorem decodeImage_ne {obj : Json ν} {data : Bytes}
    {c : TransferChunkPlainMessage ν} :
    decodeImage obj data ≠ .ok (.xferChunk c) := by
  intro decoded
  unfold decodeImage at decoded
  split at decoded
  · split_ifs at decoded
    cases decoded
  · cases decoded

theorem decodeText_ne {obj : Json ν} {ts : ν}
    {c : TransferChunkPlainMessage ν} :
    decodeText obj ts ≠ .ok (.xferChunk c) := by
  intro decoded
  unfold decodeText at decoded
  dsimp only at decoded
  split_ifs at decoded
  all_goals split at decoded
  all_goals try split_ifs at decoded
  all_goals try cases decoded
  obtain ⟨haves, -, made⟩ := bind_eq_ok decoded
  cases made

/-- A chunk that has been read holds what its header promises. -/
theorem accepted_of_decodePlaintext {nfc : JSString → JSString} {pt : Bytes}
    {c : TransferChunkPlainMessage ν}
    (decoded : decodePlaintext nfc pt = .ok (.xferChunk c)) : c.Accepted := by
  unfold decodePlaintext at decoded
  split at decoded
  · cases decoded
  · split_ifs at decoded
    · obtain ⟨⟨obj, data⟩, -, decoded⟩ := bind_eq_ok decoded
      exact accepted_of_decodeTransferChunk decoded
    · obtain ⟨⟨obj, data⟩, -, decoded⟩ := bind_eq_ok decoded
      exact absurd decoded decodeHistoryChunk_ne
    · obtain ⟨⟨obj, data⟩, -, decoded⟩ := bind_eq_ok decoded
      exact absurd decoded decodeImageChunk_ne
    · obtain ⟨⟨obj, data⟩, -, decoded⟩ := bind_eq_ok decoded
      exact absurd decoded decodeImage_ne
    · split at decoded
      · cases decoded
      · cases decoded
      · split at decoded
        · exact absurd decoded decodeText_ne
        · cases decoded

end Byteln.Client

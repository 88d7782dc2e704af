import Byteln.Client.Base64Url
import Byteln.Client.HistorySync
import Byteln.Client.PlaintextRoundTrip

/-!
# Stored messages as JSON

Export files and history syncs carry messages as JSON, with their bytes in
base64.  What is read back is the message that was written, except for images
without bytes, which are dropped.
-/

namespace Byteln.Client

open Byteln.Library

variable {ν : Type} [Numeric ν]

/-! ## Writing -/

def Origin.text : Origin → JSString
  | .self => js "self"
  | .peer => js "peer"

def Origin.ofText? (s : JSString) : Option Origin :=
  [Origin.self, .peer].find? fun origin => origin.text = s

def toWire (msg : StoredMessage ν) : Json ν :=
  match msg.content with
  | .file file =>
      .record
        [(js "v", some (.integer 1)), (js "ts", some (.number file.ts)),
          (js "type", some (.string (js "file"))),
          (js "name", some (.string file.name)),
          (js "mime", some (.string file.mime)),
          (js "dataB64", some (.string (bytesToBase64 file.data))),
          (js "id", some (.string msg.id)),
          (js "from", some (.string msg.origin.text)),
          (js "replyTo", file.replyTo.map ReplyRef.toJson)]
  | .image image =>
      .record
        [(js "v", some (.integer 1)), (js "ts", some (.number image.ts)),
          (js "type", some (.string (js "image"))),
          (js "mime", some (.string image.mime.text)),
          (js "dataB64", some (.string (bytesToBase64 image.data))),
          (js "id", some (.string msg.id)),
          (js "from", some (.string msg.origin.text)),
          (js "w", image.w.map .number), (js "h", image.h.map .number),
          (js "replyTo", image.replyTo.map ReplyRef.toJson)]
  | .text text =>
      .record
        [(js "v", some (.integer 1)), (js "ts", some (.number text.ts)),
          (js "type", some (.string (js "text"))),
          (js "body", some (.string text.body)),
          (js "id", some (.string msg.id)),
          (js "from", some (.string msg.origin.text)),
          (js "replyTo", text.replyTo.map ReplyRef.toJson)]

def serializeMessages (messages : List (StoredMessage ν)) : JSString :=
  (Json.record [(js "messages", some (.array (messages.map toWire)))]).stringify

/-! ## Reading -/

/-- What `atob` throws. -/
def atobError : String := "InvalidCharacterError"

/-- The bytes of a message; nothing is returned where there are too many. -/
def wireBytes (b64 : JSString) : Except String (Option Bytes) :=
  match base64ToBytes b64 with
  | none => throw atobError
  | some data =>
      pure (if MAX_TRANSFER_BYTES < data.length then none else some data)

def imageFromWire (m : Json ν) (id : JSString) (origin : Origin) :
    Except String (Option (StoredMessage ν)) := do
  let some ts := numberAt m "ts" | pure none
  let some mime := (stringAt m "mime").bind ImageMime.ofText? | pure none
  let b64 := (stringAt m "dataB64").getD []
  if b64 = [] then pure none
  else
    let some data ← wireBytes b64 | pure none
    pure (some
      { content := .image
          { ts := ts, mime := mime, data := data, w := numberAt m "w"
            h := numberAt m "h", id := some id
            replyTo := parseReplyTo (m.get? (js "replyTo")) }
        id := id
        origin := origin })

def fileFromWire (nfc : JSString → JSString) (m : Json ν) (id : JSString)
    (origin : Origin) : Except String (Option (StoredMessage ν)) := do
  let some ts := numberAt m "ts" | pure none
  let some mime := (stringAt m "mime").filter fun mime => isValidMime mime
    | pure none
  let b64 := (stringAt m "dataB64").getD []
  let some data ← if b64 = [] then pure (some []) else wireBytes b64
    | pure none
  pure (some
    { content := .file
        { ts := ts
          name := sanitizeFileName nfc ((stringAt m "name").getD [])
          mime := mime, data := data, id := some id
          replyTo := parseReplyTo (m.get? (js "replyTo")) }
      id := id
      origin := origin })

def textFromWire (m : Json ν) (id : JSString) (origin : Origin) :
    Option (StoredMessage ν) := do
  let body ← stringAt m "body"
  let ts ← numberAt m "ts"
  pure
    { content := .text
        { ts := ts, body := body, id := some id
          replyTo := parseReplyTo (m.get? (js "replyTo")) }
      id := id
      origin := origin }

/-- Nothing is returned for what is no message. -/
def fromWire (nfc : JSString → JSString) (raw : Json ν) :
    Except String (Option (StoredMessage ν)) :=
  if raw.isObject then
    match stringAt raw "id", (stringAt raw "from").bind Origin.ofText? with
    | some id, some origin =>
        if stringAt raw "type" = some (js "image") then
          imageFromWire raw id origin
        else if stringAt raw "type" = some (js "file") then
          fileFromWire nfc raw id origin
        else if stringAt raw "type" = some (js "text") then
          pure (textFromWire raw id origin)
        else pure none
    | _, _ => pure none
  else pure none

/-- The messages of a payload; items that are no messages are left out. -/
def readMessages (nfc : JSString → JSString) (bad : String)
    (text : JSString) : Except String (List (StoredMessage ν)) :=
  match Json.parse text with
  | none => throw "SyntaxError"
  | some .null => throw nullError
  | some parsed =>
      match (parsed.get? (js "messages")).bind Json.array? with
      | none => throw bad
      | some items => do
          let out ← items.mapM (fromWire nfc)
          pure (out.filterMap id)

/-! ## Packing -/

/-- `CompressionStream` and `DecompressionStream`; nothing is returned where
they fail or are missing. -/
structure Gzip where
  compress : Bytes → Option Bytes
  decompress : Bytes → Option Bytes

/-- What is compressed is decompressed to what it was. -/
def Gzip.Lossless (gzip : Gzip) : Prop :=
  ∀ bytes, ∃ packed, gzip.compress bytes = some packed ∧
    gzip.decompress packed = some bytes

/-- The codec of history syncs. -/
def gzipCodec (ν : Type) [Numeric ν] (nfc : JSString → JSString)
    (gzip : Gzip) : HistoryCodec ν where
  packMessagesForSync messages :=
    gzip.compress (textEncode (serializeMessages messages))
  unpackMessagesFromSync compressed := do
    let pt ← gzip.decompress compressed
    let out ← (readMessages nfc "bad sync payload" (textDecode pt)).toOption
    pure (out.map flipFrom)

/-! ## Messages survive -/

/-- What the app stores.  The id of a message is also that of its content. -/
def StoredMessage.Storable (nfc : JSString → JSString)
    (msg : StoredMessage ν) : Prop :=
  match msg.content with
  | .text text =>
      Finite text.ts ∧ text.id = some msg.id ∧ IsReply text.replyTo
  | .image image =>
      Finite image.ts ∧ image.data.length ≤ MAX_TRANSFER_BYTES ∧
        Finites image.w ∧ Finites image.h ∧ image.id = some msg.id ∧
        IsReply image.replyTo
  | .file file =>
      Finite file.ts ∧ file.data.length ≤ MAX_TRANSFER_BYTES ∧
        isValidMime file.mime = true ∧
        sanitizeFileName nfc file.name = file.name ∧
        file.id = some msg.id ∧ IsReply file.replyTo

def StoredMessage.isEmptyImage (msg : StoredMessage ν) : Bool :=
  match msg.content with
  | .image image => image.data = []
  | _ => false

theorem Origin.ofText?_text (origin : Origin) :
    Origin.ofText? origin.text = some origin := by
  cases origin <;> rfl

theorem distinct_wireText :
    [js "v", js "ts", js "type", js "body", js "id", js "from",
      js "replyTo"].Nodup := by
  decide

theorem distinct_wireImage :
    [js "v", js "ts", js "type", js "mime", js "dataB64", js "id",
      js "from", js "w", js "h", js "replyTo"].Nodup := by
  decide

theorem distinct_wireFile :
    [js "v", js "ts", js "type", js "name", js "mime", js "dataB64",
      js "id", js "from", js "replyTo"].Nodup := by
  decide

theorem type_names : js "file" ≠ js "image" ∧ js "text" ≠ js "image" ∧
    js "text" ≠ js "file" := by
  decide

theorem regular_toWire {nfc : JSString → JSString} {msg : StoredMessage ν}
    (storable : msg.Storable nfc) : (toWire msg).Regular := by
  unfold StoredMessage.Storable at storable
  unfold toWire
  cases kind : msg.content with
  | text text =>
      rw [kind] at storable
      obtain ⟨finite, -, -⟩ := storable
      apply regular_record distinct_wireText rfl
      simp only [List.forall_mem_cons, List.not_mem_nil, false_implies,
        implies_true, and_true]
      exact ⟨.version, .number finite, .string _, .string _, .string _,
        .string _, .reply _⟩
  | image image =>
      rw [kind] at storable
      obtain ⟨finite, -, w, h, -, -⟩ := storable
      apply regular_record distinct_wireImage rfl
      simp only [List.forall_mem_cons, List.not_mem_nil, false_implies,
        implies_true, and_true]
      exact ⟨.version, .number finite, .string _, .string _, .string _,
        .string _, .string _, .numbers w, .numbers h, .reply _⟩
  | file file =>
      rw [kind] at storable
      obtain ⟨finite, -, -, -, -, -⟩ := storable
      apply regular_record distinct_wireFile rfl
      simp only [List.forall_mem_cons, List.not_mem_nil, false_implies,
        implies_true, and_true]
      exact ⟨.version, .number finite, .string _, .string _, .string _,
        .string _, .string _, .string _, .reply _⟩

theorem wireBytes_bytesToBase64 {data : Bytes}
    (size : data.length ≤ MAX_TRANSFER_BYTES) :
    wireBytes (bytesToBase64 data) = .ok (some data) := by
  have read : base64ToBytes (bytesToBase64 data) = some data := atob_btoa data
  unfold wireBytes
  rw [read]
  exact congrArg Except.ok (if_neg (Nat.not_lt.mpr size))

omit [Numeric ν] in
/-- The parts of a message by which it is told what it is. -/
theorem fromWire_record {fields : List (JSString × Option (Json ν))}
    {nfc : JSString → JSString} {id type : JSString} {origin : Origin}
    (named : stringAt (.record fields) "id" = some id)
    (sender : stringAt (.record fields) "from" = some origin.text)
    (typed : stringAt (.record fields) "type" = some type) :
    fromWire nfc (Json.record fields) =
      if type = js "image" then imageFromWire (.record fields) id origin
      else if type = js "file" then
        fileFromWire nfc (.record fields) id origin
      else if type = js "text" then
        pure (textFromWire (.record fields) id origin)
      else pure none := by
  have object : (Json.record fields).isObject = true := rfl
  unfold fromWire
  rw [if_pos object, named, sender, Option.bind_some, Origin.ofText?_text,
    typed]
  simp only [Option.some.injEq]

theorem fromWire_text {nfc : JSString → JSString} {text : TextPlainMessage ν}
    {id : JSString} {origin : Origin} (named : text.id = some id)
    (reply : IsReply text.replyTo) :
    fromWire nfc (toWire ⟨.text text, id, origin⟩) =
      .ok (some ⟨.text text, id, origin⟩) := by
  obtain ⟨-, other, other'⟩ := type_names
  unfold toWire
  rw [fromWire_record (stringAt_record distinct_wireText rfl rfl)
    (stringAt_record distinct_wireText rfl rfl)
    (stringAt_record distinct_wireText rfl rfl), if_neg other, if_neg other',
    if_pos rfl]
  unfold textFromWire
  rw [stringAt_record distinct_wireText rfl rfl,
    numberAt_record distinct_wireText rfl rfl,
    get?_record_eq (by exact distinct_wireText)]
  show Except.ok (some (StoredMessage.mk (.text ⟨text.ts, text.body, some id,
    parseReplyTo (text.replyTo.map ReplyRef.toJson)⟩) id origin)) = _
  rw [parseReplyTo_toJson reply, ← named]

theorem bytesToBase64_eq_nil {data : Bytes} :
    bytesToBase64 data = [] ↔ data = [] := by
  constructor
  · intro empty
    have read := congrArg base64ToBytes empty
    rw [show base64ToBytes (bytesToBase64 data) = some data from
      atob_btoa data] at read
    have nothing : base64ToBytes [] = some [] :=
      rfl
    rw [nothing] at read
    exact Option.some.inj read
  · rintro rfl
    rfl

omit [Numeric ν] in
theorem imageFromWire_of_reads {m : Json ν} {image : ImagePlainMessage ν}
    {id : JSString} {origin : Origin}
    (size : image.data.length ≤ MAX_TRANSFER_BYTES)
    (named : image.id = some id) (time : numberAt m "ts" = some image.ts)
    (mime : stringAt m "mime" = some image.mime.text)
    (b64 : stringAt m "dataB64" = some (bytesToBase64 image.data))
    (w : numberAt m "w" = image.w) (h : numberAt m "h" = image.h)
    (reply : parseReplyTo (m.get? (js "replyTo")) = image.replyTo) :
    imageFromWire m id origin =
      .ok (if image.data = [] then none
        else some ⟨.image image, id, origin⟩) := by
  unfold imageFromWire
  rw [time, mime, b64, w, h, reply, ← named]
  dsimp only [Option.bind_some, Option.getD_some]
  rw [mime_ofText?_text]
  dsimp only
  by_cases empty : image.data = []
  · rw [if_pos (bytesToBase64_eq_nil.mpr empty), if_pos empty]
    rfl
  · rw [if_neg (fun text => empty (bytesToBase64_eq_nil.mp text)),
      wireBytes_bytesToBase64 size, if_neg empty]
    rfl

theorem fromWire_image {nfc : JSString → JSString}
    {image : ImagePlainMessage ν} {id : JSString} {origin : Origin}
    (size : image.data.length ≤ MAX_TRANSFER_BYTES)
    (named : image.id = some id) (reply : IsReply image.replyTo) :
    fromWire nfc (toWire ⟨.image image, id, origin⟩) =
      .ok (if image.data = [] then none
        else some ⟨.image image, id, origin⟩) := by
  unfold toWire
  rw [fromWire_record (stringAt_record distinct_wireImage rfl rfl)
    (stringAt_record distinct_wireImage rfl rfl)
    (stringAt_record distinct_wireImage rfl rfl), if_pos rfl]
  apply imageFromWire_of_reads size named
  · exact numberAt_record distinct_wireImage rfl rfl
  · exact stringAt_record distinct_wireImage rfl rfl
  · exact stringAt_record distinct_wireImage rfl rfl
  · exact (numberAt_record distinct_wireImage rfl rfl).trans (bind_number _)
  · exact (numberAt_record distinct_wireImage rfl rfl).trans (bind_number _)
  · rw [get?_record_eq (by exact distinct_wireImage)]
    exact parseReplyTo_toJson reply

omit [Numeric ν] in
theorem fileFromWire_of_reads {nfc : JSString → JSString} {m : Json ν}
    {file : FilePlainMessage ν} {id : JSString} {origin : Origin}
    (size : file.data.length ≤ MAX_TRANSFER_BYTES)
    (valid : isValidMime file.mime = true)
    (safe : sanitizeFileName nfc file.name = file.name)
    (named : file.id = some id) (time : numberAt m "ts" = some file.ts)
    (name : stringAt m "name" = some file.name)
    (mime : stringAt m "mime" = some file.mime)
    (b64 : stringAt m "dataB64" = some (bytesToBase64 file.data))
    (reply : parseReplyTo (m.get? (js "replyTo")) = file.replyTo) :
    fileFromWire nfc m id origin = .ok (some ⟨.file file, id, origin⟩) := by
  unfold fileFromWire
  rw [time, mime, b64, name, reply, ← named]
  dsimp only [Option.getD_some]
  rw [Option.filter_some, valid, if_pos rfl, safe]
  dsimp only
  by_cases empty : file.data = []
  · rw [if_pos (bytesToBase64_eq_nil.mpr empty), ← empty]
    rfl
  · rw [if_neg (fun text => empty (bytesToBase64_eq_nil.mp text)),
      wireBytes_bytesToBase64 size]
    rfl

theorem fromWire_file {nfc : JSString → JSString} {file : FilePlainMessage ν}
    {id : JSString} {origin : Origin}
    (size : file.data.length ≤ MAX_TRANSFER_BYTES)
    (valid : isValidMime file.mime = true)
    (safe : sanitizeFileName nfc file.name = file.name)
    (named : file.id = some id) (reply : IsReply file.replyTo) :
    fromWire nfc (toWire ⟨.file file, id, origin⟩) =
      .ok (some ⟨.file file, id, origin⟩) := by
  obtain ⟨other, -, -⟩ := type_names
  unfold toWire
  rw [fromWire_record (stringAt_record distinct_wireFile rfl rfl)
    (stringAt_record distinct_wireFile rfl rfl)
    (stringAt_record distinct_wireFile rfl rfl), if_neg other, if_pos rfl]
  apply fileFromWire_of_reads size valid safe named
  · exact numberAt_record distinct_wireFile rfl rfl
  · exact stringAt_record distinct_wireFile rfl rfl
  · exact stringAt_record distinct_wireFile rfl rfl
  · exact stringAt_record distinct_wireFile rfl rfl
  · rw [get?_record_eq (by exact distinct_wireFile)]
    exact parseReplyTo_toJson reply

/-- A stored message is read as it was, unless it is an image without
bytes. -/
theorem fromWire_toWire {nfc : JSString → JSString} {msg : StoredMessage ν}
    (storable : msg.Storable nfc) :
    fromWire nfc (toWire msg) =
      .ok (if msg.isEmptyImage then none else some msg) := by
  obtain ⟨content, id, origin⟩ := msg
  cases content with
  | text text =>
      obtain ⟨-, named, reply⟩ := storable
      exact fromWire_text named reply
  | image image =>
      obtain ⟨-, size, -, -, named, reply⟩ := storable
      rw [fromWire_image size named reply]
      simp [StoredMessage.isEmptyImage]
  | file file =>
      obtain ⟨-, size, valid, safe, named, reply⟩ := storable
      exact fromWire_file size valid safe named reply

/-! ## Payloads survive -/

/-- The value of a property has no object with a key twice. -/
def Keyed (value : Option (Json ν)) : Prop :=
  ∀ v ∈ value, v.Distinct

omit [Numeric ν] in
theorem Keyed.of_distinct {v : Json ν} (distinct : v.Distinct) :
    Keyed (some v) := by
  intro v' member
  obtain rfl := Option.some.inj member
  exact distinct

omit [Numeric ν] in
theorem Keyed.numbers (n : Option ν) : Keyed (n.map Json.number) := by
  cases n with
  | none =>
      intro v member
      cases member
  | some n => exact .of_distinct (.number n)

theorem Keyed.reply (r : Option ReplyRef) :
    Keyed (r.map (ReplyRef.toJson (ν := ν))) :=
  fun v member => (Writable.reply r v member).distinct

omit [Numeric ν] in
theorem distinct_record {fields : List (JSString × Option (Json ν))}
    {keys : List JSString} (distinct : keys.Nodup)
    (named : fields.map Prod.fst = keys)
    (keyed : ∀ field ∈ fields, Keyed field.2) :
    (Json.record fields).Distinct :=
  .record (named ▸ distinct) keyed

theorem distinct_toWire (msg : StoredMessage ν) : (toWire msg).Distinct := by
  have text : ∀ s : JSString, Keyed (some (Json.string (ν := ν) s)) :=
    fun s => .of_distinct (.string s)
  have number : ∀ n : ν, Keyed (some (Json.number n)) :=
    fun n => .of_distinct (.number n)
  unfold toWire
  cases msg.content with
  | text message =>
      apply distinct_record distinct_wireText rfl
      simp only [List.forall_mem_cons, List.not_mem_nil, false_implies,
        implies_true, and_true]
      exact ⟨number _, number _, text _, text _, text _, text _, .reply _⟩
  | image image =>
      apply distinct_record distinct_wireImage rfl
      simp only [List.forall_mem_cons, List.not_mem_nil, false_implies,
        implies_true, and_true]
      exact ⟨number _, number _, text _, text _, text _, text _, text _,
        .numbers _, .numbers _, .reply _⟩
  | file file =>
      apply distinct_record distinct_wireFile rfl
      simp only [List.forall_mem_cons, List.not_mem_nil, false_implies,
        implies_true, and_true]
      exact ⟨number _, number _, text _, text _, text _, text _, text _,
        text _, .reply _⟩

omit [Numeric ν] in
theorem mapM_fromWire {nfc : JSString → JSString}
    {write : StoredMessage ν → Json ν}
    {read : StoredMessage ν → Option (StoredMessage ν)}
    {messages : List (StoredMessage ν)}
    (each : ∀ msg ∈ messages, fromWire nfc (write msg) = .ok (read msg)) :
    (messages.map write).mapM (fromWire nfc) = .ok (messages.map read) := by
  induction messages with
  | nil => rfl
  | cons msg messages induction =>
      obtain ⟨first, later⟩ := List.forall_mem_cons.mp each
      rw [List.map_cons, List.mapM_cons, first, induction later]
      rfl

/-- A payload is read message by message. -/
theorem readMessages_serializeMessages {nfc : JSString → JSString}
    {read : StoredMessage ν → Option (StoredMessage ν)}
    {messages : List (StoredMessage ν)}
    (each : ∀ msg ∈ messages,
      fromWire nfc (toWire msg).norm = .ok (read msg)) (bad : String) :
    readMessages nfc bad (textDecode (textEncode
        (serializeMessages messages))) = .ok (messages.filterMap read) := by
  have distinct : (Json.object
      [(js "messages", Json.array (messages.map toWire))]).Distinct := by
    apply Json.Distinct.object
    · exact List.nodup_singleton _
    intro m member
    rw [List.mem_singleton.mp member]
    apply Json.Distinct.array
    intro v inside
    obtain ⟨msg, -, rfl⟩ := List.mem_map.mp inside
    exact distinct_toWire msg
  have parsed := Json.parse_textDecode_norm distinct
  rw [Json.norm, Json.normMembers, Json.normMembers, Json.normMember,
    Json.norm, Json.normItems_eq, List.map_map] at parsed
  have items := mapM_fromWire each
  unfold readMessages
  rw [show serializeMessages messages = (Json.object
    [(js "messages", Json.array (messages.map toWire))]).stringify from rfl,
    parsed]
  show (do
    let out ← (messages.map (Json.norm ∘ toWire)).mapM (fromWire nfc)
    pure (out.filterMap id)) = _
  rw [show messages.map (Json.norm ∘ toWire) =
    messages.map fun msg => (toWire msg).norm from rfl, items]
  show Except.ok ((messages.map read).filterMap id) = _
  rw [List.filterMap_map]
  rfl

/-- What a sync makes of stored messages. -/
theorem unpack_pack {nfc : JSString → JSString} {gzip : Gzip}
    (lossless : gzip.Lossless) {messages : List (StoredMessage ν)}
    (storable : ∀ msg ∈ messages, msg.Storable nfc) :
    ((gzipCodec ν nfc gzip).packMessagesForSync messages).bind
        (gzipCodec ν nfc gzip).unpackMessagesFromSync =
      some ((messages.filter fun msg => !msg.isEmptyImage).map flipFrom) := by
  obtain ⟨packed, compressed, decompressed⟩ :=
    lossless (textEncode (serializeMessages messages))
  have each : ∀ msg ∈ messages, fromWire nfc (toWire msg).norm =
      .ok (if msg.isEmptyImage then none else some msg) := by
    intro msg member
    have valid := storable msg member
    rw [(regular_toWire valid).norm_eq, fromWire_toWire valid]
  have read := readMessages_serializeMessages each "bad sync payload"
  have kept : (messages.filterMap fun msg =>
      if msg.isEmptyImage then none else some msg) =
      messages.filter fun msg => !msg.isEmptyImage := by
    rw [← List.filterMap_eq_filter]
    apply List.filterMap_congr
    intro msg _
    cases empty : msg.isEmptyImage with
    | false => simp [Option.guard, empty]
    | true => simp [Option.guard, empty]
  rw [kept] at read
  simp only [gzipCodec, compressed, Option.bind_some, decompressed, read,
    Except.toOption, Option.bind_eq_bind, Option.pure_def]

/-- Stored messages survive exports and syncs, all but images without
bytes. -/
theorem history_survives_iff {nfc : JSString → JSString} {gzip : Gzip}
    (lossless : gzip.Lossless) {messages : List (StoredMessage ν)}
    (storable : ∀ msg ∈ messages, msg.Storable nfc) :
    ((∀ msg ∈ messages,
        (Json.parse (toWire msg).stringify).map (fromWire nfc) =
          some (.ok (some msg))) ∧
      ((gzipCodec ν nfc gzip).packMessagesForSync messages).bind
          (gzipCodec ν nfc gzip).unpackMessagesFromSync =
        some (messages.map flipFrom)) ↔
      ∀ msg ∈ messages, msg.isEmptyImage = false := by
  have each : ∀ msg ∈ messages,
      (Json.parse (toWire msg).stringify).map (fromWire nfc) =
        some (.ok (if msg.isEmptyImage then none else some msg)) := by
    intro msg member
    have valid := storable msg member
    rw [Json.parse_stringify (regular_toWire valid), Option.map_some,
      fromWire_toWire valid]
  constructor
  · rintro ⟨survive, -⟩ msg member
    have read := survive msg member
    rw [each msg member] at read
    cases empty : msg.isEmptyImage with
    | false => rfl
    | true =>
        rw [empty] at read
        cases read
  · intro full
    constructor
    · intro msg member
      rw [each msg member, full msg member]
      rfl
    · have all : (messages.filter fun msg => !msg.isEmptyImage) =
          messages := by
        rw [List.filter_eq_self]
        intro msg member
        rw [full msg member]
        rfl
      rw [unpack_pack lossless storable, all]

/-! ## Two messages -/

/-- Streams that compress nothing. -/
def plainGzip : Gzip where
  compress := some
  decompress := some

theorem lossless_plainGzip : plainGzip.Lossless :=
  fun bytes => ⟨bytes, rfl, rfl⟩

def textMessage : StoredMessage Int where
  content := .text
    { ts := 7, body := js "hi", id := some (js "a"), replyTo := none }
  id := js "a"
  origin := .self

/-- An image of no bytes. -/
def emptyImage : StoredMessage Int where
  content := .image
    { ts := 7, mime := .png, data := [], w := none, h := none
      id := some (js "b"), replyTo := none }
  id := js "b"
  origin := .self

theorem storable_emptyImage (nfc : JSString → JSString) :
    emptyImage.Storable nfc :=
  ⟨rfl, Nat.zero_le _, by simp [Finites], by simp [Finites], rfl,
    by simp [IsReply]⟩

/-- A text, an image, a file, and a reply to the file. -/
def smallHistory : List (StoredMessage Int) :=
  [textMessage,
    { content := .image
        { ts := 8, mime := .png, data := [0x89, 0x50], w := some 1, h := none
          id := some (js "c"), replyTo := none }
      id := js "c"
      origin := .peer },
    { content := .file
        { ts := 9, name := js "notes.txt", mime := js "text/plain"
          data := [1, 2, 3], id := some (js "d"), replyTo := none }
      id := js "d"
      origin := .self },
    { content := .text
        { ts := 10, body := js "thanks", id := some (js "e")
          replyTo := some ⟨js "d", js "notes.txt"⟩ }
      id := js "e"
      origin := .peer }]

theorem storable_smallHistory :
    ∀ msg ∈ smallHistory, msg.Storable id := by
  intro msg member
  simp only [smallHistory, List.mem_cons, List.not_mem_nil, or_false] at member
  rcases member with rfl | rfl | rfl | rfl
  · exact ⟨rfl, rfl, nofun⟩
  · exact ⟨rfl, by decide, by rintro _ ⟨⟩; rfl, nofun, rfl, nofun⟩
  · exact ⟨rfl, by decide, by decide, by decide, rfl, nofun⟩
  · exact ⟨rfl, rfl, by rintro _ ⟨⟩; decide⟩

theorem history_survives_iff_small :
    ((gzipCodec Int id plainGzip).packMessagesForSync smallHistory).bind
        (gzipCodec Int id plainGzip).unpackMessagesFromSync =
      some (smallHistory.map flipFrom) :=
  ((history_survives_iff lossless_plainGzip storable_smallHistory).mpr
    (by decide)).2

/-- An image of no bytes is neither read back nor synced. -/
theorem emptyImage_lost :
    emptyImage.Storable id ∧
      (Json.parse (toWire emptyImage).stringify).map (fromWire (ν := Int) id) =
        some (.ok none) ∧
      ((gzipCodec Int id plainGzip).packMessagesForSync [emptyImage]).bind
        (gzipCodec Int id plainGzip).unpackMessagesFromSync = some [] := by
  have storable := storable_emptyImage id
  refine ⟨storable, ?_, ?_⟩
  · rw [Json.parse_stringify (regular_toWire storable), Option.map_some,
      fromWire_toWire storable]
    rfl
  · have all : ∀ msg ∈ [emptyImage], msg.Storable id := by
      intro msg member
      rw [List.mem_singleton.mp member]
      exact storable
    rw [unpack_pack lossless_plainGzip all]
    rfl

end Byteln.Client

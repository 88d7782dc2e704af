import Byteln.Client.Plaintext
import Byteln.Library.Decimal

/-!
# Messages survive the wire

What `encodePlaintext` writes `decodePlaintext` reads as the message it was,
for each of the types the app sends.
-/

namespace Byteln.Client

open Byteln.Library

variable {ν : Type} [Numeric ν]

/-! ## Reading objects that were written -/

/-- The value of a property of an object literal. -/
def lookupField (fields : List (JSString × Option (Json ν)))
    (key : JSString) : Option (Json ν) :=
  (fields.find? fun field => field.1 = key).bind Prod.snd

omit [Numeric ν] in
theorem get?_record_eq {fields : List (JSString × Option (Json ν))}
    (nodup : (fields.map Prod.fst).Nodup) (key : JSString) :
    (Json.record fields).get? key = lookupField fields key := by
  unfold lookupField
  cases found : fields.find? fun field => field.1 = key with
  | some field =>
      have same : field.1 = key := by
        have test := List.find?_some found
        exact of_decide_eq_true test
      subst same
      exact Json.get?_record nodup (List.mem_of_find?_eq_some found)
  | none =>
      have absent := List.find?_eq_none.mp found
      simp only [Json.record, Json.get?, Option.bind_none,
        Option.map_eq_none_iff, List.find?_eq_none]
      intro m member same
      obtain ⟨field, inFields, mapped⟩ := List.mem_filterMap.mp member
      obtain ⟨v, -, rfl⟩ := Option.map_eq_some_iff.mp mapped
      exact absent field inFields same

section

variable {fields : List (JSString × Option (Json ν))} {keys : List JSString}
  {key : String} {value : Option (Json ν)}

omit [Numeric ν] in
theorem stringAt_record (distinct : keys.Nodup)
    (named : fields.map Prod.fst = keys)
    (found : lookupField fields (js key) = value) :
    stringAt (.record fields) key = value.bind Json.string? := by
  rw [stringAt, get?_record_eq (named ▸ distinct), found]

omit [Numeric ν] in
theorem numberAt_record (distinct : keys.Nodup)
    (named : fields.map Prod.fst = keys)
    (found : lookupField fields (js key) = value) :
    numberAt (.record fields) key = value.bind Json.number? := by
  rw [numberAt, get?_record_eq (named ▸ distinct), found]

theorem integerAt_record (distinct : keys.Nodup)
    (named : fields.map Prod.fst = keys)
    (found : lookupField fields (js key) = value) :
    integerAt (.record fields) key = value.bind Json.integer? := by
  rw [integerAt, get?_record_eq (named ▸ distinct), found]

omit [Numeric ν] in
theorem arrayAt_record (distinct : keys.Nodup)
    (named : fields.map Prod.fst = keys)
    (found : lookupField fields (js key) = value) :
    arrayAt (.record fields) key = value.bind Json.array? := by
  rw [arrayAt, get?_record_eq (named ▸ distinct), found]

omit [Numeric ν] in
theorem flagAt_record (distinct : keys.Nodup)
    (named : fields.map Prod.fst = keys)
    (found : lookupField fields (js key) = value) :
    flagAt (.record fields) key = value.any Json.isTrue := by
  rw [flagAt, get?_record_eq (named ▸ distinct), found]

end

/-! ## Values -/

/-- A natural number that is a number of JavaScript. -/
def IsNumber (ν : Type) [Numeric ν] (k : Nat) : Prop :=
  ∃ n : ν, Numeric.toInt? n = some (k : Int)

theorem isNumber_of_lt {k : Nat} (small : k < 2 ^ 53) : IsNumber ν k :=
  ⟨Numeric.ofInt k, Numeric.toInt?_ofInt k (by simpa using small)⟩

theorem IsNumber.toInt? {k : Nat} (number : IsNumber ν k) :
    Numeric.toInt? (Numeric.ofInt k : ν) = some (k : Int) := by
  obtain ⟨n, value⟩ := number
  rw [Numeric.ofInt_of_toInt? n k value]
  exact value

theorem integer?_integer {k : Nat} (number : IsNumber ν k) :
    (Json.integer (ν := ν) k).integer? = some (k : Int) :=
  number.toInt?

/-- The value of a property can be written, if there is one. -/
def Writable (value : Option (Json ν)) : Prop :=
  ∀ v ∈ value, v.Regular

theorem Writable.string (s : JSString) :
    Writable (some (Json.string (ν := ν) s)) := by
  intro v member
  obtain rfl := Option.some.inj member
  exact .string s

theorem Writable.number {n : ν} (finite : Numeric.isFinite n = true) :
    Writable (some (Json.number n)) := by
  intro v member
  obtain rfl := Option.some.inj member
  exact .number finite

theorem Writable.integer {k : Nat} (number : IsNumber ν k) :
    Writable (some (Json.integer (ν := ν) k)) :=
  .number (Numeric.isFinite_of_toInt? _ _ number.toInt?)

theorem Writable.version : Writable (some (Json.integer (ν := ν) 1)) := by
  exact Writable.integer (k := 1) (isNumber_of_lt (by decide))

theorem Writable.none : Writable (none : Option (Json ν)) := by
  intro v member
  cases member

theorem Writable.strings (s : Option JSString) :
    Writable (s.map (Json.string (ν := ν))) := by
  cases s with
  | none => exact .none
  | some s => exact .string s

theorem Writable.numbers {n : Option ν}
    (finite : ∀ x ∈ n, Numeric.isFinite x = true) :
    Writable (n.map Json.number) := by
  cases n with
  | none => exact .none
  | some n => exact .number (finite n rfl)

theorem Writable.flag (b : Bool) : Writable (Client.flag (ν := ν) b) := by
  cases b with
  | false => exact .none
  | true =>
      intro v member
      obtain rfl := Option.some.inj member
      exact .bool true

theorem regular_record {fields : List (JSString × Option (Json ν))}
    {keys : List JSString} (distinct : keys.Nodup)
    (named : fields.map Prod.fst = keys)
    (writable : ∀ field ∈ fields, Writable field.2) :
    (Json.record fields).Regular :=
  .record (named ▸ distinct) writable

theorem Writable.record {v : Json ν} (regular : v.Regular) :
    Writable (some v) := by
  intro v' member
  obtain rfl := Option.some.inj member
  exact regular

theorem nodup_reply : [js "id", js "preview"].Nodup := by
  decide

theorem Writable.reply (r : Option ReplyRef) :
    Writable (r.map (ReplyRef.toJson (ν := ν))) := by
  cases r with
  | none => exact .none
  | some r =>
      apply Writable.record
      apply regular_record nodup_reply rfl
      simp only [List.forall_mem_cons, List.not_mem_nil, false_implies,
        implies_true, and_true]
      exact ⟨.string _, .string _⟩

/-- A reply refers to a message. -/
def IsReply (r : Option ReplyRef) : Prop :=
  ∀ x ∈ r, x.id ≠ []

omit [Numeric ν] in
theorem parseReplyTo_toJson {r : Option ReplyRef} (valid : IsReply r) :
    parseReplyTo (r.map (ReplyRef.toJson (ν := ν))) = r := by
  cases r with
  | none => rfl
  | some r =>
      have id : stringAt (ReplyRef.toJson (ν := ν) r) "id" = some r.id :=
        stringAt_record nodup_reply rfl rfl
      have preview : stringAt (ReplyRef.toJson (ν := ν) r) "preview" =
          some r.preview := stringAt_record nodup_reply rfl rfl
      have some_ : nonempty (some r.id) = some r.id := by
        simp [nonempty, valid r rfl]
      simp only [parseReplyTo, textAt, Option.map_some, id, preview, some_,
        Option.bind_eq_bind, Option.bind_some, Option.pure_def]

/-! ## Envelopes -/

omit [Numeric ν] in
theorem record_ne_null (fields : List (JSString × Option (Json ν))) :
    Json.record fields ≠ .null := by
  intro same
  cases same

theorem parse_encodeObject {fields : List (JSString × Option (Json ν))}
    (regular : (Json.record fields).Regular) :
    Json.parse (textDecode (encodeObject (Json.record fields))) =
      some (Json.record fields) :=
  Json.parse_textDecode regular

/-- A JSON text starts with a brace. -/
theorem head?_encodeObject (fields : List (JSString × Option (Json ν))) :
    (encodeObject (Json.record fields)).head? = some 0x7b := by
  have brace : ∃ rest, (Json.record fields).stringify = 0x7b :: rest := by
    unfold Json.record
    cases fields.filterMap fun field => field.2.map fun v => (field.1, v) with
    | nil => exact ⟨_, rfl⟩
    | cons m members => exact ⟨_, rfl⟩
  obtain ⟨rest, text⟩ := brace
  rw [encodeObject, text, textEncode, codePoints_cons rfl rfl]
  rfl

section

variable {nfc : JSString → JSString}
  {fields : List (JSString × Option (Json ν))}

theorem decodePlaintext_text {ts : ν}
    (regular : (Json.record fields).Regular)
    (version : integerAt (Json.record fields) "v" = some 1)
    (time : numberAt (Json.record fields) "ts" = some ts) :
    decodePlaintext nfc (encodeObject (Json.record fields)) =
      decodeText (Json.record fields) ts := by
  unfold decodePlaintext
  rw [head?_encodeObject, parse_encodeObject regular]
  dsimp only
  rw [if_neg (by decide), if_neg (by decide), if_neg (by decide),
    if_neg (by decide)]
  split
  · rename_i none_
    cases none_
  · rename_i null
    exact absurd (Option.some.inj null) (record_ne_null fields)
  · rename_i obj _ same
    obtain rfl := Option.some.inj same
    rw [if_pos version, time]

/-- The parts of a binary envelope. -/
theorem openEnvelope_of_encode {mark : UInt8} {payload pt : Bytes}
    (regular : (Json.record fields).Regular)
    (encoded : encodeBinaryEnvelope mark (Json.record fields) payload =
      .ok pt) :
    pt.head? = some mark ∧
      openEnvelope pt = .ok (Json.record fields, payload) := by
  unfold encodeBinaryEnvelope at encoded
  dsimp only at encoded
  split at encoded
  · cases encoded
  · rename_i short
    obtain rfl := Except.ok.inj encoded
    refine ⟨rfl, ?_⟩
    have high := toNat_ofNat_of_lt
      (n := (encodeObject (Json.record fields)).length / 0x100) (by omega)
    have low := toNat_ofNat_of_lt
      (n := (encodeObject (Json.record fields)).length % 0x100) (by omega)
    have length := Nat.div_add_mod'
      (encodeObject (Json.record fields)).length 0x100
    simp only [openEnvelope, high, low, length]
    rw [if_neg (by simp), List.take_left, List.drop_left,
      parse_encodeObject regular]
    split
    · rename_i none_
      cases none_
    · rename_i null
      exact absurd (Option.some.inj null) (record_ne_null fields)
    · rename_i obj _ same
      obtain rfl := Option.some.inj same
      rfl

end

/-! ## Well-formed messages -/

/-- An optional string is absent or not empty. -/
def IsOptional (s : Option JSString) : Prop :=
  s ≠ some []

theorem nonempty_of_isOptional {s : Option JSString} (valid : IsOptional s) :
    nonempty s = s := by
  cases s with
  | none => rfl
  | some s =>
      have some_ : s ≠ [] := fun empty => valid (congrArg some empty)
      simp [nonempty, some_]

theorem nonempty_some {s : JSString} (some_ : s ≠ []) :
    nonempty (some s) = some s := by
  simp [nonempty, some_]

omit [Numeric ν] in
theorem bind_string (s : Option JSString) :
    (s.map (Json.string (ν := ν))).bind Json.string? = s := by
  cases s <;> rfl

omit [Numeric ν] in
theorem bind_number (n : Option ν) :
    (n.map Json.number).bind Json.number? = n := by
  cases n <;> rfl

def Finite (n : ν) : Prop :=
  Numeric.isFinite n = true

def Finites (n : Option ν) : Prop :=
  ∀ x ∈ n, Numeric.isFinite x = true

/-- The id of a transfer. -/
def IsTransferId (id : JSString) : Prop :=
  id ≠ [] ∧ id.length ≤ 64

/-- What the app promises of a message that it sends. -/
def PlainMessage.WellFormed (nfc : JSString → JSString) :
    PlainMessage ν → Prop
  | .text msg => Finite msg.ts ∧ IsOptional msg.id ∧ IsReply msg.replyTo
  | .image msg =>
      Finite msg.ts ∧ msg.data.length ≤ MAX_IMAGE_BYTES ∧ Finites msg.w ∧
        Finites msg.h ∧ IsOptional msg.id ∧ IsReply msg.replyTo
  | .file _ => True
  | .delete ts id => Finite ts ∧ id ≠ []
  | .imageChunk msg =>
      msg.id ≠ [] ∧ msg.index < msg.total ∧
        msg.total ≤ MAX_TRANSFER_CHUNKS ∧
        msg.data.length ≤ IMAGE_CHUNK_PAYLOAD_BYTES ∧
        if msg.index = 0 then
          (∃ ts, msg.ts = some ts) ∧ (∃ mime, msg.mime = some mime) ∧
            (∃ n, msg.byteLength = some n ∧ n ≤ MAX_IMAGE_BYTES) ∧
            Finites msg.ts ∧ Finites msg.w ∧ Finites msg.h ∧
            IsReply msg.replyTo
        else
          msg.ts = none ∧ msg.mime = none ∧ msg.byteLength = none ∧
            msg.w = none ∧ msg.h = none ∧ msg.replyTo = none
  | .historyChunk msg =>
      msg.id ≠ [] ∧ msg.index < msg.total ∧ IsNumber ν msg.index ∧
        IsNumber ν msg.total ∧
        msg.data.length ≤ HISTORY_CHUNK_PAYLOAD_BYTES ∧
        if msg.index = 0 then
          ∃ n, msg.compressedLength = some n ∧ IsNumber ν n
        else msg.compressedLength = none
  | .xferChunk msg =>
      IsTransferId msg.id ∧
        parseTransferHeader nfc (some msg.header.toJson) = .ok msg.header ∧
        msg.total = transferChunkCount msg.header.size ∧
        msg.index < msg.total ∧
        msg.data.length = transferChunkLength msg.header.size msg.index
  | .xferAck msg =>
      Finite msg.ts ∧ IsTransferId msg.id ∧
        msg.haves.length ≤ MAX_TRANSFER_CHUNKS ∧
        ∀ i ∈ msg.haves, i < MAX_TRANSFER_CHUNKS
  | .xferQuery msg => Finite msg.ts ∧ IsTransferId msg.id
  | .xferCancel msg =>
      Finite msg.ts ∧ IsTransferId msg.id ∧ IsOptional msg.reason ∧
        ∀ reason ∈ msg.reason, reason.length ≤ 64
  | .historyDigest msg =>
      Finite msg.ts ∧ Finite msg.count ∧ msg.idHash ≠ [] ∧
        IsOptional msg.deviceFp
  | .resyncRequest ts id deviceFp => Finite ts ∧ id ≠ [] ∧ IsOptional deviceFp
  | .resyncAccept ts id ids => Finite ts ∧ id ≠ [] ∧ ∀ x ∈ ids, x ≠ []
  | .resyncReject ts id reason => Finite ts ∧ id ≠ [] ∧ IsOptional reason
  | .resyncIds ts id ids => Finite ts ∧ id ≠ [] ∧ ∀ x ∈ ids, x ≠ []
  | .wipeHistory ts id => Finite ts ∧ id ≠ []

/-! ## JSON texts -/

section

variable {nfc : JSString → JSString} {ts : ν} {id : JSString} {pt : Bytes}

theorem decodePlaintext_record
    {fields : List (JSString × Option (Json ν))} {keys : List JSString}
    (distinct : keys.Nodup) (named : fields.map Prod.fst = keys)
    (writable : ∀ field ∈ fields, Writable field.2)
    (version : lookupField fields (js "v") = some (.integer 1))
    (time : lookupField fields (js "ts") = some (.number ts)) :
    decodePlaintext nfc (encodeObject (Json.record fields)) =
      decodeText (Json.record fields) ts := by
  apply decodePlaintext_text
  · exact regular_record distinct named writable
  · rw [integerAt_record distinct named version]
    exact integer?_integer (k := 1) (isNumber_of_lt (by decide))
  · exact numberAt_record distinct named time

theorem distinct_id : [js "v", js "ts", js "type", js "id"].Nodup := by
  decide

variable (nfc) in
/-- A message that says no more than its id. -/
theorem decodePlaintext_encodeId {type : String} (finite : Finite ts)
    (encoded : encodeId type ts id = .ok pt) :
    ∃ obj : Json ν, decodePlaintext nfc pt = decodeText obj ts ∧
      stringAt obj "type" = some (js type) ∧ textAt obj "id" = some id := by
  unfold encodeId at encoded
  split at encoded
  · cases encoded
  · rename_i some_
    obtain rfl := Except.ok.inj encoded
    refine ⟨_, decodePlaintext_record distinct_id rfl ?_ rfl rfl, ?_, ?_⟩
    · simp only [List.forall_mem_cons, List.not_mem_nil, false_implies,
        implies_true, and_true]
      exact ⟨.version, .number finite, .string _, .string _⟩
    · exact stringAt_record distinct_id rfl rfl
    · rw [textAt, stringAt_record distinct_id rfl rfl]
      exact nonempty_some some_

theorem decodePlaintext_delete (finite : Finite ts)
    (encoded : encodePlaintext (.delete ts id) = .ok pt) :
    decodePlaintext nfc pt = .ok (.delete ts id) := by
  obtain ⟨obj, decoded, type, named⟩ :=
    decodePlaintext_encodeId nfc finite encoded
  rw [decoded]
  simp only [decodeText, type, named]
  rfl

theorem decodePlaintext_wipeHistory (finite : Finite ts)
    (encoded : encodePlaintext (.wipeHistory ts id) = .ok pt) :
    decodePlaintext nfc pt = .ok (.wipeHistory ts id) := by
  obtain ⟨obj, decoded, type, named⟩ :=
    decodePlaintext_encodeId nfc finite encoded
  rw [decoded]
  simp only [decodeText, type, named]
  rfl

variable (nfc) in
/-- A message with one more string. -/
theorem decodePlaintext_encodeWith {type key : String}
    {value : Option JSString} (distinct : [js "v", js "ts", js "type",
      js "id", js key].Nodup) (finite : Finite ts)
    (valid : IsOptional value)
    (encoded : encodeWith type key ts id value = .ok pt) :
    ∃ obj : Json ν, decodePlaintext nfc pt = decodeText obj ts ∧
      stringAt obj "type" = some (js type) ∧ textAt obj "id" = some id ∧
      stringAt obj key = value := by
  unfold encodeWith at encoded
  split at encoded
  · cases encoded
  · rename_i some_
    obtain rfl := Except.ok.inj encoded
    refine ⟨_, decodePlaintext_record distinct rfl ?_ rfl rfl, ?_, ?_, ?_⟩
    · simp only [List.forall_mem_cons, List.not_mem_nil, false_implies,
        implies_true, and_true]
      exact ⟨.version, .number finite, .string _, .string _, .strings _⟩
    · exact stringAt_record distinct rfl rfl
    · rw [textAt, stringAt_record distinct rfl rfl]
      exact nonempty_some some_
    · have member : (js key, (nonempty value).map Json.string) ∈
          [(js "v", some (.integer (ν := ν) 1)),
            (js "ts", some (.number ts)),
            (js "type", some (.string (js type))),
            (js "id", some (.string id)),
            (js key, (nonempty value).map .string)] := by
        simp
      rw [stringAt, Json.get?_record (by exact distinct) member,
        nonempty_of_isOptional valid]
      exact bind_string value

theorem decodePlaintext_resyncRequest {deviceFp : Option JSString}
    (finite : Finite ts) (valid : IsOptional deviceFp)
    (encoded : encodePlaintext (.resyncRequest ts id deviceFp) = .ok pt) :
    decodePlaintext nfc pt = .ok (.resyncRequest ts id deviceFp) := by
  obtain ⟨obj, decoded, type, named, value⟩ := decodePlaintext_encodeWith nfc
    (by decide) finite valid encoded
  have fp : textAt obj "deviceFp" = deviceFp := by
    rw [textAt, value]
    exact nonempty_of_isOptional valid
  rw [decoded]
  simp only [decodeText, type, named, fp]
  rfl

theorem decodePlaintext_resyncReject {reason : Option JSString}
    (finite : Finite ts) (valid : IsOptional reason)
    (encoded : encodePlaintext (.resyncReject ts id reason) = .ok pt) :
    decodePlaintext nfc pt = .ok (.resyncReject ts id reason) := by
  obtain ⟨obj, decoded, type, named, value⟩ := decodePlaintext_encodeWith nfc
    (by decide) finite valid encoded
  rw [decoded]
  simp only [decodeText, type, named, value]
  rfl

theorem distinct_ids :
    [js "v", js "ts", js "type", js "id", js "ids"].Nodup := by
  decide

theorem regular_strings (ids : List JSString) :
    (Json.array (ids.map (Json.string (ν := ν)))).Regular := by
  apply Json.Regular.array
  intro v member
  obtain ⟨s, -, rfl⟩ := List.mem_map.mp member
  exact .string s

omit [Numeric ν] in
theorem filterMap_strings {ids : List JSString}
    (some_ : ∀ x ∈ ids, x ≠ []) :
    ((ids.map (Json.string (ν := ν))).filterMap fun item =>
      nonempty item.string?) = ids := by
  induction ids with
  | nil => rfl
  | cons x ids induction =>
      obtain ⟨first, later⟩ := List.forall_mem_cons.mp some_
      rw [List.map_cons, List.filterMap_cons, induction later]
      simp only [Json.string?, nonempty_some first]

variable (nfc) in
/-- A message with a list of ids. -/
theorem decodePlaintext_encodeIds {type : String} {ids : List JSString}
    (finite : Finite ts)
    (encoded : encodeIds type ts id ids = .ok pt) :
    ∃ obj : Json ν, decodePlaintext nfc pt = decodeText obj ts ∧
      stringAt obj "type" = some (js type) ∧ textAt obj "id" = some id ∧
      arrayAt obj "ids" = some (ids.map .string) := by
  unfold encodeIds at encoded
  split at encoded
  · cases encoded
  · rename_i some_
    obtain rfl := Except.ok.inj encoded
    refine ⟨_, decodePlaintext_record distinct_ids rfl ?_ rfl rfl, ?_, ?_,
      ?_⟩
    · simp only [List.forall_mem_cons, List.not_mem_nil, false_implies,
        implies_true, and_true]
      exact ⟨.version, .number finite, .string _, .string _,
        .record (regular_strings ids)⟩
    · exact stringAt_record distinct_ids rfl rfl
    · rw [textAt, stringAt_record distinct_ids rfl rfl]
      exact nonempty_some some_
    · exact arrayAt_record distinct_ids rfl rfl

theorem decodePlaintext_resyncAccept {ids : List JSString}
    (finite : Finite ts) (some_ : ∀ x ∈ ids, x ≠ [])
    (encoded : encodePlaintext (.resyncAccept ts id ids) = .ok pt) :
    decodePlaintext nfc pt = .ok (.resyncAccept ts id ids) := by
  obtain ⟨obj, decoded, type, named, items⟩ :=
    decodePlaintext_encodeIds nfc finite encoded
  rw [decoded]
  simp only [decodeText, type, named, items, filterMap_strings some_,
    List.length_map]
  rw [if_neg (by decide), if_neg (by decide), if_neg (by decide),
    if_neg (by decide), if_neg (by decide), if_pos (by decide)]
  rw [if_neg (by simp), if_pos trivial]
  rfl

theorem decodePlaintext_resyncIds {ids : List JSString}
    (finite : Finite ts) (some_ : ∀ x ∈ ids, x ≠ [])
    (encoded : encodePlaintext (.resyncIds ts id ids) = .ok pt) :
    decodePlaintext nfc pt = .ok (.resyncIds ts id ids) := by
  obtain ⟨obj, decoded, type, named, items⟩ :=
    decodePlaintext_encodeIds nfc finite encoded
  rw [decoded]
  simp only [decodeText, type, named, items, filterMap_strings some_,
    List.length_map]
  rw [if_neg (by decide), if_neg (by decide), if_neg (by decide),
    if_neg (by decide), if_neg (by decide), if_pos (by decide)]
  rw [if_neg (by simp), if_neg (by decide)]
  rfl

theorem filter_isTransferId (valid : IsTransferId id) :
    (some id).filter (fun id => id.length ≤ 64) = some id := by
  simp [valid.2]

theorem decodePlaintext_xferQuery {msg : TransferQueryPlainMessage ν}
    (finite : Finite msg.ts) (valid : IsTransferId msg.id)
    (encoded : encodePlaintext (.xferQuery msg) = .ok pt) :
    decodePlaintext nfc pt = .ok (.xferQuery msg) := by
  have read : ∃ obj : Json ν,
      decodePlaintext nfc pt = decodeText obj msg.ts ∧
      stringAt obj "type" = some (js "xfer_query") ∧
      textAt obj "id" = some msg.id := by
    obtain rfl := Except.ok.inj encoded
    refine ⟨_, decodePlaintext_record distinct_id rfl ?_ rfl rfl, ?_, ?_⟩
    · simp only [List.forall_mem_cons, List.not_mem_nil, false_implies,
        implies_true, and_true]
      exact ⟨.version, .number finite, .string _, .string _⟩
    · exact stringAt_record distinct_id rfl rfl
    · rw [textAt, stringAt_record distinct_id rfl rfl]
      exact nonempty_some valid.1
  obtain ⟨obj, decoded, type, named⟩ := read
  rw [decoded]
  simp only [decodeText, type, named, filter_isTransferId valid]
  rfl

theorem distinct_cancel :
    [js "v", js "ts", js "type", js "id", js "reason"].Nodup := by
  decide

theorem decodePlaintext_xferCancel {msg : TransferCancelPlainMessage ν}
    (finite : Finite msg.ts) (valid : IsTransferId msg.id)
    (optional : IsOptional msg.reason)
    (short : ∀ reason ∈ msg.reason, reason.length ≤ 64)
    (encoded : encodePlaintext (.xferCancel msg) = .ok pt) :
    decodePlaintext nfc pt = .ok (.xferCancel msg) := by
  have read : ∃ obj : Json ν,
      decodePlaintext nfc pt = decodeText obj msg.ts ∧
      stringAt obj "type" = some (js "xfer_cancel") ∧
      textAt obj "id" = some msg.id ∧ stringAt obj "reason" = msg.reason := by
    obtain rfl := Except.ok.inj encoded
    refine ⟨_, decodePlaintext_record distinct_cancel rfl ?_ rfl rfl, ?_, ?_,
      ?_⟩
    · simp only [List.forall_mem_cons, List.not_mem_nil, false_implies,
        implies_true, and_true]
      exact ⟨.version, .number finite, .string _, .string _, .strings _⟩
    · exact stringAt_record distinct_cancel rfl rfl
    · rw [textAt, stringAt_record distinct_cancel rfl rfl]
      exact nonempty_some valid.1
    · rw [stringAt_record distinct_cancel rfl rfl]
      exact (bind_string _).trans (nonempty_of_isOptional optional)
  obtain ⟨obj, decoded, type, named, reason⟩ := read
  have whole : msg.reason.map (List.take 64) = msg.reason := by
    cases given : msg.reason with
    | none => rfl
    | some reason =>
        exact congrArg some (List.take_of_length_le (short reason given))
  rw [decoded]
  simp only [decodeText, type, named, filter_isTransferId valid, reason,
    whole]
  rfl

theorem distinct_ack :
    [js "v", js "ts", js "type", js "id", js "have", js "resend",
      js "done"].Nodup := by
  decide

theorem parseChunkIndices_integers {haves : List Nat}
    (count : haves.length ≤ MAX_TRANSFER_CHUNKS)
    (bound : ∀ i ∈ haves, i < MAX_TRANSFER_CHUNKS) :
    parseChunkIndices (ν := ν)
        (some (haves.map fun (i : Nat) => .integer i)) = .ok haves := by
  have fits : (some (haves.map fun (i : Nat) =>
      Json.integer (ν := ν) i)).filter
        (fun items => items.length ≤ MAX_TRANSFER_CHUNKS) =
      some (haves.map fun (i : Nat) => .integer i) := by
    simp [count]
  unfold parseChunkIndices
  rw [fits]
  clear fits count
  dsimp only
  induction haves with
  | nil => rfl
  | cons i haves induction =>
      obtain ⟨first, later⟩ := List.forall_mem_cons.mp bound
      have rest_ := induction later
      have number : IsNumber ν i :=
        isNumber_of_lt (first.trans_le (by decide))
      have index : (Json.integer (ν := ν) i).integer?.filter
          (fun n => 0 ≤ n ∧ n < (MAX_TRANSFER_CHUNKS : Int)) =
          some (i : Int) := by
        rw [integer?_integer number]
        simpa using first
      simp only [List.map_cons, List.mapM_cons, index, rest_]
      rfl

omit [Numeric ν] in
theorem any_flag (b : Bool) :
    (Client.flag (ν := ν) b).any Json.isTrue = b := by
  cases b <;> rfl

theorem decodePlaintext_xferAck {msg : TransferAckPlainMessage ν}
    (finite : Finite msg.ts) (valid : IsTransferId msg.id)
    (count : msg.haves.length ≤ MAX_TRANSFER_CHUNKS)
    (bound : ∀ i ∈ msg.haves, i < MAX_TRANSFER_CHUNKS)
    (encoded : encodePlaintext (.xferAck msg) = .ok pt) :
    decodePlaintext nfc pt = .ok (.xferAck msg) := by
  have indices : (Json.array (msg.haves.map fun (i : Nat) =>
      Json.integer (ν := ν) i)).Regular := by
    apply Json.Regular.array
    intro v member
    obtain ⟨i, held, rfl⟩ := List.mem_map.mp member
    have number : IsNumber ν i :=
      isNumber_of_lt ((bound i held).trans_le (by decide))
    exact Writable.integer number _ rfl
  have read : ∃ obj : Json ν,
      decodePlaintext nfc pt = decodeText obj msg.ts ∧
      stringAt obj "type" = some (js "xfer_ack") ∧
      textAt obj "id" = some msg.id ∧
      arrayAt obj "have" =
        some (msg.haves.map fun (i : Nat) => .integer i) ∧
      flagAt obj "resend" = msg.resend ∧ flagAt obj "done" = msg.done := by
    obtain rfl := Except.ok.inj encoded
    refine ⟨_, decodePlaintext_record distinct_ack rfl ?_ rfl rfl, ?_, ?_,
      ?_, ?_, ?_⟩
    · simp only [List.forall_mem_cons, List.not_mem_nil, false_implies,
        implies_true, and_true]
      exact ⟨.version, .number finite, .string _, .string _,
        .record indices, .flag _, .flag _⟩
    · exact stringAt_record distinct_ack rfl rfl
    · rw [textAt, stringAt_record distinct_ack rfl rfl]
      exact nonempty_some valid.1
    · exact arrayAt_record distinct_ack rfl rfl
    · exact (flagAt_record distinct_ack rfl rfl).trans (any_flag _)
    · exact (flagAt_record distinct_ack rfl rfl).trans (any_flag _)
  obtain ⟨obj, decoded, type, named, haves, resend, done⟩ := read
  rw [decoded]
  simp only [decodeText, type, named, filter_isTransferId valid, haves,
    parseChunkIndices_integers count bound, resend, done]
  rfl

theorem distinct_digest :
    [js "v", js "ts", js "type", js "count", js "idHash",
      js "deviceFp"].Nodup := by
  decide

theorem decodePlaintext_historyDigest
    {msg : HistoryDigestPlainMessage ν} (finite : Finite msg.ts)
    (count : Finite msg.count) (some_ : msg.idHash ≠ [])
    (optional : IsOptional msg.deviceFp)
    (encoded : encodePlaintext (.historyDigest msg) = .ok pt) :
    decodePlaintext nfc pt = .ok (.historyDigest msg) := by
  have read : ∃ obj : Json ν,
      decodePlaintext nfc pt = decodeText obj msg.ts ∧
      stringAt obj "type" = some (js "history_digest") ∧
      numberAt obj "count" = some msg.count ∧
      textAt obj "idHash" = some msg.idHash ∧
      textAt obj "deviceFp" = msg.deviceFp := by
    obtain rfl := Except.ok.inj encoded
    refine ⟨_, decodePlaintext_record distinct_digest rfl ?_ rfl rfl, ?_, ?_,
      ?_, ?_⟩
    · simp only [List.forall_mem_cons, List.not_mem_nil, false_implies,
        implies_true, and_true]
      exact ⟨.version, .number finite, .string _, .number count,
        .string _, .strings _⟩
    · exact stringAt_record distinct_digest rfl rfl
    · exact numberAt_record distinct_digest rfl rfl
    · rw [textAt, stringAt_record distinct_digest rfl rfl]
      exact nonempty_some some_
    · have same := nonempty_of_isOptional optional
      rw [textAt, stringAt_record distinct_digest rfl rfl, same]
      exact (congrArg nonempty (bind_string _)).trans same
  obtain ⟨obj, decoded, type, counted, idHash, deviceFp⟩ := read
  rw [decoded]
  simp only [decodeText, type, counted, idHash, deviceFp]
  rfl

theorem distinct_text :
    [js "v", js "ts", js "type", js "body", js "id",
      js "replyTo"].Nodup := by
  decide

theorem decodePlaintext_textMessage {msg : TextPlainMessage ν}
    (finite : Finite msg.ts) (optional : IsOptional msg.id)
    (reply : IsReply msg.replyTo)
    (encoded : encodePlaintext (.text msg) = .ok pt) :
    decodePlaintext nfc pt = .ok (.text msg) := by
  have read : ∃ obj : Json ν,
      decodePlaintext nfc pt = decodeText obj msg.ts ∧
      stringAt obj "type" = some (js "text") ∧
      stringAt obj "body" = some msg.body ∧
      textAt obj "id" = msg.id ∧
      parseReplyTo (obj.get? (js "replyTo")) = msg.replyTo := by
    simp only [encodePlaintext, nonempty_of_isOptional optional] at encoded
    cases named : msg.id with
    | none =>
        rw [named] at encoded
        cases encoded
    | some id =>
        rw [named] at encoded optional
        obtain rfl := Except.ok.inj encoded
        refine ⟨_, decodePlaintext_record distinct_text rfl ?_ rfl rfl, ?_,
          ?_, ?_, ?_⟩
        · simp only [List.forall_mem_cons, List.not_mem_nil, false_implies,
            implies_true, and_true]
          exact ⟨.version, .number finite, .string _, .string _, .string _,
            .reply _⟩
        · exact stringAt_record distinct_text rfl rfl
        · exact stringAt_record distinct_text rfl rfl
        · rw [textAt, stringAt_record distinct_text rfl rfl]
          exact nonempty_of_isOptional optional
        · rw [get?_record_eq (by exact distinct_text)]
          exact parseReplyTo_toJson reply
  obtain ⟨obj, decoded, type, body, named, replies⟩ := read
  rw [decoded]
  simp only [decodeText, type, body, named, replies]
  rfl

end

/-! ## Binary envelopes -/

section

variable {nfc : JSString → JSString} {pt : Bytes}

theorem mime_ofText?_text (mime : ImageMime) :
    ImageMime.ofText? mime.text = some mime := by
  cases mime <;> decide

theorem distinct_image :
    [js "v", js "ts", js "type", js "mime", js "id", js "w", js "h",
      js "replyTo"].Nodup := by
  decide

theorem decodePlaintext_image {msg : ImagePlainMessage ν}
    (finite : Finite msg.ts) (size : msg.data.length ≤ MAX_IMAGE_BYTES)
    (w : Finites msg.w) (h : Finites msg.h) (optional : IsOptional msg.id)
    (reply : IsReply msg.replyTo)
    (encoded : encodePlaintext (.image msg) = .ok pt) :
    decodePlaintext nfc pt = .ok (.image msg) := by
  have read : ∃ obj : Json ν, pt.head? = some IMAGE_PLAIN_MARK ∧
      openEnvelope pt = .ok (obj, msg.data) ∧
      integerAt obj "v" = some 1 ∧ numberAt obj "ts" = some msg.ts ∧
      stringAt obj "type" = some (js "image") ∧
      stringAt obj "mime" = some msg.mime.text ∧
      textAt obj "id" = msg.id ∧ numberAt obj "w" = msg.w ∧
      numberAt obj "h" = msg.h ∧
      parseReplyTo (obj.get? (js "replyTo")) = msg.replyTo := by
    simp only [encodePlaintext, nonempty_of_isOptional optional] at encoded
    cases named : msg.id with
    | none =>
        rw [named] at encoded
        cases encoded
    | some id =>
        rw [named] at encoded optional
        obtain ⟨mark, opened⟩ := openEnvelope_of_encode (by
          apply regular_record distinct_image rfl
          simp only [List.forall_mem_cons, List.not_mem_nil, false_implies,
            implies_true, and_true]
          exact ⟨.version, .number finite, .string _, .string _, .string _,
            .numbers w, .numbers h, .reply _⟩) encoded
        refine ⟨_, mark, opened, ?_, ?_, ?_, ?_, ?_, ?_, ?_, ?_⟩
        · rw [integerAt_record distinct_image rfl rfl]
          exact integer?_integer (k := 1) (isNumber_of_lt (by decide))
        · exact numberAt_record distinct_image rfl rfl
        · exact stringAt_record distinct_image rfl rfl
        · exact stringAt_record distinct_image rfl rfl
        · rw [textAt, stringAt_record distinct_image rfl rfl]
          exact nonempty_of_isOptional optional
        · exact (numberAt_record distinct_image rfl rfl).trans
            (bind_number _)
        · exact (numberAt_record distinct_image rfl rfl).trans
            (bind_number _)
        · rw [get?_record_eq (by exact distinct_image)]
          exact parseReplyTo_toJson reply
  obtain ⟨obj, mark, opened, version, ts, type, mime, id, w, h, replyTo⟩ :=
    read
  unfold decodePlaintext
  rw [mark]
  dsimp only
  rw [if_neg (by decide), if_neg (by decide), if_neg (by decide), if_pos rfl,
    opened]
  show decodeImage obj msg.data = _
  unfold decodeImage
  simp only [ts, mime, Option.bind_some, mime_ofText?_text, version, type, id,
    w, h, replyTo]
  rw [if_neg (by simp), if_neg (by omega)]
  rfl

theorem chunkPosition_of_reads {type : String} {obj : Json ν}
    {id : JSString} {index total : Nat}
    (version : integerAt obj "v" = some 1)
    (typed : stringAt obj "type" = some (js type))
    (named : textAt obj "id" = some id)
    (position : integerAt obj "index" = some (index : Int))
    (count : integerAt obj "total" = some (total : Int))
    (inside : index < total) :
    chunkPosition type obj = some (id, index, total) := by
  simp only [chunkPosition, named, position, count, version, typed,
    Option.bind_eq_bind, Option.bind_some, Int.toNat_natCast]
  rw [if_pos ⟨trivial, trivial, by omega, by omega⟩]

theorem distinct_historyChunk :
    [js "v", js "type", js "id", js "index", js "total",
      js "compressedLength"].Nodup := by
  decide

theorem writable_length {n : Option Nat} (number : ∀ k ∈ n, IsNumber ν k) :
    Writable (n.map fun (k : Nat) => Json.integer (ν := ν) k) := by
  cases n with
  | none => exact .none
  | some k => exact .integer (number k rfl)

theorem bind_length {n : Option Nat} (number : ∀ k ∈ n, IsNumber ν k) :
    (n.map fun (k : Nat) => Json.integer (ν := ν) k).bind Json.integer? =
      n.map Int.ofNat := by
  cases n with
  | none => rfl
  | some k => exact integer?_integer (number k rfl)

theorem decodePlaintext_historyChunk {msg : HistoryChunkPlainMessage}
    (wf : (PlainMessage.historyChunk (ν := ν) msg).WellFormed nfc)
    (encoded : encodePlaintext (.historyChunk (ν := ν) msg) = .ok pt) :
    decodePlaintext nfc pt = .ok (.historyChunk (ν := ν) msg) := by
  obtain ⟨some_, inside, index, total, size, first⟩ := wf
  have given : ∀ k ∈ msg.compressedLength, IsNumber ν k := by
    intro k length
    split at first
    · obtain ⟨n, given, number⟩ := first
      rw [given] at length
      obtain rfl := Option.some.inj length
      exact number
    · rw [first] at length
      cases length
  have read : ∃ obj : Json ν, pt.head? = some HISTORY_CHUNK_MARK ∧
      openEnvelope pt = .ok (obj, msg.data) ∧
      chunkPosition "history_chunk" obj =
        some (msg.id, msg.index, msg.total) ∧
      integerAt obj "compressedLength" =
        msg.compressedLength.map Int.ofNat := by
    have only : (if msg.index = 0 then
        msg.compressedLength.map fun (n : Nat) => Json.integer (ν := ν) n
        else none) =
        msg.compressedLength.map fun (n : Nat) => .integer n := by
      split at first
      · rename_i zero
        rw [if_pos zero]
      · rename_i later
        rw [if_neg later, first]
        rfl
    simp only [encodePlaintext, only] at encoded
    split_ifs at encoded
    obtain ⟨mark, opened⟩ := openEnvelope_of_encode (by
      apply regular_record distinct_historyChunk rfl
      simp only [List.forall_mem_cons, List.not_mem_nil, false_implies,
        implies_true, and_true]
      exact ⟨.version, .string _, .string _, .integer index,
        .integer total, writable_length given⟩) encoded
    refine ⟨_, mark, opened, ?_, ?_⟩
    · apply chunkPosition_of_reads _ _ _ _ _ inside
      · rw [integerAt_record distinct_historyChunk rfl rfl]
        exact integer?_integer (k := 1) (isNumber_of_lt (by decide))
      · exact stringAt_record distinct_historyChunk rfl rfl
      · rw [textAt, stringAt_record distinct_historyChunk rfl rfl]
        exact nonempty_some some_
      · rw [integerAt_record distinct_historyChunk rfl rfl]
        exact integer?_integer index
      · rw [integerAt_record distinct_historyChunk rfl rfl]
        exact integer?_integer total
    · rw [integerAt_record distinct_historyChunk rfl rfl]
      exact bind_length given
  obtain ⟨obj, mark, opened, position, length⟩ := read
  unfold decodePlaintext
  rw [mark]
  dsimp only
  rw [if_neg (by decide), if_pos rfl, opened]
  show decodeHistoryChunk obj msg.data = _
  unfold decodeHistoryChunk
  simp only [position, length]
  rw [if_neg (by omega)]
  split at first
  · rename_i zero
    obtain ⟨n, given, -⟩ := first
    rw [if_pos zero, given]
    have natural : ((some n).map Int.ofNat).filter (fun n => 0 ≤ n) =
        some (n : Int) := by
      simp
    rw [natural]
    dsimp only
    rw [Int.toNat_natCast, ← given]
    rfl
  · rename_i later
    rw [if_neg later, ← first]
    rfl

theorem distinct_imageChunk :
    [js "v", js "type", js "id", js "index", js "total", js "ts",
      js "mime", js "byteLength", js "w", js "h", js "replyTo"].Nodup := by
  decide

omit [Numeric ν] in
theorem bind_mime (mime : Option ImageMime) :
    ((mime.map fun m => Json.string (ν := ν) m.text).bind
      Json.string?).bind ImageMime.ofText? = mime := by
  cases mime with
  | none => rfl
  | some mime => exact mime_ofText?_text mime

theorem writable_mime (mime : Option ImageMime) :
    Writable (mime.map fun m => Json.string (ν := ν) m.text) := by
  cases mime with
  | none => exact .none
  | some mime => exact .string _

omit [Numeric ν] in
/-- A property that only the first chunk has. -/
theorem first_map {α : Type} {index : Nat} {x : Option α}
    (absent : index ≠ 0 → x = none) (f : α → Json ν) :
    (if index = 0 then x.map f else none) = x.map f := by
  split
  · rfl
  · rename_i later
    rw [absent later]
    rfl

theorem Finites.none : Finites (none : Option ν) := by
  intro x member
  cases member

/-- The description of an image is complete on its first chunk, and absent
from all others. -/
structure ImageChunkPlainMessage.Described (msg : ImageChunkPlainMessage ν) :
    Prop where
  ts : Finites msg.ts
  w : Finites msg.w
  h : Finites msg.h
  byteLength : ∀ n ∈ msg.byteLength, n ≤ MAX_IMAGE_BYTES
  replyTo : IsReply msg.replyTo
  absent : msg.index ≠ 0 → msg.ts = none ∧ msg.mime = none ∧
    msg.byteLength = none ∧ msg.w = none ∧ msg.h = none ∧ msg.replyTo = none

theorem described_of_wellFormed {msg : ImageChunkPlainMessage ν}
    (wf : (PlainMessage.imageChunk msg).WellFormed nfc) :
    msg.Described := by
  obtain ⟨-, -, -, -, first⟩ := wf
  split at first
  · rename_i zero
    obtain ⟨-, -, ⟨n, given, small⟩, ts, w, h, reply⟩ := first
    refine ⟨ts, w, h, ?_, reply, fun later => absurd zero later⟩
    intro k length
    rw [given] at length
    obtain rfl := Option.some.inj length
    exact small
  · obtain ⟨ts, mime, length, w, h, reply⟩ := first
    refine
      { ts := ts ▸ .none, w := w ▸ .none, h := h ▸ .none
        byteLength := ?_, replyTo := ?_
        absent := fun _ => ⟨ts, mime, length, w, h, reply⟩ }
    · rw [length]
      exact fun _ member => nomatch member
    · rw [reply]
      exact fun _ member => nomatch member

theorem openEnvelope_imageChunk {msg : ImageChunkPlainMessage ν}
    (wf : (PlainMessage.imageChunk msg).WellFormed nfc)
    (encoded : encodePlaintext (.imageChunk msg) = .ok pt) :
    ∃ obj : Json ν, pt.head? = some IMAGE_CHUNK_MARK ∧
      openEnvelope pt = .ok (obj, msg.data) ∧
      chunkPosition "image_chunk" obj =
        some (msg.id, msg.index, msg.total) ∧
      numberAt obj "ts" = msg.ts ∧
      (stringAt obj "mime").bind ImageMime.ofText? = msg.mime ∧
      integerAt obj "byteLength" = msg.byteLength.map Int.ofNat ∧
      numberAt obj "w" = msg.w ∧ numberAt obj "h" = msg.h ∧
      parseReplyTo (obj.get? (js "replyTo")) = msg.replyTo := by
  have described := described_of_wellFormed wf
  obtain ⟨some_, inside, few, -, -⟩ := wf
  have total : IsNumber ν msg.total :=
    isNumber_of_lt (few.trans_lt (by decide))
  have index : IsNumber ν msg.index :=
    isNumber_of_lt ((inside.trans_le few).trans (by decide))
  have lengths : ∀ n ∈ msg.byteLength, IsNumber ν n := fun n given =>
    isNumber_of_lt ((described.byteLength n given).trans_lt (by decide))
  simp only [encodePlaintext,
    first_map fun later => (described.absent later).1,
    first_map fun later => (described.absent later).2.1,
    first_map fun later => (described.absent later).2.2.1,
    first_map fun later => (described.absent later).2.2.2.1,
    first_map fun later => (described.absent later).2.2.2.2.1,
    first_map fun later => (described.absent later).2.2.2.2.2] at encoded
  split_ifs at encoded
  obtain ⟨mark, opened⟩ := openEnvelope_of_encode (by
    apply regular_record distinct_imageChunk rfl
    simp only [List.forall_mem_cons, List.not_mem_nil, false_implies,
      implies_true, and_true]
    exact ⟨.version, .string _, .string _, .integer index, .integer total,
      .numbers described.ts, writable_mime _, writable_length lengths,
      .numbers described.w, .numbers described.h, .reply _⟩) encoded
  refine ⟨_, mark, opened, ?_, ?_, ?_, ?_, ?_, ?_, ?_⟩
  · apply chunkPosition_of_reads _ _ _ _ _ inside
    · rw [integerAt_record distinct_imageChunk rfl rfl]
      exact integer?_integer (k := 1) (isNumber_of_lt (by decide))
    · exact stringAt_record distinct_imageChunk rfl rfl
    · rw [textAt, stringAt_record distinct_imageChunk rfl rfl]
      exact nonempty_some some_
    · rw [integerAt_record distinct_imageChunk rfl rfl]
      exact integer?_integer index
    · rw [integerAt_record distinct_imageChunk rfl rfl]
      exact integer?_integer total
  · exact (numberAt_record distinct_imageChunk rfl rfl).trans
      (bind_number _)
  · rw [stringAt_record distinct_imageChunk rfl rfl]
    exact bind_mime _
  · rw [integerAt_record distinct_imageChunk rfl rfl]
    exact bind_length lengths
  · exact (numberAt_record distinct_imageChunk rfl rfl).trans
      (bind_number _)
  · exact (numberAt_record distinct_imageChunk rfl rfl).trans
      (bind_number _)
  · rw [get?_record_eq (by exact distinct_imageChunk)]
    exact parseReplyTo_toJson described.replyTo

theorem byteCount_natCast {limit n : Nat} (small : n ≤ limit) :
    byteCount limit (some (n : Int)) = some n := by
  simp [byteCount, small]

theorem decodePlaintext_imageChunk {msg : ImageChunkPlainMessage ν}
    (wf : (PlainMessage.imageChunk msg).WellFormed nfc)
    (encoded : encodePlaintext (.imageChunk msg) = .ok pt) :
    decodePlaintext nfc pt = .ok (.imageChunk msg) := by
  obtain ⟨obj, mark, opened, position, ts, mime, length, w, h, reply⟩ :=
    openEnvelope_imageChunk wf encoded
  obtain ⟨-, -, few, size, first⟩ := wf
  unfold decodePlaintext
  rw [mark]
  dsimp only
  rw [if_neg (by decide), if_neg (by decide), if_pos rfl, opened]
  show decodeImageChunk obj msg.data = _
  have counted : (some (msg.id, msg.index, msg.total)).filter
      (fun found => found.2.2 ≤ MAX_TRANSFER_CHUNKS) =
      some (msg.id, msg.index, msg.total) := by
    simp [few]
  unfold decodeImageChunk
  simp only [position, counted, ts, mime, length, w, h, reply]
  rw [if_neg (by omega)]
  split at first
  · rename_i zero
    obtain ⟨⟨t, ts⟩, ⟨m, mime⟩, ⟨n, length, small⟩, -⟩ := first
    have bytes : byteCount MAX_IMAGE_BYTES (msg.byteLength.map Int.ofNat) =
        some n := by
      rw [length]
      exact byteCount_natCast small
    rw [if_pos zero, ts, mime, bytes]
    dsimp only
    rw [← ts, ← mime, ← length]
    rfl
  · rename_i later
    obtain ⟨ts, mime, length, w, h, reply⟩ := first
    have same : msg = { msg with
        ts := none, mime := none, byteLength := none, w := none, h := none,
        replyTo := none } := by
      cases msg
      simp only [ImageChunkPlainMessage.mk.injEq, true_and]
      exact ⟨ts, mime, length, w, h, reply⟩
    rw [if_neg later, same]
    rfl

theorem distinct_header :
    [js "kind", js "ts", js "mime", js "size", js "sha256", js "name",
      js "w", js "h", js "replyTo"].Nodup := by
  decide

theorem isFinite_of_isPositiveDim {n : ν} (dim : isPositiveDim n = true) :
    Finite n := by
  unfold isPositiveDim at dim
  cases value : Numeric.toInt? n with
  | none =>
      rw [value] at dim
      cases dim
  | some k => exact Numeric.isFinite_of_toInt? n k value

theorem TransferHeader.Checked.regular {h : TransferHeader ν}
    (checked : h.Checked) : h.toJson.Regular := by
  apply regular_record distinct_header rfl
  simp only [List.forall_mem_cons, List.not_mem_nil, false_implies,
    implies_true, and_true]
  have size : IsNumber ν h.size :=
    isNumber_of_lt (checked.size.trans_lt (by decide))
  exact ⟨.string _, .number checked.ts, .string _, .integer size, .string _,
    .strings _,
    .numbers fun n given => isFinite_of_isPositiveDim (checked.w n given),
    .numbers fun n given => isFinite_of_isPositiveDim (checked.h n given),
    .reply _⟩

theorem distinct_transferChunk :
    [js "v", js "type", js "id", js "index", js "total",
      js "header"].Nodup := by
  decide

theorem decodePlaintext_xferChunk {msg : TransferChunkPlainMessage ν}
    (wf : (PlainMessage.xferChunk msg).WellFormed nfc)
    (encoded : encodePlaintext (.xferChunk msg) = .ok pt) :
    decodePlaintext nfc pt = .ok (.xferChunk msg) := by
  obtain ⟨⟨some_, short⟩, parsed, count, inside, length⟩ := wf
  have checked := checked_of_parseTransferHeader parsed
  have few : msg.total ≤ MAX_TRANSFER_CHUNKS :=
    count ▸ transferChunkCount_le checked.size
  have total : IsNumber ν msg.total :=
    isNumber_of_lt (few.trans_lt (by decide))
  have index : IsNumber ν msg.index :=
    isNumber_of_lt ((inside.trans_le few).trans (by decide))
  have read : ∃ obj : Json ν, pt.head? = some TRANSFER_CHUNK_MARK ∧
      openEnvelope pt = .ok (obj, msg.data) ∧
      chunkPosition "xfer_chunk" obj =
        some (msg.id, msg.index, msg.total) ∧
      obj.get? (js "header") = some msg.header.toJson := by
    obtain ⟨mark, opened⟩ := openEnvelope_of_encode (by
      apply regular_record distinct_transferChunk rfl
      simp only [List.forall_mem_cons, List.not_mem_nil, false_implies,
        implies_true, and_true]
      exact ⟨.version, .string _, .string _, .integer index,
        .integer total, .record checked.regular⟩) encoded
    refine ⟨_, mark, opened, ?_, ?_⟩
    · apply chunkPosition_of_reads _ _ _ _ _ inside
      · rw [integerAt_record distinct_transferChunk rfl rfl]
        exact integer?_integer (k := 1) (isNumber_of_lt (by decide))
      · exact stringAt_record distinct_transferChunk rfl rfl
      · rw [textAt, stringAt_record distinct_transferChunk rfl rfl]
        exact nonempty_some some_
      · rw [integerAt_record distinct_transferChunk rfl rfl]
        exact integer?_integer index
      · rw [integerAt_record distinct_transferChunk rfl rfl]
        exact integer?_integer total
    · rw [get?_record_eq (by exact distinct_transferChunk)]
      rfl
  obtain ⟨obj, mark, opened, position, header⟩ := read
  have fits : (some (msg.id, msg.index, msg.total)).filter
      (fun found => found.1.length ≤ 64) =
      some (msg.id, msg.index, msg.total) := by
    simp [short]
  unfold decodePlaintext
  rw [mark]
  dsimp only
  rw [if_pos rfl, opened]
  show decodeTransferChunk nfc obj msg.data = _
  unfold decodeTransferChunk
  simp only [position, fits, header, parsed]
  show (if _ then _ else if _ then _ else _) = _
  rw [if_neg (by simp [count]), if_neg (by simp [length])]
  rfl

end

/-! ## Every message -/

/-- What is written of a well-formed message is read as that message. -/
theorem decodePlaintext_encodePlaintext {nfc : JSString → JSString}
    {m : PlainMessage ν} {pt : Bytes} (wf : m.WellFormed nfc)
    (encoded : encodePlaintext m = .ok pt) :
    decodePlaintext nfc pt = .ok m := by
  cases m with
  | text msg =>
      obtain ⟨finite, optional, reply⟩ := wf
      exact decodePlaintext_textMessage finite optional reply encoded
  | image msg =>
      obtain ⟨finite, size, w, h, optional, reply⟩ := wf
      exact decodePlaintext_image finite size w h optional reply encoded
  | file msg => cases encoded
  | delete ts id => exact decodePlaintext_delete wf.1 encoded
  | imageChunk msg => exact decodePlaintext_imageChunk wf encoded
  | historyChunk msg => exact decodePlaintext_historyChunk wf encoded
  | xferChunk msg => exact decodePlaintext_xferChunk wf encoded
  | xferAck msg =>
      obtain ⟨finite, valid, count, bound⟩ := wf
      exact decodePlaintext_xferAck finite valid count bound encoded
  | xferQuery msg => exact decodePlaintext_xferQuery wf.1 wf.2 encoded
  | xferCancel msg =>
      obtain ⟨finite, valid, optional, short⟩ := wf
      exact decodePlaintext_xferCancel finite valid optional short encoded
  | historyDigest msg =>
      obtain ⟨finite, count, some_, optional⟩ := wf
      exact decodePlaintext_historyDigest finite count some_ optional encoded
  | resyncRequest ts id deviceFp =>
      exact decodePlaintext_resyncRequest wf.1 wf.2.2 encoded
  | resyncAccept ts id ids =>
      exact decodePlaintext_resyncAccept wf.1 wf.2.2 encoded
  | resyncReject ts id reason =>
      exact decodePlaintext_resyncReject wf.1 wf.2.2 encoded
  | resyncIds ts id ids =>
      exact decodePlaintext_resyncIds wf.1 wf.2.2 encoded
  | wipeHistory ts id => exact decodePlaintext_wipeHistory wf.1 encoded

/-- An answer with a surrogate that stands alone. -/
private def answer : TextPlainMessage Int where
  ts := 1700000000000
  body := [0x68, 0xd83d, 0x22]
  id := some (js "b")
  replyTo := some { id := js "a", preview := js "h" }

theorem decodePlaintext_encodePlaintext_answer :
    ∃ pt, encodePlaintext (.text answer) = .ok pt ∧
      decodePlaintext id pt = .ok (.text answer) := by
  have wf : (PlainMessage.text answer).WellFormed id := by
    have named : answer.id ≠ some [] := by decide
    refine ⟨rfl, named, ?_⟩
    intro reply member
    obtain rfl := Option.some.inj member
    decide
  exact ⟨_, rfl, decodePlaintext_encodePlaintext wf rfl⟩

/-! ## A chunk -/

/-- The only chunk of a file of three bytes. -/
def leafChunk : TransferChunkPlainMessage Int where
  id := js "a"
  index := 0
  total := 1
  header :=
    { kind := .file, ts := 0, mime := js "text/plain", size := 3
      sha256 := List.replicate 43 0x41, name := some (js "leaf")
      w := none, h := none, replyTo := none }
  data := [1, 2, 3]

theorem leafChunk_read :
    ∃ pt, decodePlaintext id pt = .ok (.xferChunk leafChunk) := by
  have wf : (PlainMessage.xferChunk leafChunk).WellFormed id := by
    refine ⟨⟨by decide, by decide⟩, ?_, by decide, by decide, by decide⟩
    rfl
  have encoded : ∃ pt, encodePlaintext (.xferChunk leafChunk) = .ok pt := by
    unfold encodePlaintext encodeBinaryEnvelope
    exact ⟨_, if_neg (by decide +kernel)⟩
  obtain ⟨pt, encoded⟩ := encoded
  exact ⟨pt, decodePlaintext_xferChunk wf encoded⟩

end Byteln.Client

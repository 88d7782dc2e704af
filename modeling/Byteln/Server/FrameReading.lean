import Byteln.Server.Relay
import Byteln.Server.WebSocket

/-!
# Frames cut by a pause

`readClientFrame` starts with a fresh frame reader and gives every read a
deadline, and `readPeer` takes each timeout for idleness.  When the deadline
expires inside a frame, the bytes read so far are gone, and the next call takes
the rest of the frame for a header.
-/

namespace Byteln.Server.WebSocket

open Byteln.Library

/-! ## What a client sends -/

/-- One frame of a message. -/
structure Part where
  mask : List UInt8
  data : List UInt8
  maskLength : mask.length = 4
  dataLength : data.length < 2 ^ 63

/-- The length bits of a frame, and the bytes of a longer length. -/
def lengthBytes (n : Nat) : UInt8 × List UInt8 :=
  if n < 126 then (UInt8.ofNat n, [])
  else if n < 2 ^ 16 then (126, [UInt8.ofNat (n / 256), UInt8.ofNat n])
  else (127, putUint64 (UInt64.ofNat n))

def Part.headerBytes (part : Part) (op : OpCode) (fin : Bool) : List UInt8 :=
  [(if fin then 0x80 else 0) ||| op,
    0x80 ||| (lengthBytes part.data.length).1] ++
  ((lengthBytes part.data.length).2 ++ part.mask)

def Part.encode (part : Part) (op : OpCode) (fin : Bool) : List UInt8 :=
  part.headerBytes op fin ++ cipher part.mask part.data

/-- A data frame of the client, perhaps in several parts. -/
structure Message where
  binary : Bool
  first : Part
  more : List Part
  text : binary = false →
    validUTF8 (first.data ++ more.flatMap Part.data) = true

def Message.op (m : Message) : OpCode :=
  if m.binary then opBinary else opText

def Message.payload (m : Message) : List UInt8 :=
  m.first.data ++ m.more.flatMap Part.data

def encodeMore : List Part → List UInt8
  | [] => []
  | part :: parts =>
      part.encode opContinuation parts.isEmpty ++ encodeMore parts

def Message.encode (m : Message) : List UInt8 :=
  m.first.encode m.op m.more.isEmpty ++ encodeMore m.more

def encodeAll (frames : List Message) : List UInt8 :=
  frames.flatMap Message.encode

/-- The places between the frames, in bytes from the start. -/
def boundaries (frames : List Message) : List Nat :=
  frames.inits.map fun before => (encodeAll before).length

/-! ## One frame -/

theorem flag_bits {op : OpCode} (fin : Bool)
    (data : op = opContinuation ∨ op = opText ∨ op = opBinary) :
    ((((if fin then 0x80 else 0) ||| op) &&& 0x80 != 0) = fin) ∧
      (((if fin then 0x80 else 0) ||| op) &&& 0x70) >>> 4 = 0 ∧
      ((if fin then 0x80 else 0) ||| op) &&& 0x0f = op := by
  rcases data with rfl | rfl | rfl <;> cases fin <;> decide

theorem length_bits {bits : UInt8} (small : bits.toNat < 128) :
    (0x80 ||| bits) &&& 0x7f = bits ∧
      ((0x80 ||| bits) &&& 0x80 != 0) = true := by
  have all : ∀ n : Fin 128,
      (0x80 ||| UInt8.ofNat n) &&& 0x7f = UInt8.ofNat n ∧
        ((0x80 ||| UInt8.ofNat n) &&& 0x80 != 0) = true := by
    decide
  have here := all ⟨bits.toNat, small⟩
  rwa [UInt8.ofNat_toNat] at here

theorem cipher_length (mask payload : List UInt8) :
    (cipher mask payload).length = payload.length := by
  simp [cipher]

/-- Unmasking is masking. -/
theorem cipher_cipher (mask payload : List UInt8) :
    cipher mask (cipher mask payload) = payload := by
  apply List.ext_getElem
  · simp [cipher]
  · intro i _ _
    simp [cipher]

/-- The header that is read back. -/
def Part.header (part : Part) (op : OpCode) (fin : Bool) : Header where
  fin := fin
  rsv := 0
  opCode := op
  masked := true
  mask := part.mask
  length := part.data.length

theorem bigEndianUint16_bytes {n : Nat} (small : n < 2 ^ 16)
    (rest : List UInt8) :
    bigEndianUint16 (UInt8.ofNat (n / 256) :: UInt8.ofNat n :: rest) = n := by
  simp [bigEndianUint16]
  omega

theorem bigEndianUint64_bytes {n : Nat} (small : n < 2 ^ 63)
    (rest : List UInt8) :
    (bigEndianUint64 (putUint64 (UInt64.ofNat n) ++ rest)).toNat = n ∧
      ((putUint64 (UInt64.ofNat n) ++ rest).getD 0 0 &&& 0x80 != 0) =
        false := by
  have value : (UInt64.ofNat n).toNat = n := by
    rw [UInt64.toNat_ofNat']
    omega
  constructor
  · have same : bigEndianUint64 (putUint64 (UInt64.ofNat n) ++ rest) =
        bigEndianUint64 (putUint64 (UInt64.ofNat n)) := rfl
    rw [same, bigEndianUint64_putUint64, value]
  · have top : ((UInt8.ofNat ((UInt64.ofNat n).toNat >>> 56)).toNat) < 128 := by
      rw [value, Nat.shiftRight_eq_div_pow, UInt8.toNat_ofNat']
      omega
    have all : ∀ m : Fin 128, (UInt8.ofNat m &&& 0x80 != 0) = false := by
      decide
    have here := all ⟨_, top⟩
    rw [UInt8.ofNat_toNat] at here
    exact here

/-- The second hop of a header. -/
theorem reads_extra {extra : Nat} {bts : List UInt8} {short header : Header}
    {q : List UInt8 → ConnReader Header} (length : bts.length = extra)
    (more : extra ≠ 0) (answer : q bts = .pure header) (bound : Nat) :
    StreamReader.Reads
      (if extra = 0 then .pure short else (StreamReader.readFull extra).bind q)
      bound bts header := by
  rw [if_neg more, ← length]
  have answered : StreamReader.Reads (q bts) bound [] header := by
    rw [answer]
    exact .pure bound header
  have both := (StreamReader.Reads.readFull bound bts).bind answered
    (Nat.le_add_right bound _)
  rwa [List.append_nil] at both

theorem readHeader_reads (part : Part) {op : OpCode} (fin : Bool)
    (data : op = opContinuation ∨ op = opText ∨ op = opBinary)
    (bound : Nat) :
    StreamReader.Reads readHeader bound (part.headerBytes op fin)
      (part.header op fin) := by
  obtain ⟨final, reserved, code⟩ := flag_bits fin data
  have maskLength := part.maskLength
  have dataLength := part.dataLength
  unfold readHeader Part.headerBytes
  generalize (if fin then 0x80 else 0) ||| op = flags at final reserved code
  refine (StreamReader.Reads.readFull bound
    [flags, 0x80 ||| (lengthBytes part.data.length).1]).bind ?_
    (Nat.le_add_right bound _)
  simp only [List.getD_cons_zero, List.getD_cons_succ, final, reserved, code]
  unfold lengthBytes
  split
  · rename_i short
    have bits : (UInt8.ofNat part.data.length).toNat = part.data.length := by
      rw [UInt8.toNat_ofNat']
      omega
    have low : (UInt8.ofNat part.data.length).toNat < 128 := by omega
    obtain ⟨length, masked⟩ := length_bits low
    have plain : UInt8.ofNat part.data.length ≠ 126 ∧
        UInt8.ofNat part.data.length ≠ 127 := by
      constructor <;>
      · intro same
        rw [same] at bits
        revert bits
        simp
        omega
    simp only [length, masked, plain.1, plain.2, if_false, if_true]
    apply reads_extra
    · exact maskLength
    · decide
    · simp [Part.header, bits]
  · split
    · rename_i long
      obtain ⟨length, masked⟩ := length_bits (by decide : (126 : UInt8).toNat < 128)
      simp only [length, masked, if_true]
      apply reads_extra
      · simp [maskLength]
      · decide
      · simp [Part.header, bigEndianUint16_bytes long]
    · obtain ⟨length, masked⟩ := length_bits (by decide : (127 : UInt8).toNat < 128)
      obtain ⟨value, top⟩ := bigEndianUint64_bytes dataLength part.mask
      have rest : (putUint64 (UInt64.ofNat part.data.length) ++
          part.mask).drop 8 = part.mask := rfl
      have other : (127 : UInt8) ≠ 126 := by decide
      simp only [length, masked, other, if_true, if_false]
      apply reads_extra
      · rw [List.length_append, maskLength]
        rfl
      · decide
      · simp only [Part.header, value, top, rest, Bool.false_eq_true, if_false]

theorem data_op {op : OpCode}
    (data : op = opContinuation ∨ op = opText ∨ op = opBinary) :
    isReserved op = false ∧ isControl op = false := by
  rcases data with rfl | rfl | rfl <;> decide

theorem nextFrame_reads (part : Part) {op : OpCode} (fin fragmented : Bool)
    (data : op = opContinuation ∨ op = opText ∨ op = opBinary)
    (expected : fragmented = true ↔ op = opContinuation) (bound : Nat) :
    StreamReader.Reads (nextFrame fragmented) bound (part.headerBytes op fin)
      (part.header op fin) := by
  have accepted : checkHeader fragmented (part.header op fin) = none := by
    obtain ⟨known, other⟩ := data_op data
    cases fragmented <;>
      simp_all [checkHeader, Part.header]
  have both : StreamReader.Reads (nextFrame fragmented) bound
      (part.headerBytes op fin ++ []) (part.header op fin) := by
    apply (readHeader_reads part fin data bound).bind ?_
      (Nat.le_add_right bound _)
    rw [accepted]
    exact .pure bound _
  rwa [List.append_nil] at both

theorem readPayload_reads (part : Part) (op : OpCode) (fin : Bool)
    (bound : Nat) :
    StreamReader.Reads (readPayload (part.header op fin)) bound
      (cipher part.mask part.data) part.data := by
  have length : (cipher part.mask part.data).length =
      (part.header op fin).length := cipher_length _ _
  have read : StreamReader.Reads
      (StreamReader.readFull (part.header op fin).length : ConnReader _)
      bound (cipher part.mask part.data) (cipher part.mask part.data) := by
    rw [← length]
    exact .readFull bound _
  have unmasked : (part.header op fin).masked = true ∧
      cipher (part.header op fin).mask (cipher part.mask part.data) =
        part.data := ⟨rfl, cipher_cipher _ _⟩
  have both : StreamReader.Reads (readPayload (part.header op fin)) bound
      (cipher part.mask part.data ++ []) part.data := by
    apply read.bind ?_ (Nat.le_add_right bound _)
    rw [if_pos unmasked.1, unmasked.2]
    exact .pure bound _
  rwa [List.append_nil] at both

/-! ## Messages -/

theorem headerBytes_length (part : Part) (op : OpCode) (fin : Bool) :
    0 < (part.headerBytes op fin).length := by
  simp [Part.headerBytes]

theorem not_control (part : Part) {op : OpCode} (fin : Bool)
    (data : op = opContinuation ∨ op = opText ∨ op = opBinary) :
    isControl (part.header op fin).opCode = false := by
  exact (data_op data).2

/-- The rest of a message is read in as many rounds as it has parts. -/
theorem readRest_reads {parts : List Part} (more : parts ≠ [])
    (payload : List UInt8) (rounds : Nat) :
    StreamReader.Reads (readRest rounds payload) rounds (encodeMore parts)
      (payload ++ parts.flatMap Part.data) := by
  induction parts generalizing payload rounds with
  | nil => exact absurd rfl more
  | cons part parts induction =>
      cases rounds with
      | zero => exact .zero _ _ _
      | succ rounds =>
          have header := nextFrame_reads part parts.isEmpty true (.inl rfl)
            (by simp) (rounds + 1)
          have takes := headerBytes_length part opContinuation parts.isEmpty
          unfold readRest encodeMore Part.encode
          rw [List.append_assoc]
          apply header.bind ?_ (by omega : rounds + 1 ≤ rounds + _)
          rw [not_control part parts.isEmpty (.inl rfl)]
          apply (readPayload_reads part _ _ rounds).bind ?_
            (Nat.le_add_right rounds _)
          cases parts with
          | nil =>
              have last : (part.header opContinuation
                  ([] : List Part).isEmpty).fin = true := rfl
              rw [if_pos last]
              have done : StreamReader.Reads
                  (StreamReader.pure (payload ++ part.data) : ConnReader _)
                  rounds [] (payload ++ part.data) := .pure rounds _
              simpa [encodeMore] using done
          | cons next parts =>
              have goesOn := induction (by simp) (payload ++ part.data) rounds
              rw [List.append_assoc] at goesOn
              exact goesOn

theorem readClientFrame_reads (m : Message) (rounds : Nat) :
    StreamReader.Reads (readClientFrame rounds) rounds m.encode
      (m.payload, m.op) := by
  have data : m.op = opContinuation ∨ m.op = opText ∨ m.op = opBinary := by
    unfold Message.op
    split
    · exact .inr (.inr rfl)
    · exact .inr (.inl rfl)
  have started : (false = true ↔ m.op = opContinuation) := by
    unfold Message.op
    split <;> decide
  cases rounds with
  | zero => exact .zero _ _ _
  | succ rounds =>
      have header := nextFrame_reads m.first m.more.isEmpty false data started
        (rounds + 1)
      have takes := headerBytes_length m.first m.op m.more.isEmpty
      have accepted : ¬ (m.op = opText ∧ ¬ validUTF8 m.payload) := by
        rintro ⟨isText, invalid⟩
        apply invalid
        apply m.text
        unfold Message.op at isText
        split at isText
        · exact absurd isText (by decide)
        · rename_i text
          simpa using text
      unfold readClientFrame Message.encode Part.encode
      rw [List.append_assoc]
      apply header.bind ?_ (by omega : rounds + 1 ≤ rounds + _)
      rw [not_control m.first m.more.isEmpty data]
      apply (readPayload_reads m.first _ _ rounds).bind ?_
        (Nat.le_add_right rounds _)
      have whole : StreamReader.Reads
          (if m.more.isEmpty then .pure m.first.data
            else readRest rounds m.first.data)
          rounds (encodeMore m.more) m.payload := by
        unfold Message.payload
        cases parts : m.more with
        | nil => simpa [encodeMore] using .pure rounds m.first.data
        | cons next later => exact readRest_reads (by simp) m.first.data rounds
      rw [← List.append_nil (encodeMore m.more)]
      apply whole.bind ?_ (Nat.le_add_right rounds _)
      have op : (m.first.header m.op m.more.isEmpty).opCode = m.op := rfl
      rw [op, if_neg accepted]
      exact .pure rounds _

/-- Nothing is taken before something arrives. -/
theorem readClientFrame_break (rounds : Nat)
    (stop : StreamReader.Break UInt8) :
    readClientFrame (rounds + 1) stop.arrivals = stop.leaves [] := by
  cases stop <;> rfl

theorem readClientFrame_takes (rounds : Nat) (b : UInt8)
    (arrivals : List (Arrival UInt8)) :
    (readClientFrame (rounds + 1) (.item b :: arrivals)).taken ≠ [] := by
  obtain ⟨later, first⟩ : ∃ later, (StreamReader.readFull 2
      (.item b :: arrivals) : PartialRead UInt8 ReadError _).taken =
      b :: later := StreamReader.taken_readFull 1 b arrivals
  have header : (StreamReader.readFull 2 (.item b :: arrivals) :
      PartialRead UInt8 ReadError _).taken <+:
      (readClientFrame (rounds + 1) (.item b :: arrivals)).taken :=
    ((StreamReader.taken_bind _ _ _).trans
      (StreamReader.taken_bind _ _ _)).trans (StreamReader.taken_bind _ _ _)
  rw [first] at header
  intro none
  rw [none] at header
  simp at header

/-! ## Reading them -/

/-- A call of `readClientFrame`: the bytes it took, and the data frame it
returned. -/
structure FrameCall where
  taken : List UInt8
  message : Option (List UInt8 × Bool)
deriving DecidableEq

/-- The calls of the readers of a peer, and whether they have dropped it. -/
structure PeerReads where
  calls : List FrameCall
  dropped : Bool
deriving DecidableEq

namespace PeerReads

def after (call : FrameCall) (reads : PeerReads) : PeerReads :=
  { reads with calls := call :: reads.calls }

def taken (reads : PeerReads) : List UInt8 :=
  reads.calls.flatMap FrameCall.taken

/-- The data frames that have been handled, in order. -/
def handled (reads : PeerReads) : List (List UInt8 × Bool) :=
  reads.calls.filterMap FrameCall.message

end PeerReads

/-- The error is one that `readPeer` drops the peer for. -/
def ReadError.dropsPeer (e : ReadError) : Bool :=
  e = .closed

/-- The loops of `readPeer`, from one run of it to the next; `keeps` says of
the data frames so far whether the peer is kept after the last one.  Every
round takes something that has arrived. -/
def readPeer (keeps : List (List UInt8 × Bool) → Bool) :
    Nat → List (List UInt8 × Bool) → List (Arrival UInt8) → PeerReads
  | 0, _, _ => ⟨[], false⟩
  | rounds + 1, handled, arrivals =>
      let read := readClientFrame (arrivals.length + 1) arrivals
      match read.result with
      | .waiting => ⟨[⟨read.taken, none⟩], false⟩
      -- A timeout is idleness: the next event of the poller reads on.
      | .paused =>
          (readPeer keeps rounds handled read.rest).after ⟨read.taken, none⟩
      | .failed e =>
          if e.dropsPeer then ⟨[⟨read.taken, none⟩], true⟩
          else
            (readPeer keeps rounds handled read.rest).after ⟨read.taken, none⟩
      | .done (data, op) =>
          let frame := (data, decide (op = opBinary))
          if keeps (handled ++ [frame]) then
            (readPeer keeps rounds (handled ++ [frame]) read.rest).after
              ⟨read.taken, some frame⟩
          else ⟨[⟨read.taken, some frame⟩], true⟩

/-! ### As steps of the relay -/

/-- What `readPeer` makes of a call; `isPing` says whether a text parses as a
control message of type ping. -/
def outcome (isPing : List UInt8 → Bool) :
    ReadEnd ReadError (List UInt8 × OpCode) → Option Relay.ReadOutcome
  | .done (data, op) =>
      some (if op = opText ∧ isPing data then .ctrlPing
        else .frame data (op = opBinary))
  | .failed e => some (if e.dropsPeer then .hangup else .failed)
  | .paused => some .timeout
  | .waiting => none

/-! ## Pauses -/

def Message.frame (m : Message) : List UInt8 × Bool :=
  (m.payload, m.binary)

/-- The frames up to the first one after which the peer is not kept. -/
def accepted (keeps : List (List UInt8 × Bool) → Bool) :
    List (List UInt8 × Bool) → List Message → List Message
  | _, [] => []
  | handled, m :: frames =>
      m :: if keeps (handled ++ [m.frame])
        then accepted keeps (handled ++ [m.frame]) frames else []

/-- Every call that takes a byte begins at one of these places. -/
def Aligned (place : Nat → Prop) (calls : List FrameCall) : Prop :=
  ∀ before call after, calls = before ++ call :: after → call.taken ≠ [] →
    place (before.flatMap FrameCall.taken).length

/-- Every pause that comes before a limit, and not after the last byte, is at
one of these places. -/
def Unbroken (place : Nat → Prop) (limit : Nat)
    (arrivals : List (Arrival UInt8)) : Prop :=
  ∀ before after, arrivals = before ++ .pause :: after →
    arrived after ≠ [] → (arrived before).length < limit →
    place (arrived before).length

/-- What the readers of a peer should do with the frames of a client. -/
structure Delivers (frames : List Message) (arrivals : List (Arrival UInt8))
    (reads : PeerReads) : Prop where
  inOrder : reads.handled <+: frames.map Message.frame
  complete : arrived arrivals = encodeAll frames →
    reads.taken = encodeAll frames →
    reads.handled = frames.map Message.frame ∨ reads.dropped = true
  aligned : Aligned (· ∈ boundaries frames) reads.calls

theorem aligned_nil (place : Nat → Prop) : Aligned place [] := by
  intro before call after split
  simp at split

theorem aligned_cons {place : Nat → Prop} {call : FrameCall}
    {calls : List FrameCall} :
    Aligned place (call :: calls) ↔ (call.taken ≠ [] → place 0) ∧
      Aligned (fun n => place (call.taken.length + n)) calls := by
  constructor
  · intro aligned
    refine ⟨aligned [] call calls rfl, ?_⟩
    rintro before other after rfl takes
    have here := aligned (call :: before) other after rfl takes
    simpa using here
  · rintro ⟨first, later⟩ before other after split takes
    cases before with
    | nil =>
        obtain ⟨rfl, -⟩ := List.cons.inj split
        exact first takes
    | cons head before =>
        obtain ⟨rfl, rfl⟩ := List.cons.inj split
        simpa using later before other after rfl takes

theorem unbroken_pause {place : Nat → Prop} {limit : Nat}
    {arrivals : List (Arrival UInt8)} :
    Unbroken place limit (.pause :: arrivals) ↔
      (arrived arrivals ≠ [] → 0 < limit → place 0) ∧
        Unbroken place limit arrivals := by
  constructor
  · intro unbroken
    refine ⟨unbroken [] arrivals rfl, ?_⟩
    rintro before after rfl
    exact unbroken (.pause :: before) after rfl
  · rintro ⟨first, later⟩ before after split
    cases before with
    | nil =>
        obtain ⟨-, rfl⟩ := List.cons.inj split
        exact first
    | cons head before =>
        obtain ⟨rfl, rfl⟩ := List.cons.inj split
        exact later before after rfl

theorem unbroken_item {place : Nat → Prop} {limit : Nat} {b : UInt8}
    {arrivals : List (Arrival UInt8)} :
    Unbroken place limit (.item b :: arrivals) ↔
      Unbroken (fun n => place (n + 1)) (limit - 1) arrivals := by
  constructor
  · intro unbroken before after split late short
    have here := unbroken (.item b :: before) after
      (by rw [split, List.cons_append]) late
    exact here (by simpa [arrived] using Nat.add_lt_of_lt_sub short)
  · intro unbroken before after split late short
    cases before with
    | nil => cases split
    | cons head before =>
        obtain ⟨rfl, rfl⟩ := List.cons.inj split
        exact unbroken before after rfl late
          (Nat.lt_sub_of_add_lt (by simpa [arrived] using short))

theorem unbroken_items {place : Nat → Prop} {limit : Nat}
    (items : List UInt8) {arrivals : List (Arrival UInt8)} :
    Unbroken place limit (items.map .item ++ arrivals) ↔
      Unbroken (fun n => place (items.length + n)) (limit - items.length)
        arrivals := by
  induction items generalizing place limit with
  | nil => simp
  | cons b items induction =>
      rw [List.map_cons, List.cons_append, unbroken_item, induction,
        List.length_cons, Nat.sub_add_eq, Nat.sub_right_comm]
      simp only [Nat.add_right_comm]

theorem mem_boundaries_cons {m : Message} {frames : List Message} {n : Nat} :
    n ∈ boundaries (m :: frames) ↔
      n = 0 ∨ ∃ later ∈ boundaries frames, n = m.encode.length + later := by
  simp only [boundaries, List.inits_cons, List.map_cons, List.mem_cons,
    List.map_map, List.mem_map, Function.comp_apply, exists_exists_and_eq_and]
  simp [encodeAll, eq_comm]

theorem zero_mem_boundaries (frames : List Message) :
    0 ∈ boundaries frames := by
  cases frames with
  | nil => simp [boundaries, encodeAll]
  | cons m frames => exact mem_boundaries_cons.mpr (.inl rfl)

theorem encode_ne_nil (m : Message) : m.encode ≠ [] := by
  have takes := headerBytes_length m.first m.op m.more.isEmpty
  intro none
  have length := congrArg List.length none
  simp only [Message.encode, Part.encode, List.length_append,
    List.length_nil] at length
  omega

theorem add_mem_boundaries {m : Message} {frames : List Message} {n : Nat} :
    m.encode.length + n ∈ boundaries (m :: frames) ↔
      n ∈ boundaries frames := by
  have takes := List.length_pos_iff.mpr (encode_ne_nil m)
  rw [mem_boundaries_cons]
  constructor
  · rintro (none | ⟨later, member, same⟩)
    · omega
    · obtain rfl : n = later := by omega
      exact member
  · intro member
    exact .inr ⟨n, member, rfl⟩

/-- A place inside the first frame is no boundary. -/
theorem not_mem_boundaries {m : Message} {frames : List Message} {n : Nat}
    (inside : 0 < n) (short : n < m.encode.length) :
    n ∉ boundaries (m :: frames) := by
  rw [mem_boundaries_cons]
  rintro (none | ⟨later, -, same⟩) <;> omega

/-! ## Runs of the readers -/

section Runs

variable {keeps : List (List UInt8 × Bool) → Bool} {rounds : Nat}
  {handled : List (List UInt8 × Bool)} {arrivals rest : List (Arrival UInt8)}
  {taken : List UInt8}

theorem readPeer_waiting
    (read : readClientFrame (arrivals.length + 1) arrivals =
      ⟨taken, rest, .waiting⟩) :
    readPeer keeps (rounds + 1) handled arrivals =
      ⟨[⟨taken, none⟩], false⟩ := by
  rw [readPeer]
  simp only [read]

theorem readPeer_paused
    (read : readClientFrame (arrivals.length + 1) arrivals =
      ⟨taken, rest, .paused⟩) :
    readPeer keeps (rounds + 1) handled arrivals =
      (readPeer keeps rounds handled rest).after ⟨taken, none⟩ := by
  rw [readPeer]
  simp only [read]

theorem readPeer_done {m : Message}
    (read : readClientFrame (arrivals.length + 1) arrivals =
      ⟨taken, rest, .done (m.payload, m.op)⟩) :
    readPeer keeps (rounds + 1) handled arrivals =
      if keeps (handled ++ [m.frame]) then
        (readPeer keeps rounds (handled ++ [m.frame]) rest).after
          ⟨taken, some m.frame⟩
      else ⟨[⟨taken, some m.frame⟩], true⟩ := by
  have frame : (m.payload, decide (m.op = opBinary)) = m.frame := by
    unfold Message.op Message.frame
    cases m.binary <;> rfl
  rw [readPeer]
  simp only [read, frame]

theorem readPeer_nothing :
    readPeer keeps (rounds + 1) handled [] = ⟨[⟨[], none⟩], false⟩ :=
  readPeer_waiting (readClientFrame_break _ .nothing)

theorem readPeer_pause :
    readPeer keeps (rounds + 1) handled (.pause :: arrivals) =
      (readPeer keeps rounds handled arrivals).after ⟨[], none⟩ :=
  readPeer_paused (readClientFrame_break _ (.pause arrivals))

/-- Whatever is read first is read by a call that begins there. -/
theorem readPeer_takes (enough : arrivals.length < rounds)
    (more : arrived arrivals ≠ []) :
    ∃ before call after,
      (readPeer keeps rounds handled arrivals).calls =
        before ++ call :: after ∧
      before.flatMap FrameCall.taken = [] ∧ call.taken ≠ [] := by
  induction rounds generalizing arrivals with
  | zero => exact absurd enough (Nat.not_lt_zero _)
  | succ rounds induction =>
      cases arrivals with
      | nil => exact absurd rfl more
      | cons arrival arrivals =>
          cases arrival with
          | pause =>
              obtain ⟨before, call, after, calls, empty, takes⟩ :=
                induction (Nat.lt_of_succ_lt_succ enough) more
              refine ⟨⟨[], none⟩ :: before, call, after, ?_, ?_, takes⟩
              · rw [readPeer_pause, PeerReads.after, calls, List.cons_append]
              · rw [List.flatMap_cons, empty, List.append_nil]
          | item b =>
              have takes := readClientFrame_takes
                (Arrival.item b :: arrivals).length b arrivals
              rw [readPeer]
              dsimp only
              split
              · exact ⟨[], _, [], rfl, rfl, takes⟩
              · exact ⟨[], _, _, rfl, rfl, takes⟩
              · split
                · exact ⟨[], _, [], rfl, rfl, takes⟩
                · exact ⟨[], _, _, rfl, rfl, takes⟩
              · split
                · exact ⟨[], _, _, rfl, rfl, takes⟩
                · exact ⟨[], _, [], rfl, rfl, takes⟩

/-- Without another byte nothing more is taken. -/
theorem readPeer_idle (keeps : List (List UInt8 × Bool) → Bool)
    (handled : List (List UInt8 × Bool)) (enough : arrivals.length < rounds)
    (none : arrived arrivals = []) :
    (readPeer keeps rounds handled arrivals).taken = [] ∧
      (readPeer keeps rounds handled arrivals).handled = [] := by
  induction rounds generalizing arrivals with
  | zero => exact absurd enough (Nat.not_lt_zero _)
  | succ rounds induction =>
      cases arrivals with
      | nil =>
          rw [readPeer_nothing]
          exact ⟨rfl, rfl⟩
      | cons arrival arrivals =>
          cases arrival with
          | pause =>
              rw [readPeer_pause]
              exact induction (Nat.lt_of_succ_lt_succ enough) none
          | item b => cases none

end Runs

/-- What the calls do with the frames when the pauses are as they should be,
and that they go wrong otherwise. -/
structure Explains (frames : List Message) (limit : Nat)
    (arrivals : List (Arrival UInt8)) (reads : PeerReads) : Prop where
  aligned : Aligned (· ∈ boundaries frames) reads.calls ↔
    Unbroken (· ∈ boundaries frames) limit arrivals
  inOrder : Unbroken (· ∈ boundaries frames) limit arrivals →
    reads.handled <+: frames.map Message.frame
  complete : Unbroken (· ∈ boundaries frames) limit arrivals →
    arrived arrivals = encodeAll frames → reads.taken = encodeAll frames →
    reads.handled = frames.map Message.frame ∨ reads.dropped = true

namespace Explains

variable {m : Message} {frames : List Message} {limit : Nat}
  {arrivals rest : List (Arrival UInt8)} {reads : PeerReads}

theorem nothing : Explains frames limit [] ⟨[⟨[], none⟩], false⟩ where
  aligned := by
    refine iff_of_true (aligned_cons.mpr ⟨fun takes => absurd rfl takes,
      aligned_nil _⟩) ?_
    intro before after split
    simp at split
  inOrder := fun _ => List.nil_prefix
  complete := by
    intro _ all _
    cases frames with
    | nil => exact .inl rfl
    | cons m frames =>
        have none := (List.append_eq_nil_iff.mp all.symm).1
        exact absurd none (encode_ne_nil m)

/-- A pause at a boundary changes nothing. -/
theorem pause (later : Explains frames limit arrivals reads) :
    Explains frames limit (.pause :: arrivals) (reads.after ⟨[], none⟩) := by
  have same : Unbroken (· ∈ boundaries frames) limit
      (.pause :: arrivals) ↔
      Unbroken (· ∈ boundaries frames) limit arrivals := by
    rw [unbroken_pause, and_iff_right]
    exact fun _ _ => zero_mem_boundaries frames
  refine ⟨?_, fun unbroken => later.inOrder (same.mp unbroken), ?_⟩
  · rw [same, ← later.aligned, PeerReads.after, aligned_cons, and_iff_right]
    · simp
    · exact fun takes => absurd rfl takes
  · intro unbroken
    exact later.complete (same.mp unbroken)

/-- A frame is read, and the peer is kept. -/
theorem whole (later : Explains frames limit rest reads) :
    Explains (m :: frames) (m.encode.length + limit)
      (m.encode.map .item ++ rest) (reads.after ⟨m.encode, some m.frame⟩) := by
  have same : Unbroken (· ∈ boundaries (m :: frames))
      (m.encode.length + limit) (m.encode.map .item ++ rest) ↔
      Unbroken (· ∈ boundaries frames) limit rest := by
    rw [unbroken_items, Nat.add_sub_cancel_left]
    simp only [add_mem_boundaries]
  constructor
  · rw [same, ← later.aligned, PeerReads.after, aligned_cons, and_iff_right]
    · simp only [add_mem_boundaries]
    · exact fun _ => zero_mem_boundaries _
  · intro unbroken
    exact List.cons_prefix_cons.mpr ⟨rfl, later.inOrder (same.mp unbroken)⟩
  · intro unbroken all taken
    rw [arrived_items] at all
    have all := List.append_cancel_left all
    have taken := List.append_cancel_left taken
    rcases later.complete (same.mp unbroken) all taken with handled | dropped
    · exact .inl (congrArg (m.frame :: ·) handled)
    · exact .inr dropped

/-- A frame is read, and the peer is dropped. -/
theorem last : Explains (m :: frames) m.encode.length
    (m.encode.map .item ++ rest) ⟨[⟨m.encode, some m.frame⟩], true⟩ where
  aligned := by
    refine iff_of_true (aligned_cons.mpr ⟨fun _ => zero_mem_boundaries _,
      aligned_nil _⟩) ?_
    rw [unbroken_items, Nat.sub_self]
    intro before after _ _ short
    exact absurd short (Nat.not_lt_zero _)
  inOrder := fun _ => List.cons_prefix_cons.mpr ⟨rfl, List.nil_prefix⟩
  complete := fun _ _ _ => .inr rfl

variable {before after : List UInt8}

/-- Part of a frame is not all of it. -/
theorem cut_incomplete (split : before ++ after = m.encode) (late : after ≠ [])
    (none : arrived rest = []) :
    arrived (before.map .item ++ rest) ≠ encodeAll (m :: frames) := by
  rw [arrived_items, none, List.append_nil]
  intro all
  have length := congrArg List.length all
  have whole := congrArg List.length split
  have more := List.length_pos_iff.mpr late
  simp only [encodeAll, List.flatMap_cons, List.length_append] at length whole
  omega

/-- A frame is broken off, and nothing more arrives. -/
theorem cut (split : before ++ after = m.encode) (late : after ≠ [])
    (none : arrived rest = [])
    (aligned : Aligned (· ∈ boundaries (m :: frames))
      reads.calls)
    (handled : reads.handled = []) :
    Explains (m :: frames) limit (before.map .item ++ rest) reads where
  aligned := by
    refine iff_of_true aligned ?_
    rw [unbroken_items]
    rintro earlier later rfl more
    rw [arrived_append, arrived_pause] at none
    exact absurd (List.append_eq_nil_iff.mp none).2 more
  inOrder := by
    intro _
    rw [handled]
    exact List.nil_prefix
  complete := fun _ all => absurd all (cut_incomplete split late none)

/-- A frame is broken off by a pause, and more arrives after it. -/
theorem broken (split : before ++ after = m.encode) (late : after ≠ [])
    (takes : before ≠ []) (large : m.encode.length ≤ limit)
    (more : arrived rest ≠ [])
    (calls : ∃ empty call later, reads.calls = empty ++ call :: later ∧
      empty.flatMap FrameCall.taken = [] ∧ call.taken ≠ []) :
    Explains (m :: frames) limit (before.map .item ++ .pause :: rest)
      (reads.after ⟨before, none⟩) := by
  have inside : before.length ∉ boundaries (m :: frames) := by
    have whole := congrArg List.length split
    have left := List.length_pos_iff.mpr late
    rw [List.length_append] at whole
    exact not_mem_boundaries (List.length_pos_iff.mpr takes) (by omega)
  have short : before.length < limit := by
    have whole := congrArg List.length split
    have left := List.length_pos_iff.mpr late
    rw [List.length_append] at whole
    omega
  have bad : ¬ Unbroken (· ∈ boundaries (m :: frames)) limit
      (before.map .item ++ .pause :: rest) := by
    intro unbroken
    have here := unbroken (before.map .item) rest rfl more
    have items : arrived (before.map Arrival.item) = before := by
      simp [arrived]
    rw [items] at here
    exact inside (here short)
  refine ⟨iff_of_false ?_ bad, fun unbroken => absurd unbroken bad,
    fun unbroken => absurd unbroken bad⟩
  intro aligned
  obtain ⟨empty, call, later, found, none, takes⟩ := calls
  have here := aligned (⟨before, Option.none⟩ :: empty) call later
    (by rw [PeerReads.after, found, List.cons_append]) takes
  rw [List.flatMap_cons, none, List.append_nil] at here
  exact inside here

end Explains

theorem aligned_of_taken_nil {place : Nat → Prop} {calls : List FrameCall}
    (none : calls.flatMap FrameCall.taken = []) : Aligned place calls := by
  rintro before call after rfl takes
  rw [List.flatMap_append, List.flatMap_cons] at none
  exact absurd (List.append_eq_nil_iff.mp
    (List.append_eq_nil_iff.mp none).2).1 takes

section Step

variable (keeps : List (List UInt8 × Bool) → Bool) {rounds : Nat}
  {m : Message} {frames : List Message} (handled : List (List UInt8 × Bool))
  {rest : List (Arrival UInt8)}

theorem explains_whole
    (enough : (m.encode.map Arrival.item ++ rest).length < rounds + 1)
    (sent : arrived (m.encode.map .item ++ rest) <+: encodeAll (m :: frames))
    (later : ∀ {frames : List Message} {arrivals : List (Arrival UInt8)},
      arrivals.length < rounds → arrived arrivals <+: encodeAll frames →
      Explains frames
        (encodeAll (accepted keeps (handled ++ [m.frame]) frames)).length
        arrivals
        (readPeer keeps rounds (handled ++ [m.frame]) arrivals)) :
    Explains (m :: frames)
      (encodeAll (accepted keeps handled (m :: frames))).length
      (m.encode.map .item ++ rest)
      (readPeer keeps (rounds + 1) handled (m.encode.map .item ++ rest)) := by
  have takes := List.length_pos_iff.mpr (encode_ne_nil m)
  rw [List.length_append, List.length_map] at enough
  have read := (readClientFrame_reads m
    ((m.encode.map Arrival.item ++ rest).length + 1)).whole rest
    (by rw [List.length_append, List.length_map]; omega)
  rw [readPeer_done read]
  unfold accepted
  split
  · have length : (encodeAll (m :: accepted keeps (handled ++ [m.frame])
        frames)).length = m.encode.length +
        (encodeAll (accepted keeps (handled ++ [m.frame]) frames)).length :=
      List.length_append
    rw [arrived_items] at sent
    have further : arrived rest <+: encodeAll frames :=
      (List.prefix_append_right_inj _).mp sent
    rw [length]
    exact (later (by omega) further).whole
  · have length : (encodeAll [m]).length = m.encode.length := by
      simp [encodeAll]
    rw [length]
    exact .last

theorem explains_cut {before after : List UInt8}
    {stop : StreamReader.Break UInt8}
    (enough : (before.map Arrival.item ++ stop.arrivals).length < rounds + 1)
    (split : before ++ after = m.encode) (late : after ≠ [])
    (takes : before ≠ []) :
    Explains (m :: frames)
      (encodeAll (accepted keeps handled (m :: frames))).length
      (before.map .item ++ stop.arrivals)
      (readPeer keeps (rounds + 1) handled
        (before.map .item ++ stop.arrivals)) := by
  have long := List.length_pos_iff.mpr takes
  rw [List.length_append, List.length_map] at enough
  have read := (readClientFrame_reads m
    ((before.map Arrival.item ++ stop.arrivals).length + 1)).broken before
    after stop split late
    (by rw [List.length_append, List.length_map]; omega)
  cases stop with
  | nothing =>
      rw [readPeer_waiting read]
      refine .cut split late rfl (aligned_cons.mpr ⟨?_, aligned_nil _⟩) rfl
      exact fun _ => zero_mem_boundaries _
  | pause rest =>
      have fewer : rest.length < rounds := by
        have length : (StreamReader.Break.pause rest).arrivals.length =
            rest.length + 1 := rfl
        omega
      rw [readPeer_paused read]
      by_cases more : arrived rest = []
      · obtain ⟨taken, none⟩ :=
          readPeer_idle keeps handled fewer more
        refine .cut split late more ?_ none
        exact aligned_cons.mpr ⟨fun _ => zero_mem_boundaries _,
          aligned_of_taken_nil taken⟩
      · apply Explains.broken split late takes ?_ more
          (readPeer_takes fewer more)
        unfold accepted encodeAll
        rw [List.flatMap_cons, List.length_append]
        exact Nat.le_add_right _ _

end Step

/-- What the readers of a peer do with what arrives of some frames. -/
theorem readPeer_explains (keeps : List (List UInt8 × Bool) → Bool)
    {rounds : Nat} {frames : List Message}
    (handled : List (List UInt8 × Bool)) {arrivals : List (Arrival UInt8)}
    (enough : arrivals.length < rounds)
    (sent : arrived arrivals <+: encodeAll frames) :
    Explains frames (encodeAll (accepted keeps handled frames)).length
      arrivals (readPeer keeps rounds handled arrivals) := by
  induction rounds generalizing frames handled arrivals with
  | zero => exact absurd enough (Nat.not_lt_zero _)
  | succ rounds induction =>
      cases arrivals with
      | nil =>
          rw [readPeer_nothing]
          exact .nothing
      | cons arrival arrivals =>
          cases arrival with
          | pause =>
              rw [readPeer_pause]
              exact (induction handled (Nat.lt_of_succ_lt_succ enough)
                sent).pause
          | item b =>
              cases frames with
              | nil => exact absurd (List.prefix_nil.mp sent) (by simp [arrived])
              | cons m frames =>
                  rcases StreamReader.exists_break m.encode sent with
                    ⟨rest, whole⟩ | ⟨before, after, stop, split, late, cut⟩
                  · rw [whole] at enough sent ⊢
                    exact explains_whole keeps handled enough sent
                      (induction _)
                  · have takes : before ≠ [] := by
                      rintro rfl
                      cases stop <;> cases cut
                    rw [cut] at enough ⊢
                    exact explains_cut keeps handled enough split late takes

/-- The frames that `readPeer` handles are those of the client, in their
order, the peer is dropped when one is missed, and no call begins inside a
frame: all this exactly when no pause in a frame that is read, with more to
come, outlasts its read. -/
theorem delivers_iff_unbroken (keeps : List (List UInt8 × Bool) → Bool)
    (frames : List Message) {arrivals : List (Arrival UInt8)}
    (sent : arrived arrivals <+: encodeAll frames) :
    Delivers frames arrivals
        (readPeer keeps (arrivals.length + 1) [] arrivals) ↔
      Unbroken (· ∈ boundaries frames)
        (encodeAll (accepted keeps [] frames)).length arrivals := by
  have explains := readPeer_explains keeps [] (Nat.lt_succ_self _) sent
  constructor
  · intro delivers
    exact explains.aligned.mp delivers.aligned
  · intro unbroken
    exact ⟨explains.inOrder unbroken, explains.complete unbroken,
      explains.aligned.mpr unbroken⟩

/-- The text "Hello", in one frame. -/
def hello : Message where
  binary := false
  first :=
    { mask := [0x37, 0xfa, 0x21, 0x3d]
      data := [0x48, 0x65, 0x6c, 0x6c, 0x6f]
      maskLength := rfl
      dataLength := by decide }
  more := []
  text := by decide

/-- The frame comes twice, with a pause in between. -/
private def helloTwice : List (Arrival UInt8) :=
  hello.encode.map .item ++ .pause :: (hello.encode.map .item ++ [])

private theorem unbroken_helloTwice (limit : Nat) :
    Unbroken (· ∈ boundaries [hello, hello]) limit helloTwice := by
  unfold helloTwice
  rw [unbroken_items, unbroken_pause, unbroken_items]
  refine ⟨fun _ _ => by decide, ?_⟩
  intro before after split
  simp at split

theorem delivers_iff_unbroken_hello :
    Delivers [hello, hello] helloTwice
        (readPeer (fun _ => true) (helloTwice.length + 1) [] helloTwice) ∧
      (readPeer (fun _ => true) (helloTwice.length + 1) []
        helloTwice).handled = [hello.frame, hello.frame] :=
  ⟨(delivers_iff_unbroken (fun _ => true) [hello, hello] (by decide)).mpr
    (unbroken_helloTwice _), by decide⟩

/-- After a pause in the mask, the rest of the frame is read as a header. -/
theorem hello_cut :
    ¬ Delivers [hello]
      ((hello.encode.take 4).map .item ++
        .pause :: (hello.encode.drop 4).map .item)
      (readPeer (fun _ => true) 13 []
        ((hello.encode.take 4).map .item ++
          .pause :: (hello.encode.drop 4).map .item)) := by
  intro delivers
  have calls : (readPeer (fun _ => true) 13 []
      ((hello.encode.take 4).map .item ++
        .pause :: (hello.encode.drop 4).map .item)).calls =
      [⟨hello.encode.take 4, none⟩] ++
        ⟨(hello.encode.drop 4).take 2, none⟩ ::
          [⟨hello.encode.drop 6, none⟩] := by
    decide
  have inside := delivers.aligned _ _ _ calls (by decide)
  exact absurd inside (by decide)

end Byteln.Server.WebSocket

import Byteln.Library.Records
import Byteln.Server.FrameReading

/-!
# Writing WebSocket frames

`ws.WriteHeader` and `ws.WriteFrame`, and the frames the relay makes.  Every
header that is written is read back by `ws.ReadHeader`, and a stream of frames
by `ws.ReadFrame`, as far as it has arrived.
-/

namespace Byteln.Server.WebSocket

open Byteln.Library

def opPing : OpCode := 0x9

def opPong : OpCode := 0xa

structure Frame where
  header : Header
  payload : List UInt8
deriving DecidableEq

def putUint16 (n : Nat) : List UInt8 :=
  [UInt8.ofNat (n / 256), UInt8.ofNat n]

/-- The size of a header in bytes, or -1 if its length is out of range. -/
def headerSize (h : Header) : Int :=
  if h.length < 126 then 2 + if h.masked then 4 else 0
  else if h.length ≤ 2 ^ 16 - 1 then 4 + if h.masked then 4 else 0
  else if h.length ≤ 2 ^ 63 - 1 then 10 + if h.masked then 4 else 0
  else -1

/-- The final bit, the reserved bits and the opcode. -/
def Header.flags (h : Header) : UInt8 :=
  (if h.fin then (0x80 : UInt8) else 0) ||| (h.rsv <<< 4) ||| h.opCode

/-- The mask bit and seven bits of length. -/
def Header.second (h : Header) (bits : UInt8) : UInt8 :=
  (if h.masked then (0x80 : UInt8) else 0) ||| bits

/-- The bytes of a header, unless its length is out of range. -/
def writeHeader (h : Header) : Option (List UInt8) :=
  let mask := if h.masked then h.mask else []
  if h.length ≤ 125 then
    some ([h.flags, h.second (UInt8.ofNat h.length)] ++ mask)
  else if h.length ≤ 2 ^ 16 - 1 then
    some ([h.flags, h.second 126] ++ (putUint16 h.length ++ mask))
  else if h.length ≤ 2 ^ 63 - 1 then
    some ([h.flags, h.second 127] ++
      (putUint64 (UInt64.ofNat h.length) ++ mask))
  else none

/-- The writes of `WriteFrame`: the header, then the payload. -/
def writeFrame (f : Frame) : Option (List (List UInt8)) :=
  (writeHeader f.header).map fun bts => [bts, f.payload]

def newFrame (op : OpCode) (fin : Bool) (p : List UInt8) : Frame where
  header :=
    { fin := fin
      rsv := 0
      opCode := op
      masked := false
      mask := [0, 0, 0, 0]
      length := p.length }
  payload := p

def readFrame : ConnReader Frame :=
  readHeader.bind fun h =>
    (StreamReader.readFull h.length).bind fun payload => .pure ⟨h, payload⟩

def newCloseFrameBody (code : Nat) (reason : List UInt8) : List UInt8 :=
  putUint16 code ++ reason.take (maxControlFramePayloadSize - 2)

/-! ## Headers -/

/-- A header that the wire format has room for: three reserved bits and four
bits of opcode, for which the Go fields have whole bytes, a mask of four bytes,
which is zero where nothing is masked, and a length that is an `int64`. -/
structure Header.Fits (h : Header) : Prop where
  rsv : h.rsv < 8
  opCode : h.opCode < 16
  mask : h.mask.length = 4
  unmasked : h.masked = false → h.mask = [0, 0, 0, 0]
  length : h.length < 2 ^ 63

/-- The bytes of a header that fits. -/
def Header.bytes (h : Header) : List UInt8 :=
  (writeHeader h).getD []

theorem writeHeader_of_fits {h : Header} (fits : h.Fits) :
    writeHeader h = some h.bytes := by
  have length := fits.length
  have inRange : h.length ≤ 2 ^ 63 - 1 := Nat.le_sub_one_of_lt length
  unfold Header.bytes writeHeader
  dsimp only
  split
  · rfl
  · split
    · rfl
    · rfl

theorem Header.flags_bits {h : Header} (few : h.rsv < 8)
    (code : h.opCode < 16) :
    ((h.flags &&& 0x80 != 0) = h.fin) ∧
      (h.flags &&& 0x70) >>> 4 = h.rsv ∧ h.flags &&& 0x0f = h.opCode := by
  have all : ∀ (fin : Bool) (r : Fin 8) (o : Fin 16),
      let flags := (if fin then (0x80 : UInt8) else 0) |||
        (UInt8.ofNat r <<< 4) ||| UInt8.ofNat o
      ((flags &&& 0x80 != 0) = fin) ∧
        (flags &&& 0x70) >>> 4 = UInt8.ofNat r ∧
        flags &&& 0x0f = UInt8.ofNat o := by
    decide
  have here := all h.fin ⟨h.rsv.toNat, few⟩ ⟨h.opCode.toNat, code⟩
  rwa [UInt8.ofNat_toNat, UInt8.ofNat_toNat] at here

theorem Header.second_bits (h : Header) {bits : UInt8}
    (small : bits.toNat < 128) :
    h.second bits &&& 0x7f = bits ∧
      (h.second bits &&& 0x80 != 0) = h.masked := by
  have all : ∀ (masked : Bool) (n : Fin 128),
      let second := (if masked then (0x80 : UInt8) else 0) ||| UInt8.ofNat n
      second &&& 0x7f = UInt8.ofNat n ∧ (second &&& 0x80 != 0) = masked := by
    decide
  have here := all h.masked ⟨bits.toNat, small⟩
  rwa [UInt8.ofNat_toNat] at here

/-- The first hop of a header, and what is left of it. -/
theorem readHeader_reads_of {h : Header} (fits : h.Fits) {bits : UInt8}
    (small : bits.toNat < 128) (extra : List UInt8) (bound : Nat)
    (size : extra.length = (if h.masked then 4 else 0) +
      if bits = 126 then 2 else if bits = 127 then 8 else 0)
    (short : extra = [] → h.length = bits.toNat ∧ h.masked = false)
    (long : extra ≠ [] →
      (if bits = 126 then
        StreamReader.pure { h with
          length := bigEndianUint16 extra
          mask := if h.masked then extra.drop 2 else [0, 0, 0, 0] }
      else if bits = 127 then
        if extra.getD 0 0 &&& 0x80 != 0 then .fail .headerLengthMSB
        else
          .pure { h with
            length := (bigEndianUint64 extra).toNat
            mask := if h.masked then extra.drop 8 else [0, 0, 0, 0] }
      else .pure { h with
        length := bits.toNat
        mask := if h.masked then extra else [0, 0, 0, 0] }) =
        (StreamReader.pure h : ConnReader Header)) :
    StreamReader.Reads readHeader bound ([h.flags, h.second bits] ++ extra)
      h := by
  obtain ⟨final, reserved, opCode⟩ := Header.flags_bits fits.rsv fits.opCode
  obtain ⟨lengthBits, maskBit⟩ := h.second_bits small
  unfold readHeader
  refine (StreamReader.Reads.readFull bound [h.flags, h.second bits]).bind ?_
    (Nat.le_add_right bound _)
  simp only [List.getD_cons_zero, List.getD_cons_succ, final, reserved,
    opCode, lengthBits, maskBit]
  rw [← size]
  by_cases one : extra = []
  · obtain ⟨length, plain⟩ := short one
    subst one
    rw [List.length_nil, if_pos rfl]
    have same : h = ⟨h.fin, h.rsv, h.opCode, h.masked, [0, 0, 0, 0],
        bits.toNat⟩ := by
      rw [← length, ← fits.unmasked plain]
    rw [← same]
    exact .pure bound h
  · apply reads_extra rfl
    · simpa using one
    · exact long one

/-- The mask field of a header. -/
theorem Header.Fits.maskField {h : Header} (fits : h.Fits) :
    (if h.masked then h.mask else []).length = if h.masked then 4 else 0 := by
  split
  · exact fits.mask
  · rfl

theorem Header.Fits.mask_eq {h : Header} (fits : h.Fits) :
    (if h.masked then h.mask else [0, 0, 0, 0]) = h.mask := by
  split
  · rfl
  · rename_i plain
    exact (fits.unmasked (Bool.eq_false_iff.mpr plain)).symm

/-- A header is read back as it was written. -/
theorem readHeader_writeHeader {h : Header} (fits : h.Fits) (bound : Nat) :
    StreamReader.Reads readHeader bound h.bytes h := by
  have field := fits.maskField
  have mask := fits.mask_eq
  have inRange := fits.length
  unfold Header.bytes writeHeader
  dsimp only
  generalize fieldEq : (if h.masked then h.mask else []) = maskField at field
  have masked : (if h.masked then maskField else [0, 0, 0, 0]) = h.mask := by
    rw [← fieldEq, ← mask]
    cases h.masked <;> rfl
  by_cases short : h.length ≤ 125
  · have bits : (UInt8.ofNat h.length).toNat = h.length := by
      rw [UInt8.toNat_ofNat']
      omega
    have plain : UInt8.ofNat h.length ≠ 126 ∧ UInt8.ofNat h.length ≠ 127 := by
      constructor <;>
      · intro same
        rw [same] at bits
        revert bits
        simp
        omega
    rw [if_pos short, Option.getD_some]
    apply readHeader_reads_of fits (by omega) maskField bound
    · rw [field, if_neg plain.1, if_neg plain.2]
      rfl
    · intro none
      refine ⟨bits.symm, ?_⟩
      rw [none] at field
      cases unset : h.masked with
      | false => rfl
      | true =>
          rw [unset] at field
          cases field
    · intro _
      rw [if_neg plain.1, if_neg plain.2, bits, masked]
  · rw [if_neg short]
    by_cases medium : h.length ≤ 2 ^ 16 - 1
    · rw [if_pos medium, Option.getD_some]
      apply readHeader_reads_of fits (by decide) _ bound
      · rw [List.length_append, field, if_pos rfl]
        exact Nat.add_comm 2 _
      · intro none
        cases none
      · intro _
        have value : bigEndianUint16 (putUint16 h.length ++ maskField) =
            h.length := bigEndianUint16_bytes (by omega) maskField
        have rest : (putUint16 h.length ++ maskField).drop 2 = maskField :=
          rfl
        rw [if_pos rfl, value, rest, masked]
    · rw [if_neg medium, if_pos (Nat.le_sub_one_of_lt inRange),
        Option.getD_some]
      obtain ⟨value, top⟩ := bigEndianUint64_bytes inRange maskField
      have other : (127 : UInt8) ≠ 126 := by decide
      apply readHeader_reads_of fits (by decide) _ bound
      · rw [List.length_append, field, if_neg other, if_pos rfl]
        exact Nat.add_comm 8 _
      · intro none
        cases none
      · intro _
        have rest : (putUint64 (UInt64.ofNat h.length) ++ maskField).drop 8 =
            maskField := rfl
        rw [if_neg other, if_pos rfl, top, if_neg Bool.false_ne_true, value,
          rest, masked]

theorem headerSize_bytes {h : Header} (fits : h.Fits) :
    (h.bytes.length : Int) = headerSize h := by
  have inRange : h.length ≤ 2 ^ 63 - 1 := Nat.le_sub_one_of_lt fits.length
  have field : ((if h.masked then h.mask else []).length : Int) =
      if h.masked then 4 else 0 := by
    rw [fits.maskField]
    split <;> rfl
  unfold Header.bytes writeHeader headerSize
  dsimp only
  rw [← field]
  generalize (if h.masked then h.mask else []) = maskField
  by_cases short : h.length ≤ 125
  · have size : h.length < 126 := by omega
    rw [if_pos short, if_pos size, Option.getD_some, List.length_append]
    rfl
  · have size : ¬ h.length < 126 := by omega
    rw [if_neg short, if_neg size]
    by_cases medium : h.length ≤ 2 ^ 16 - 1
    · rw [if_pos medium, if_pos medium, Option.getD_some, List.length_append,
        List.length_append]
      simp [putUint16]
      omega
    · rw [if_neg medium, if_neg medium, if_pos inRange, if_pos inRange,
        Option.getD_some, List.length_append, List.length_append]
      simp [putUint64]
      omega

/-! ## Frames -/

/-- A frame with such a header, which says how long its payload is. -/
structure Frame.Fits (f : Frame) : Prop where
  header : f.header.Fits
  length : f.header.length = f.payload.length

def Frame.bytes (f : Frame) : List UInt8 :=
  f.header.bytes ++ f.payload

theorem writeFrame_of_fits {f : Frame} (fits : f.Fits) :
    writeFrame f = some [f.header.bytes, f.payload] := by
  unfold writeFrame
  rw [writeHeader_of_fits fits.header]
  rfl

theorem Header.bytes_ne_nil {h : Header} (fits : h.Fits) : h.bytes ≠ [] := by
  have size := headerSize_bytes fits
  have inRange := fits.length
  intro none
  rw [none] at size
  unfold headerSize at size
  rw [if_pos (Nat.le_sub_one_of_lt inRange)] at size
  split_ifs at size <;> simp at size

theorem readFrame_reads {f : Frame} (fits : f.Fits) (bound : Nat) :
    StreamReader.Reads readFrame bound f.bytes f := by
  have payload : StreamReader.Reads
      ((StreamReader.readFull f.header.length).bind fun payload =>
        (StreamReader.pure ⟨f.header, payload⟩ : ConnReader Frame)) bound
      (f.payload ++ []) f := by
    rw [fits.length]
    exact (StreamReader.Reads.readFull bound f.payload).bind
      (.pure bound f) (Nat.le_add_right bound _)
  rw [List.append_nil] at payload
  exact (readHeader_writeHeader fits.header bound).bind payload
    (Nat.le_add_right bound _)

theorem readFrame_waits : (readFrame []).result = .waiting := rfl

/-- A control frame as the standard asks for it. -/
def Frame.IsProper (f : Frame) : Prop :=
  f.header.fin = true ∧ f.header.rsv = 0 ∧ f.header.masked = false ∧
    (isControl f.header.opCode = true →
      f.payload.length ≤ maxControlFramePayloadSize)

theorem newFrame_fits {op : OpCode} {p : List UInt8} (fin : Bool)
    (code : op < 16) (short : p.length < 2 ^ 63) : (newFrame op fin p).Fits where
  header :=
    { rsv := by
        show (0 : UInt8) < 8
        decide
      opCode := code
      mask := rfl
      unmasked := fun _ => rfl
      length := short }
  length := rfl

/-- Of the bytes of some frames, those frames are read back that have arrived
as a whole, and nothing else. -/
theorem collect_frames {frames : List Frame}
    (fits : ∀ f ∈ frames, f.Fits) {bts : List UInt8}
    (arrived : bts <+: frames.flatMap Frame.bytes) {rounds : Nat}
    (enough : bts.length < rounds) :
    ∃ n, readFrame.collect rounds (bts.map .item) = frames.take n ∧
      (frames.take n).flatMap Frame.bytes <+: bts ∧
      (n < frames.length → bts.length <
        ((frames.take (n + 1)).flatMap Frame.bytes).length) := by
  apply StreamReader.collect_prefix _ _ readFrame_waits arrived enough
  · exact fun f member bound => readFrame_reads (fits f member) bound
  · intro f member none
    exact Header.bytes_ne_nil (fits f member).header
      (List.append_eq_nil_iff.mp none).1

/-- The same of the stream that `writeFrame` writes. -/
theorem readFrame_stream {frames : List Frame}
    (fits : ∀ f ∈ frames, f.Fits) {bts : List UInt8}
    (arrived : bts <+: frames.flatMap Frame.bytes) {rounds : Nat}
    (enough : bts.length < rounds) :
    (∀ f ∈ frames, (writeFrame f).map List.flatten = some f.bytes) ∧
    ∃ n, readFrame.collect rounds (bts.map .item) = frames.take n ∧
      (frames.take n).flatMap Frame.bytes <+: bts ∧
      (n < frames.length → bts.length <
        ((frames.take (n + 1)).flatMap Frame.bytes).length) := by
  refine ⟨?_, collect_frames fits arrived enough⟩
  intro f member
  rw [writeFrame_of_fits (fits f member)]
  simp [Frame.bytes]

/-- A ping has arrived, and the text after it but for its last byte. -/
theorem readFrame_stream_ping :
    readFrame.collect 7 (([0x89, 1, 7, 0x81, 2, 0x68] : List UInt8).map .item) =
      [newFrame opPing true [7]] := by
  let frames := [newFrame opPing true [7], newFrame opText true [0x68, 0x69]]
  have fits : ∀ f ∈ frames, f.Fits := by
    intro f member
    rcases List.mem_pair.mp member with rfl | rfl
    · exact newFrame_fits true (by decide) (by decide)
    · exact newFrame_fits true (by decide) (by decide)
  have arrived : [0x89, 1, 7, 0x81, 2, 0x68] <+: frames.flatMap Frame.bytes :=
    ⟨[0x69], rfl⟩
  obtain ⟨-, n, collected, before, broken⟩ :=
    readFrame_stream fits arrived (Nat.lt_succ_self 6)
  have one : n = 1 := by
    rcases n with _ | _ | n
    · exact absurd (broken (by decide)) (by decide)
    · rfl
    · rw [List.take_of_length_le (Nat.le_add_left 2 n)] at before
      exact absurd before.length_le (by decide)
  rw [collected, one]
  rfl

theorem newCloseFrameBody_length (code : Nat) (reason : List UInt8) :
    (newCloseFrameBody code reason).length ≤ maxControlFramePayloadSize := by
  unfold newCloseFrameBody putUint16 maxControlFramePayloadSize
  rw [List.length_append, List.length_take]
  simp
  omega

end Byteln.Server.WebSocket

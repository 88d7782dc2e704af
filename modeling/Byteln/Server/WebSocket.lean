import Byteln.Library.Interrupted
import Byteln.Server.Pow

/-!
# Reading WebSocket frames

`wsutil.Reader` as `readClientFrame` uses it: each call makes a new one, on the
server's side, without extensions.  A text is checked here once it has been
read; the code may refuse an invalid one before its end.  Writing an answer to
a control frame succeeds.
-/

namespace Byteln.Server.WebSocket

open Byteln.Library

abbrev OpCode := UInt8

def opContinuation : OpCode := 0x0

def opText : OpCode := 0x1

def opBinary : OpCode := 0x2

def opClose : OpCode := 0x8

def maxControlFramePayloadSize : Nat := 125

def isControl (c : OpCode) : Bool :=
  c &&& 0x8 != 0

def isReserved (c : OpCode) : Bool :=
  (0x3 ≤ c && c ≤ 0x7) || (0xb ≤ c && c ≤ 0xf)

structure Header where
  fin : Bool
  rsv : UInt8
  opCode : OpCode
  masked : Bool
  /-- Of four bytes. -/
  mask : List UInt8
  length : Nat
deriving DecidableEq

inductive ReadError where
  | headerLengthMSB
  | opCodeReserved
  | controlPayloadOverflow
  | controlNotFinal
  | nonZeroRsv
  | maskRequired
  | continuationExpected
  | continuationUnexpected
  /-- The client has closed the connection; the only text with "closed". -/
  | closed
  | closeFrameData
  | invalidUTF8
deriving DecidableEq

/-- Reading from a connection. -/
abbrev ConnReader := StreamReader UInt8 ReadError

/-! ## Headers -/

def bigEndianUint16 (buf : List UInt8) : Nat :=
  (buf.take 2).foldl (fun n b => n * 256 + b.toNat) 0

def readHeader : ConnReader Header :=
  (StreamReader.readFull 2).bind fun bts =>
    let length := bts.getD 1 0 &&& 0x7f
    let masked := bts.getD 1 0 &&& 0x80 != 0
    let extra := (if masked then 4 else 0) +
      if length = 126 then 2 else if length = 127 then 8 else 0
    let h : Header :=
      { fin := bts.getD 0 0 &&& 0x80 != 0
        rsv := (bts.getD 0 0 &&& 0x70) >>> 4
        opCode := bts.getD 0 0 &&& 0x0f
        masked := masked
        mask := [0, 0, 0, 0]
        length := length.toNat }
    if extra = 0 then .pure h
    else
      (StreamReader.readFull extra).bind fun bts =>
        if length = 126 then
          .pure { h with
            length := bigEndianUint16 bts
            mask := if masked then bts.drop 2 else h.mask }
        else if length = 127 then
          if bts.getD 0 0 &&& 0x80 != 0 then .fail .headerLengthMSB
          else
            .pure { h with
              length := (bigEndianUint64 bts).toNat
              mask := if masked then bts.drop 8 else h.mask }
        else .pure { h with mask := if masked then bts else h.mask }

/-- `CheckHeader` on the server's side. -/
def checkHeader (fragmented : Bool) (h : Header) : Option ReadError :=
  if isReserved h.opCode then some .opCodeReserved
  else if isControl h.opCode ∧ h.length > maxControlFramePayloadSize then
    some .controlPayloadOverflow
  else if isControl h.opCode ∧ ¬ h.fin then some .controlNotFinal
  else if h.rsv ≠ 0 then some .nonZeroRsv
  else if ¬ h.masked then some .maskRequired
  else if fragmented ∧ ¬ isControl h.opCode ∧ h.opCode ≠ opContinuation then
    some .continuationExpected
  else if ¬ fragmented ∧ h.opCode = opContinuation then
    some .continuationUnexpected
  else none

def nextFrame (fragmented : Bool) : ConnReader Header :=
  readHeader.bind fun h =>
    match checkHeader fragmented h with
    | some e => .fail e
    | none => .pure h

/-! ## Payloads -/

/-- The same in both directions. -/
def cipher (mask payload : List UInt8) : List UInt8 :=
  payload.mapIdx fun i b => b ^^^ mask.getD (i % 4) 0

def readPayload (h : Header) : ConnReader (List UInt8) :=
  (StreamReader.readFull h.length).bind fun payload =>
    .pure (if h.masked then cipher h.mask payload else payload)

/-- Character classes of bytes, then a row of states for each state. -/
def utf8d : List Nat :=
  List.replicate 128 0 ++ List.replicate 16 1 ++ List.replicate 16 9 ++
  List.replicate 32 7 ++ [8, 8] ++ List.replicate 30 2 ++
  [10] ++ List.replicate 12 3 ++ [4, 3, 3] ++
  [11, 6, 6, 6, 5] ++ List.replicate 11 8 ++
  [0, 12, 24, 36, 60, 96, 84, 12, 12, 12, 48, 72] ++
  List.replicate 12 12 ++
  [12, 0, 12, 12, 12, 12, 12, 0, 12, 0, 12, 12] ++
  [12, 24, 12, 12, 12, 12, 12, 24, 12, 24, 12, 12] ++
  [12, 12, 12, 12, 12, 12, 12, 24, 12, 12, 12, 12] ++
  [12, 24, 12, 12, 12, 12, 12, 12, 12, 24, 12, 12] ++
  [12, 12, 12, 12, 12, 12, 12, 36, 12, 36, 12, 12] ++
  [12, 36, 12, 12, 12, 12, 12, 36, 12, 36, 12, 12] ++
  [12, 36, 12, 12, 12, 12, 12, 12, 12, 12, 12, 12]

/-- The state of `UTF8Reader` after one more byte; 0 accepts, and 12, which is
never left, rejects. -/
def decode (state : Nat) (b : UInt8) : Nat :=
  utf8d.getD (256 + state + utf8d.getD b.toNat 0) 12

def validUTF8 (text : List UInt8) : Bool :=
  text.foldl decode 0 = 0

/-- The error of the data of a close frame, if there is one. -/
def checkCloseFrameData (payload : List UInt8) : Option String :=
  let code := if payload.length < 2 then 0 else bigEndianUint16 payload
  let defined := code ∈ [1000, 1001, 1002, 1003, 1005, 1006, 1007, 1008, 1009,
    1010, 1011, 1015]
  if code ≤ 999 then some "status code is not in use"
  else if code ∈ [1005, 1006, 1015] then
    some "status code is only application level"
  else if code = 1004 then some "status code has no meaning yet"
  else if code ≤ 2999 ∧ ¬ defined then
    some "status code is not defined in spec"
  else if payload.length ≥ 2 ∧ ¬ validUTF8 (payload.drop 2) then
    some "invalid utf8 sequence in close reason"
  else none

/-- The control handler; it answers pings. -/
def handleControl (h : Header) : ConnReader Unit :=
  (readPayload h).bind fun payload =>
    if h.opCode = opClose then
      .fail (if h.length = 0 ∨ checkCloseFrameData payload = none then .closed
        else .closeFrameData)
    else .pure ()

/-! ## Messages -/

/-- `ReadAll`, after a frame that is not the last of its message.  Every round
takes a frame. -/
def readRest : Nat → List UInt8 → ConnReader (List UInt8)
  | 0, _ => .stuck
  | rounds + 1, payload =>
      (nextFrame true).bind fun h =>
        if isControl h.opCode then
          (handleControl h).bind fun _ => readRest rounds payload
        else
          (readPayload h).bind fun more =>
            if h.fin then .pure (payload ++ more)
            else readRest rounds (payload ++ more)

def readClientFrame : Nat → ConnReader (List UInt8 × OpCode)
  | 0 => .stuck
  | rounds + 1 =>
      (nextFrame false).bind fun h =>
        if isControl h.opCode then
          (handleControl h).bind fun _ => readClientFrame rounds
        else
          (readPayload h).bind fun first =>
            (if h.fin then .pure first else readRest rounds first).bind
              fun payload =>
                if h.opCode = opText ∧ ¬ validUTF8 payload then
                  .fail .invalidUTF8
                else .pure (payload, h.opCode)

end Byteln.Server.WebSocket

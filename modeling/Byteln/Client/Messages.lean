import Byteln.Library.CodeUnits

/-!
# Plaintext messages

The messages two clients exchange once decrypted, and the constants both sides
check them against.  The type of JavaScript numbers that need not be small
integers (time stamps, image dimensions) is a parameter; counts, indices and
sizes are natural numbers.  An optional flag is absent when it is `false`.
-/

namespace Byteln.Client

open Byteln.Library

abbrev Bytes := List UInt8

/-! ## Limits -/

def MAX_TRANSFER_BYTES : Nat := 10 * 1024 * 1024

def MAX_IMAGE_BYTES : Nat := MAX_TRANSFER_BYTES

def IMAGE_CHUNK_PAYLOAD_BYTES : Nat := 256 * 1024

def HISTORY_CHUNK_PAYLOAD_BYTES : Nat := IMAGE_CHUNK_PAYLOAD_BYTES

def TRANSFER_CHUNK_BYTES : Nat := IMAGE_CHUNK_PAYLOAD_BYTES

/-- `Math.ceil` of a quotient of natural numbers. -/
def ceilDiv (n d : Nat) : Nat :=
  (n + d - 1) / d

def MAX_TRANSFER_CHUNKS : Nat :=
  ceilDiv MAX_TRANSFER_BYTES TRANSFER_CHUNK_BYTES

/-- Number of chunks a payload of `size` bytes must be split into. -/
def transferChunkCount (size : Nat) : Nat :=
  max 1 (ceilDiv size TRANSFER_CHUNK_BYTES)

/-- Exact byte length chunk `index` must carry for a payload of `size`
bytes. -/
def transferChunkLength (size index : Nat) : Nat :=
  min TRANSFER_CHUNK_BYTES (size - index * TRANSFER_CHUNK_BYTES)

/-! ## Messages -/

structure ReplyRef where
  id : JSString
  preview : JSString
deriving DecidableEq

inductive ImageMime where
  | jpeg
  | png
  | webp
  | gif
deriving DecidableEq

inductive TransferKind where
  | image
  | file
deriving DecidableEq

variable (ν : Type)

structure TextPlainMessage where
  ts : ν
  body : JSString
  id : Option JSString
  replyTo : Option ReplyRef
deriving DecidableEq

structure ImagePlainMessage where
  ts : ν
  mime : ImageMime
  data : Bytes
  w : Option ν
  h : Option ν
  id : Option JSString
  replyTo : Option ReplyRef
deriving DecidableEq

structure FilePlainMessage where
  ts : ν
  name : JSString
  mime : JSString
  data : Bytes
  id : Option JSString
  replyTo : Option ReplyRef
deriving DecidableEq

/-- `ts`, `mime` and `byteLength` are present on index 0. -/
structure ImageChunkPlainMessage where
  id : JSString
  index : Nat
  total : Nat
  data : Bytes
  ts : Option ν
  mime : Option ImageMime
  byteLength : Option Nat
  w : Option ν
  h : Option ν
  replyTo : Option ReplyRef
deriving DecidableEq

structure HistoryDigestPlainMessage where
  ts : ν
  count : ν
  idHash : JSString
  deviceFp : Option JSString
deriving DecidableEq

/-- `compressedLength` is present on index 0. -/
structure HistoryChunkPlainMessage where
  id : JSString
  index : Nat
  total : Nat
  data : Bytes
  compressedLength : Option Nat
deriving DecidableEq

/-- The description of a payload, repeated on each of its chunks. -/
structure TransferHeader where
  kind : TransferKind
  ts : ν
  mime : JSString
  size : Nat
  sha256 : JSString
  name : Option JSString
  w : Option ν
  h : Option ν
  replyTo : Option ReplyRef
deriving DecidableEq

structure TransferChunkPlainMessage where
  id : JSString
  index : Nat
  total : Nat
  header : TransferHeader ν
  data : Bytes
deriving DecidableEq

/-- The chunks held so far; `resend` asks for everything else. -/
structure TransferAckPlainMessage where
  ts : ν
  id : JSString
  haves : List Nat
  resend : Bool
  done : Bool
deriving DecidableEq

structure TransferQueryPlainMessage where
  ts : ν
  id : JSString
deriving DecidableEq

structure TransferCancelPlainMessage where
  ts : ν
  id : JSString
  reason : Option JSString
deriving DecidableEq

inductive PlainMessage where
  | text (msg : TextPlainMessage ν)
  | image (msg : ImagePlainMessage ν)
  | file (msg : FilePlainMessage ν)
  | delete (ts : ν) (id : JSString)
  | imageChunk (msg : ImageChunkPlainMessage ν)
  | historyChunk (msg : HistoryChunkPlainMessage)
  | xferChunk (msg : TransferChunkPlainMessage ν)
  | xferAck (msg : TransferAckPlainMessage ν)
  | xferQuery (msg : TransferQueryPlainMessage ν)
  | xferCancel (msg : TransferCancelPlainMessage ν)
  | historyDigest (msg : HistoryDigestPlainMessage ν)
  | resyncRequest (ts : ν) (id : JSString) (deviceFp : Option JSString)
  | resyncAccept (ts : ν) (id : JSString) (ids : List JSString)
  | resyncReject (ts : ν) (id : JSString) (reason : Option JSString)
  | resyncIds (ts : ν) (id : JSString) (ids : List JSString)
  | wipeHistory (ts : ν) (id : JSString)
deriving DecidableEq

/-- A message kept in the local history. -/
inductive ContentPlainMessage where
  | text (msg : TextPlainMessage ν)
  | image (msg : ImagePlainMessage ν)
  | file (msg : FilePlainMessage ν)
deriving DecidableEq

inductive Origin where
  | self
  | peer
deriving DecidableEq

structure StoredMessage where
  content : ContentPlainMessage ν
  id : JSString
  origin : Origin
deriving DecidableEq

/-- The attachment of a stored message; a text has none. -/
def StoredMessage.data {ν : Type} (msg : StoredMessage ν) : Bytes :=
  match msg.content with
  | .text _ => []
  | .image image => image.data
  | .file file => file.data

end Byteln.Client

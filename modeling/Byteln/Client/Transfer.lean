import Byteln.Client.Messages
import Byteln.Client.Rooms
import Byteln.Library.Transition

/-!
# The transfer engine

The sender keeps a bounded window of unacknowledged chunks, the receiver acks
what it holds, and only missing chunks are resent.  Transfers are shared
objects: an `async` function that has been suspended may hold one that its room
no longer lists, so transfers live in a heap and rooms store references.
Between two `await`s nothing else runs; `Engine.step` is such a section.
Everything the engine tells or asks its dependencies is recorded in `log`.
-/

namespace Byteln.Client

open Byteln.Library

abbrev Time := Int

/-- The messages of an engine; its numbers are clock readings. -/
abbrev Message := PlainMessage Time

inductive TransferStatus where
  | active
  | waiting
  | failed
deriving DecidableEq

inductive Direction where
  | send
  | recv
deriving DecidableEq

/-- What the user interface is told about a transfer. -/
structure Transfer where
  id : JSString
  direction : Direction
  kind : TransferKind
  progress : ℚ
  status : TransferStatus
  detail : Option String
  mime : JSString
  name : Option JSString
  size : Nat
  w : Option Time
  h : Option Time
  origin : Origin
  replyTo : Option ReplyRef
  ts : Time
deriving DecidableEq

structure OutgoingPayload where
  id : JSString
  kind : TransferKind
  ts : Time
  mime : JSString
  data : Bytes
  name : Option JSString
  w : Option Time
  h : Option Time
  replyTo : Option ReplyRef
deriving DecidableEq

structure TransferLimits where
  window : Nat
  ackEvery : Nat
  stallMs : Time
  maxAttempts : Nat
  maxIncomingPerRoom : Nat
  maxIncomingBytesPerRoom : Nat
  maxOutgoingPerRoom : Nat
  failedTtlMs : Time

def DEFAULT_TRANSFER_LIMITS : TransferLimits where
  window := 12
  ackEvery := 4
  stallMs := 5000
  maxAttempts := 6
  maxIncomingPerRoom := 3
  maxIncomingBytesPerRoom := 30 * 1024 * 1024
  maxOutgoingPerRoom := 3
  failedTtlMs := 10 * 60000

structure Outgoing where
  bucketId : JSString
  id : JSString
  header : TransferHeader Time
  data : Bytes
  total : Nat
  acked : Finset Nat
  queue : List Nat
  /-- When each chunk in flight was last sent. -/
  inFlight : InsertionMap Nat Time
  status : TransferStatus
  detail : Option String
  attempts : Nat
  lastActivityAt : Time
  pumping : Bool

structure Incoming where
  bucketId : JSString
  id : JSString
  header : TransferHeader Time
  total : Nat
  parts : List (Option Bytes)
  received : Nat
  status : TransferStatus
  detail : Option String
  attempts : Nat
  lastActivityAt : Time
  sinceAck : Nat
  completing : Bool

def cancelDetail (reason : Option JSString) : String :=
  let reason := reason.getD []
  if reason = js "busy" then "Partner is busy — retry later"
  else if reason = js "storage" then "Partner is out of storage"
  else if reason = js "corrupt" then "File arrived corrupted"
  else if reason = js "unavailable" then "Sender no longer has this file"
  else "Partner cancelled the transfer"

def sameHeader (a b : TransferHeader Time) : Bool :=
  a.kind = b.kind && a.size = b.size && a.sha256 = b.sha256 &&
    a.mime = b.mime && a.ts = b.ts

def ImageMime.text : ImageMime → JSString
  | .jpeg => js "image/jpeg"
  | .png => js "image/png"
  | .webp => js "image/webp"
  | .gif => js "image/gif"

def ImageMime.ofText? (mime : JSString) : Option ImageMime :=
  [ImageMime.jpeg, .png, .webp, .gif].find? fun m => m.text = mime

/-- The leading bytes a payload of this type must have. -/
def ImageMime.matchesMagic (data : Bytes) : ImageMime → Bool
  | .jpeg => data.length ≥ 3 && data.take 3 = [0xff, 0xd8, 0xff]
  | .png => data.length ≥ 8 && data.take 4 = [0x89, 0x50, 0x4e, 0x47]
  | .gif => data.length ≥ 4 && data.take 4 = [0x47, 0x49, 0x46, 0x38]
  | .webp =>
      data.length ≥ 12 && data.take 4 = [0x52, 0x49, 0x46, 0x46] &&
        (data.drop 8).take 4 = [0x57, 0x45, 0x42, 0x50]

/-- The image type of a payload, unless it is mislabeled. -/
def matchesImageMime (mime : JSString) (data : Bytes) : Option ImageMime :=
  (ImageMime.ofText? mime).filter fun m => m.matchesMagic data

/-! ## State -/

/-- The rest of an `async` function that waits for a promise. -/
inductive Suspended where
  /-- `startSend`, for the hash of the payload. -/
  | hashPayload (bucketId : JSString) (payload : OutgoingPayload)
      (resume : Bool)
  /-- `pump`, for a chunk to be sent. -/
  | send (o : Ref) (index : Nat)
  /-- `complete`, for the hash of the assembled data; `offset` is the sum of
  the lengths of its parts. -/
  | hashData (i : Ref) (data : Bytes) (offset : Nat)
  /-- `complete`, for the message to be stored. -/
  | deliver (i : Ref)
  /-- The storage check of a new incoming transfer. -/
  | storage (created : Ref)

/-- A call of a dependency, or what one returned. -/
inductive Call where
  | send (bucketId : JSString) (msg : Message)
  | deliver (bucketId : JSString) (msg : StoredMessage Time)
  /-- The promise of `deliver` has resolved. -/
  | delivered (bucketId id : JSString)
  /-- `hasMessage` has returned true. -/
  | known (bucketId id : JSString)
  | publish (bucketId : JSString) (transfers : List Transfer)
  | persistPending (bucketId : JSString) (ids : List JSString)
  | onDelivered (bucketId id : JSString)

structure Engine where
  limits : TransferLimits
  /-- The dependency `hasStorageFor` is there. -/
  checksStorage : Bool
  outgoing : List Outgoing
  out : Rooms
  incoming : List Incoming
  inc : Rooms
  timer : Bool
  suspended : List Suspended
  log : List Call

/-- What the dependencies answer during a section. -/
structure Env where
  now : Time
  canSend : JSString → Bool
  hasMessage : JSString → JSString → Bool

def Engine.new (limits : TransferLimits) (checksStorage : Bool) : Engine where
  limits := limits
  checksStorage := checksStorage
  outgoing := []
  out := .empty
  incoming := []
  inc := .empty
  timer := false
  suspended := []
  log := []

/-- The chunk of a payload at an index. -/
def Outgoing.chunk (o : Outgoing) (index : Nat) :
    TransferChunkPlainMessage Time where
  id := o.id
  index := index
  total := o.total
  header := o.header
  data :=
    let start := index * TRANSFER_CHUNK_BYTES
    (o.data.take (min (start + TRANSFER_CHUNK_BYTES) o.header.size)).drop start

def view (id : JSString) (direction : Direction) (h : TransferHeader Time)
    (status : TransferStatus) (detail : Option String) (bytes : Int)
    (count total : Nat) : Transfer where
  id := id
  direction := direction
  kind := h.kind
  progress :=
    if h.size > 0 then min 1 ((bytes : ℚ) / h.size)
    else if count ≥ total then 1 else 0
  status := status
  detail := detail
  mime := h.mime
  name := h.name
  size := h.size
  w := h.w
  h := h.h
  origin := match direction with
    | .send => .self
    | .recv => .peer
  replyTo := h.replyTo
  ts := h.ts

def Outgoing.view (o : Outgoing) : Transfer :=
  let bytes := ∑ i ∈ o.acked,
    min (TRANSFER_CHUNK_BYTES : Int)
      (o.header.size - i * TRANSFER_CHUNK_BYTES)
  Client.view o.id .send o.header o.status o.detail bytes o.acked.card o.total

def Incoming.view (i : Incoming) : Transfer :=
  let bytes := (i.parts.map fun p => (p.getD []).length).sum
  Client.view i.id .recv i.header i.status i.detail bytes i.received i.total

/-- The indices of the parts that are there. -/
def Incoming.haves (i : Incoming) : List Nat :=
  (List.range i.parts.length).filter fun index =>
    (i.parts[index]?.join).isSome

def Incoming.toStored (i : Incoming) (data : Bytes) : StoredMessage Time :=
  let h := i.header
  let image := if h.kind = .image then matchesImageMime h.mime data else none
  { content := match image with
      | some mime =>
          .image
            { ts := h.ts, mime := mime, data := data, w := h.w, h := h.h,
              id := some i.id, replyTo := h.replyTo }
      | none =>
          .file
            { ts := h.ts
              name := if h.kind = .image then js "attachment"
                else h.name.getD (js "file")
              mime := if h.kind = .image then js "application/octet-stream"
                else h.mime
              data := data
              id := some i.id
              replyTo := h.replyTo }
    id := i.id
    origin := .peer }

namespace Engine

/-! ## Bookkeeping -/

def record (call : Call) (s : Engine) : Engine :=
  { s with log := s.log ++ [call] }

def suspend (task : Suspended) (s : Engine) : Engine :=
  { s with suspended := s.suspended ++ [task] }

/-- Take out a suspended function that goes on. -/
def unsuspend (index : Nat) (s : Engine) : Engine :=
  { s with suspended := s.suspended.eraseIdx index }

/-- Allocate an outgoing transfer and list it in its room. -/
def addOut (o : Outgoing) (s : Engine) : Engine :=
  { s with
    outgoing := s.outgoing ++ [o]
    out := s.out.put o.bucketId o.id s.outgoing.length }

def addIn (i : Incoming) (s : Engine) : Engine :=
  { s with
    incoming := s.incoming ++ [i]
    inc := s.inc.put i.bucketId i.id s.incoming.length }

def setOut (ref : Ref) (o : Outgoing) (s : Engine) : Engine :=
  { s with outgoing := s.outgoing.set ref o }

def setIn (ref : Ref) (i : Incoming) (s : Engine) : Engine :=
  { s with incoming := s.incoming.set ref i }

def findOut (s : Engine) (bucketId id : JSString) :
    Option (Ref × Outgoing) := do
  let ref ← s.out.find bucketId id
  let o ← s.outgoing[ref]?
  pure (ref, o)

def findIn (s : Engine) (bucketId id : JSString) :
    Option (Ref × Incoming) := do
  let ref ← s.inc.find bucketId id
  let i ← s.incoming[ref]?
  pure (ref, i)

/-- Visit the outgoing transfers among some references. -/
def eachOut (refs : List Ref) (visit : Ref → Outgoing → Engine → Engine)
    (s : Engine) : Engine :=
  refs.foldl (fun s ref =>
    match s.outgoing[ref]? with
    | some o => visit ref o s
    | none => s) s

/-- Visit the incoming transfers among some references. -/
def eachIn (refs : List Ref) (visit : Ref → Incoming → Engine → Engine)
    (s : Engine) : Engine :=
  refs.foldl (fun s ref =>
    match s.incoming[ref]? with
    | some i => visit ref i s
    | none => s) s

def list (s : Engine) (bucketId : JSString) : List Transfer :=
  ((s.out.refs bucketId).filterMap fun ref =>
    s.outgoing[ref]?.map Outgoing.view) ++
  (s.inc.refs bucketId).filterMap fun ref =>
    s.incoming[ref]?.map Incoming.view

def publish (bucketId : JSString) (s : Engine) : Engine :=
  s.record (.publish bucketId (s.list bucketId))

def persist (bucketId : JSString) (s : Engine) : Engine :=
  s.record (.persistPending bucketId (s.out.ids bucketId))

def ensureTimer (s : Engine) : Engine :=
  { s with timer := true }

def stopTimerIfIdle (s : Engine) : Engine :=
  if s.out.size = 0 ∧ s.inc.size = 0 then { s with timer := false } else s

def backoff (s : Engine) (attempts : Nat) : Time :=
  s.limits.stallMs * min (2 ^ attempts) 6

/-- `isLiveOut`, for the transfer at a reference. -/
def isLiveOut (s : Engine) (ref : Ref) (o : Outgoing) : Bool :=
  s.out.find o.bucketId o.id = some ref

def isLiveIn (s : Engine) (ref : Ref) (i : Incoming) : Bool :=
  s.inc.find i.bucketId i.id = some ref

def deleteOut (o : Outgoing) (s : Engine) : Engine :=
  { s with out := s.out.remove o.bucketId o.id }
    |>.persist o.bucketId |>.stopTimerIfIdle

def deleteIn (i : Incoming) (s : Engine) : Engine :=
  { s with inc := s.inc.remove i.bucketId i.id } |>.stopTimerIfIdle

def sendCtl (bucketId : JSString) (msg : Message) (s : Engine) : Engine :=
  s.record (.send bucketId msg)

def sendAck (env : Env) (i : Incoming) (resend done : Bool) (s : Engine) :
    Engine :=
  s.sendCtl i.bucketId (.xferAck
    { ts := env.now, id := i.id, haves := i.haves, resend := resend,
      done := done })

def sendCancel (env : Env) (bucketId id reason : JSString) (s : Engine) :
    Engine :=
  s.sendCtl bucketId (.xferCancel
    { ts := env.now, id := id, reason := some reason })

def query (env : Env) (ref : Ref) (o : Outgoing) (s : Engine) : Engine :=
  let o := { o with lastActivityAt := env.now }
  if env.canSend o.bucketId then
    (s.setOut ref o).sendCtl o.bucketId
      (.xferQuery { ts := env.now, id := o.id })
  else s.setOut ref { o with status := .waiting }

/-! ## Sender -/

def outgoingCount (s : Engine) (bucketId : JSString) : Nat :=
  ((s.out.get? bucketId).map InsertionMap.size).getD 0

def canStartSend (s : Engine) (bucketId : JSString) : Bool :=
  s.outgoingCount bucketId < s.limits.maxOutgoingPerRoom

/-- The start of `startSend`, up to its `await`.  A payload that is too large
is refused with an error. -/
def startSend (bucketId : JSString) (payload : OutgoingPayload)
    (resume : Bool) (s : Engine) : Engine :=
  if payload.data.length > MAX_TRANSFER_BYTES then s
  else if (s.out.find bucketId payload.id).isSome then s
  else s.suspend (.hashPayload bucketId payload resume)

end Engine

/-- The loop of `pump` up to its next `await`: the transfer it leaves and the
chunk it waits for, if any. -/
def Outgoing.pumpLoop (window : Nat) (live canSend : Bool) (o : Outgoing) :
    List Nat → Outgoing × Option Nat
  | [] => ({ o with queue := [] }, none)
  | index :: queue =>
      if o.status = .active ∧ live ∧ o.inFlight.size < window then
        if index ∈ o.acked ∨ o.inFlight.contains index then
          o.pumpLoop window live canSend queue
        else if canSend then ({ o with queue := queue }, some index)
        else ({ o with queue := index :: queue, status := .waiting }, none)
      else ({ o with queue := index :: queue }, none)

/-- The transfer `startSend` creates. -/
def Outgoing.open (now : Time) (sha256 bucketId : JSString)
    (payload : OutgoingPayload) (resume : Bool) : Outgoing :=
  let header : TransferHeader Time :=
    { kind := payload.kind, ts := payload.ts, mime := payload.mime,
      size := payload.data.length, sha256 := sha256, name := payload.name,
      w := payload.w, h := payload.h, replyTo := payload.replyTo }
  let total := transferChunkCount header.size
  { bucketId := bucketId, id := payload.id, header := header,
    data := payload.data, total := total, acked := ∅,
    queue := if resume then [] else List.range total,
    inFlight := .empty, status := .active, detail := none, attempts := 0,
    lastActivityAt := now, pumping := false }

namespace Engine

/-- Run the loop of `pump`, and leave the function if it does not wait. -/
def pumpOn (env : Env) (ref : Ref) (o : Outgoing) (s : Engine) : Engine :=
  match o.pumpLoop s.limits.window (s.isLiveOut ref o)
    (env.canSend o.bucketId) o.queue with
  | (o, some index) =>
      (s.setOut ref o).record (.send o.bucketId (.xferChunk (o.chunk index)))
        |>.suspend (.send ref index)
  | (o, none) =>
      s.setOut ref { o with pumping := false } |>.publish o.bucketId

def pump (env : Env) (ref : Ref) (s : Engine) : Engine :=
  match s.outgoing[ref]? with
  | none => s
  | some o =>
      if o.pumping then s else s.pumpOn env ref { o with pumping := true }

/-- `pump` after a chunk has been sent, or could not be. -/
def pumpSent (env : Env) (ref : Ref) (index : Nat) (ok : Bool) (s : Engine) :
    Engine :=
  match s.outgoing[ref]? with
  | none => s
  | some o =>
      if ¬ s.isLiveOut ref o then s.setOut ref { o with pumping := false }
      else if ¬ ok then
        s.setOut ref
            { o with
              queue := index :: o.queue, status := .waiting, pumping := false }
          |>.publish o.bucketId
      else
        let o := { o with
          lastActivityAt := env.now
          inFlight := if index ∈ o.acked then o.inFlight
            else o.inFlight.set index env.now }
        s.pumpOn env ref o

/-- `startSend` after the payload has been hashed. -/
def register (env : Env) (sha256 : JSString) (bucketId : JSString)
    (payload : OutgoingPayload) (resume : Bool) (s : Engine) : Engine :=
  let o := Outgoing.open env.now sha256 bucketId payload resume
  let ref := s.outgoing.length
  let s := s.addOut o |>.persist bucketId |>.ensureTimer
  (if resume then s.query env ref o else s.pump env ref) |>.publish bucketId

/-- Account for the chunks an ack reports. -/
def applyAck (env : Env) (stallMs : Time) (ack : TransferAckPlainMessage Time)
    (o : Outgoing) : Outgoing :=
  let reported := ack.haves.filter fun i => i < o.total
  let acked := o.acked ∪ reported.toFinset
  let o := { o with
    acked := acked
    inFlight := o.inFlight.filter fun i _ => i ∉ reported
    attempts := if acked.card > o.acked.card then 0 else o.attempts
    lastActivityAt := env.now }
  if ack.resend then
    -- Chunks sent moments ago are likely still in transit.
    let inFlight := o.inFlight.filter fun _ sentAt => env.now - sentAt < stallMs
    { o with
      inFlight := inFlight
      queue := (List.range o.total).filter fun i =>
        i ∉ o.acked ∧ ¬ inFlight.contains i
      status := .active
      detail := none }
  else o

def handleAck (env : Env) (bucketId : JSString)
    (ack : TransferAckPlainMessage Time) (s : Engine) : Engine :=
  match s.findOut bucketId ack.id with
  | none =>
      if ack.resend ∧ ¬ ack.done then
        s.sendCancel env bucketId ack.id (js "unavailable")
      else s
  | some (ref, o) =>
      if ack.done then
        s.deleteOut o |>.publish bucketId
          |>.record (.onDelivered bucketId o.id)
      else
        s.setOut ref (applyAck env s.limits.stallMs ack o)
          |>.publish bucketId |>.pump env ref

def handleCancel (bucketId : JSString)
    (msg : TransferCancelPlainMessage Time) (s : Engine) : Engine :=
  let o := s.findOut bucketId msg.id
  let i := s.findIn bucketId msg.id
  let s := match o with
    | none => s
    | some (ref, o) =>
        s.setOut ref
          { o with
            status := .failed, detail := some (cancelDetail msg.reason),
            inFlight := .empty, queue := [] }
  let s := match i with
    | none => s
    | some (_, i) => s.deleteIn i
  if o.isSome ∨ i.isSome then s.publish bucketId else s

/-! ## Receiver -/

/-- A `done` ack for a message that needs no transfer any more. -/
def ackKnown (env : Env) (bucketId id : JSString) (s : Engine) : Engine :=
  s.record (.known bucketId id) |>.sendCtl bucketId (.xferAck
    { ts := env.now, id := id, haves := [], resend := false, done := true })

def handleQuery (env : Env) (bucketId id : JSString) (s : Engine) : Engine :=
  match s.findIn bucketId id with
  | some (ref, i) =>
      if i.completing then s
      else
        let i := { i with
          attempts := 0, status := .active, detail := none,
          lastActivityAt := env.now }
        s.setIn ref i |>.sendAck env i true false |>.publish bucketId
  | none =>
      if env.hasMessage bucketId id then s.ackKnown env bucketId id
      else
        s.sendCtl bucketId (.xferAck
          { ts := env.now, id := id, haves := [], resend := true,
            done := false })

end Engine

/-- The outcome of copying the parts one after the other into a buffer of the
size of the payload. -/
inductive Assembly where
  | missing
  /-- A part does not fit; `set` throws. -/
  | overflow
  | filled (data : Bytes) (offset : Nat)

def assemble (size : Nat) : List (Option Bytes) → Bytes → Assembly
  | [], copied =>
      .filled (copied ++ List.replicate (size - copied.length) 0) copied.length
  | none :: _, _ => .missing
  | some p :: parts, copied =>
      if copied.length + p.length > size then .overflow
      else assemble size parts (copied ++ p)

/-- `parts[index] = data`, which extends an array that is too short. -/
def setPart (parts : List (Option Bytes)) (index : Nat) (data : Bytes) :
    List (Option Bytes) :=
  (parts ++ List.replicate (index + 1 - parts.length) none).set index
    (some data)

/-- The transfer the first chunk of a payload creates. -/
def Incoming.open (now : Time) (bucketId : JSString)
    (c : TransferChunkPlainMessage Time) : Incoming where
  bucketId := bucketId
  id := c.id
  header := c.header
  total := c.total
  parts := List.replicate c.total none
  received := 0
  status := .active
  detail := none
  attempts := 0
  lastActivityAt := now
  sinceAck := 0
  completing := false

namespace Engine

/-- The start of `complete`, up to its first `await`. -/
def complete (ref : Ref) (i : Incoming) (s : Engine) : Engine :=
  match assemble i.header.size i.parts [] with
  | .missing => s.setIn ref { i with completing := false }
  | .overflow => s.setIn ref { i with completing := true }
  | .filled data offset =>
      s.setIn ref { i with completing := true }
        |>.suspend (.hashData ref data offset)

/-- Store a chunk in the transfer it belongs to. -/
def fill (env : Env) (ref : Ref) (i : Incoming)
    (c : TransferChunkPlainMessage Time) (s : Engine) : Engine :=
  if i.completing ∨ (i.parts[c.index]?.join).isSome then s
  else
    let i := { i with
      parts := setPart i.parts c.index c.data
      received := i.received + 1
      sinceAck := i.sinceAck + 1
      attempts := 0
      status := .active
      detail := none
      lastActivityAt := env.now }
    if i.received = i.total then s.complete ref i
    else if i.sinceAck ≥ s.limits.ackEvery then
      let i := { i with sinceAck := 0 }
      s.setIn ref i |>.sendAck env i false false |>.publish i.bucketId
    else s.setIn ref i |>.publish i.bucketId

/-- The incoming transfers of a room. -/
def pending (s : Engine) (bucketId : JSString) : List Incoming :=
  (s.inc.refs bucketId).filterMap fun ref => s.incoming[ref]?

def handleChunk (env : Env) (bucketId : JSString)
    (c : TransferChunkPlainMessage Time) (s : Engine) : Engine :=
  match s.findIn bucketId c.id with
  | some (ref, i) =>
      if ¬ sameHeader i.header c.header ∨ i.total ≠ c.total then s
      else s.fill env ref i c
  | none =>
      if (s.out.find bucketId c.id).isSome then s
      else if env.hasMessage bucketId c.id then s.ackKnown env bucketId c.id
      else
        let pending := s.pending bucketId
        let pendingBytes := (pending.map fun i => i.header.size).sum
        if pending.length ≥ s.limits.maxIncomingPerRoom ∨
            pendingBytes + c.header.size > s.limits.maxIncomingBytesPerRoom then
          s.sendCancel env bucketId c.id (js "busy")
        else
          let i := Incoming.open env.now bucketId c
          let ref := s.incoming.length
          let s := s.addIn i |>.ensureTimer
          let s := if s.checksStorage then s.suspend (.storage ref) else s
          s.fill env ref i c

/-- The storage check of a new transfer has an answer. -/
def storageChecked (env : Env) (ref : Ref) (ok : Bool) (s : Engine) :
    Engine :=
  match s.incoming[ref]? with
  | none => s
  | some i =>
      if ok ∨ ¬ s.isLiveIn ref i then s
      else
        s.deleteIn i |>.sendCancel env i.bucketId i.id (js "storage")
          |>.publish i.bucketId

/-- `complete` after the assembled data has been hashed. -/
def hashed (env : Env) (ref : Ref) (data : Bytes) (offset : Nat)
    (sha : JSString) (s : Engine) : Engine :=
  match s.incoming[ref]? with
  | none => s
  | some i =>
      if ¬ s.isLiveIn ref i then s
      else if offset ≠ i.header.size ∨ sha ≠ i.header.sha256 then
        let i := { i with
          attempts := i.attempts + 1
          parts := i.parts.map fun _ => none
          received := 0
          sinceAck := 0
          completing := false }
        (if i.attempts > 2 then
          s.setIn ref i |>.deleteIn i
            |>.sendCancel env i.bucketId i.id (js "corrupt")
        else
          let i := { i with lastActivityAt := env.now }
          s.setIn ref i |>.sendAck env i true false)
          |>.publish i.bucketId
      else
        s.record (.deliver i.bucketId (i.toStored data))
          |>.suspend (.deliver ref)

/-- `complete` after the message has been stored, or could not be. -/
def stored (env : Env) (ref : Ref) (ok : Bool) (s : Engine) : Engine :=
  match s.incoming[ref]? with
  | none => s
  | some i =>
      if ok then
        s.record (.delivered i.bucketId i.id) |>.deleteIn i
          |>.sendAck env i false true |>.publish i.bucketId
      else
        s.setIn ref
            { i with
              parts := i.parts.map fun _ => none
              received := 0
              completing := false
              status := .failed
              detail := some "Could not save — storage may be full"
              lastActivityAt := env.now }
          |>.publish i.bucketId

/-! ## Lifecycle -/

/-- Socket open or peer (re)appeared: resume everything. -/
def onConnected (env : Env) (bucketId : JSString) (s : Engine) : Engine :=
  s.eachOut (s.out.refs bucketId) (fun ref o s =>
      s.query env ref
        { o with
          attempts := 0, status := .active, detail := none,
          inFlight := .empty })
    |>.eachIn (s.inc.refs bucketId) (fun ref i s =>
      if i.completing then s
      else
        let i := { i with
          attempts := 0, status := .active, detail := none,
          lastActivityAt := env.now }
        let s := s.setIn ref i
        if env.canSend bucketId then s.sendAck env i true false else s)
    |>.publish bucketId

def onDisconnected (bucketId : JSString) (s : Engine) : Engine :=
  s.eachOut (s.out.refs bucketId) (fun ref o s =>
      if o.status = .failed then s
      else s.setOut ref { o with inFlight := .empty, status := .waiting })
    |>.eachIn (s.inc.refs bucketId) (fun ref i s =>
      if i.status = .failed then s
      else s.setIn ref { i with status := .waiting })
    |>.publish bucketId

/-- User-initiated retry from a failed bubble. -/
def retry (env : Env) (bucketId id : JSString) (s : Engine) : Engine :=
  let s := match s.findOut bucketId id with
    | none => s
    | some (ref, o) =>
        s.query env ref
          { o with
            attempts := 0, status := .active, detail := none,
            inFlight := .empty }
  let s := match s.findIn bucketId id with
    | none => s
    | some (ref, i) =>
        if i.completing then s
        else
          let i := { i with
            attempts := 0, status := .active, detail := none,
            lastActivityAt := env.now }
          s.setIn ref i |>.sendAck env i true false
  s.ensureTimer.publish bucketId

/-- Drop a transfer in both directions; report whether there was one. -/
def drop (bucketId id : JSString) (s : Engine) : Engine × Bool :=
  let o := s.findOut bucketId id
  let i := s.findIn bucketId id
  let s := match o with
    | none => s
    | some (_, o) => s.deleteOut o
  let s := match i with
    | none => s
    | some (_, i) => s.deleteIn i
  (s, o.isSome || i.isSome)

/-- Abort a transfer and tell the peer. -/
def cancel (env : Env) (bucketId id : JSString) (s : Engine) : Engine :=
  match s.drop bucketId id with
  | (s, true) =>
      s.sendCancel env bucketId id (js "cancelled") |>.publish bucketId
  | (s, false) => s

/-- Drop local state for a message that was deleted. -/
def forget (bucketId id : JSString) (s : Engine) : Engine :=
  match s.drop bucketId id with
  | (s, true) => s.publish bucketId
  | (s, false) => s

def clearBucket (bucketId : JSString) (forgetPending : Bool) (s : Engine) :
    Engine :=
  let s := { s with out := s.out.erase bucketId, inc := s.inc.erase bucketId }
  let s := if forgetPending then s.record (.persistPending bucketId []) else s
  s.stopTimerIfIdle.record (.publish bucketId [])

def clearAll (s : Engine) : Engine :=
  { s with out := .empty, inc := .empty }.stopTimerIfIdle

/-- A tick for one outgoing transfer; it reports whether to publish. -/
def tickOut (env : Env) (ref : Ref) (o : Outgoing) (s : Engine) :
    Engine × Bool :=
  if o.status = .failed ∨ o.pumping then (s, false)
  else if o.status = .waiting then
    if env.canSend o.bucketId then
      (s.query env ref { o with status := .active }, true)
    else (s, false)
  else if o.queue.length > 0 ∧ o.inFlight.size < s.limits.window then
    (s.pump env ref, false)
  -- Window full or everything sent: waiting on acks or the final "done".
  else if env.now - o.lastActivityAt < s.backoff o.attempts then (s, false)
  else
    let o := { o with attempts := o.attempts + 1 }
    if o.attempts > s.limits.maxAttempts then
      (s.setOut ref
        { o with
          status := .failed, detail := some "Partner not responding",
          inFlight := .empty }, true)
    else (s.query env ref o, true)

def tickIn (env : Env) (ref : Ref) (i : Incoming) (s : Engine) :
    Engine × Bool :=
  if i.completing then (s, false)
  else if i.status = .failed then
    if env.now - i.lastActivityAt > s.limits.failedTtlMs then
      (s.deleteIn i, true)
    else (s, false)
  else if env.now - i.lastActivityAt < s.backoff i.attempts then (s, false)
  else
    let i := { i with lastActivityAt := env.now }
    if ¬ env.canSend i.bucketId then
      if i.status ≠ .waiting then
        (s.setIn ref { i with status := .waiting }, true)
      else (s.setIn ref i, false)
    else
      let i := { i with attempts := i.attempts + 1 }
      if i.attempts > s.limits.maxAttempts then
        (s.setIn ref
          { i with status := .failed, detail := some "Transfer stalled" },
          true)
      else
        let i := { i with status := .active }
        (s.setIn ref i |>.sendAck env i true false, true)

/-- `touched.add(bucketId)`, if the visit asks for it. -/
def touch (bucketId : JSString) (touched : List JSString) :
    Engine × Bool → Engine × List JSString
  | (s, true) =>
      (s, if bucketId ∈ touched then touched else touched ++ [bucketId])
  | (s, false) => (s, touched)

def visitOut (env : Env) :
    Engine × List JSString → Ref → Engine × List JSString
  | (s, touched), ref =>
      match s.outgoing[ref]? with
      | some o => touch o.bucketId touched (s.tickOut env ref o)
      | none => (s, touched)

def visitIn (env : Env) :
    Engine × List JSString → Ref → Engine × List JSString
  | (s, touched), ref =>
      match s.incoming[ref]? with
      | some i => touch i.bucketId touched (s.tickIn env ref i)
      | none => (s, touched)

def tick (env : Env) (s : Engine) : Engine :=
  let visited := s.out.allRefs.foldl (visitOut env) (s, [])
  let visited := visited.1.inc.allRefs.foldl (visitIn env) visited
  visited.2.foldl (fun s bucketId => s.publish bucketId) visited.1

end Engine

/-! ## Runs -/

/-- What starts a section: a call of a method, or a promise that settles.
`ok` is what the promise says. -/
inductive Event where
  | startSend (bucketId : JSString) (payload : OutgoingPayload)
      (resume : Bool)
  | handleAck (bucketId : JSString) (ack : TransferAckPlainMessage Time)
  | handleCancel (bucketId : JSString) (msg : TransferCancelPlainMessage Time)
  | handleQuery (bucketId id : JSString)
  | handleChunk (bucketId : JSString) (c : TransferChunkPlainMessage Time)
  | onConnected (bucketId : JSString)
  | onDisconnected (bucketId : JSString)
  | retry (bucketId id : JSString)
  | cancel (bucketId id : JSString)
  | forget (bucketId id : JSString)
  | clearBucket (bucketId : JSString) (forgetPending : Bool)
  | clearAll
  | tick
  | settle (index : Nat) (ok : Bool)

namespace Engine

/-- Continue a suspended function. -/
def settle (sha256 : Bytes → JSString) (env : Env) (ok : Bool)
    (s : Engine) : Suspended → Engine
  | .hashPayload bucketId payload resume =>
      s.register env (sha256 payload.data) bucketId payload resume
  | .send ref index => s.pumpSent env ref index ok
  | .hashData ref data offset => s.hashed env ref data offset (sha256 data)
  | .deliver ref => s.stored env ref ok
  | .storage ref => s.storageChecked env ref ok

/-- One section; `none` when the event names no suspended function. -/
def step (sha256 : Bytes → JSString) (env : Env) (s : Engine) :
    Event → Option Engine
  | .startSend bucketId payload resume =>
      some (s.startSend bucketId payload resume)
  | .handleAck bucketId ack => some (s.handleAck env bucketId ack)
  | .handleCancel bucketId msg => some (s.handleCancel bucketId msg)
  | .handleQuery bucketId id => some (s.handleQuery env bucketId id)
  | .handleChunk bucketId c => some (s.handleChunk env bucketId c)
  | .onConnected bucketId => some (s.onConnected env bucketId)
  | .onDisconnected bucketId => some (s.onDisconnected bucketId)
  | .retry bucketId id => some (s.retry env bucketId id)
  | .cancel bucketId id => some (s.cancel env bucketId id)
  | .forget bucketId id => some (s.forget bucketId id)
  | .clearBucket bucketId forgetPending =>
      some (s.clearBucket bucketId forgetPending)
  | .clearAll => some s.clearAll
  | .tick => some (s.tick env)
  | .settle index ok =>
      (s.suspended[index]?).map fun task =>
        (s.unsuspend index).settle sha256 env ok task

/-- The runs of one engine on its own, which may be told anything. -/
def system (sha256 : Bytes → JSString) (limits : TransferLimits)
    (checksStorage : Bool) : Lts Engine (Event × Env) where
  init := fun s => s = .new limits checksStorage
  step := fun s label s' => s.step sha256 label.2 label.1 = some s'

end Engine

end Byteln.Client

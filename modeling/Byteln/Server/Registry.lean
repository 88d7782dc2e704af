import Byteln.Library.InsertionMap
import Mathlib

/-!
# The bucket registry

Buckets with two seats, the offline frame buffer of each bucket, and the
registry that maps bucket ids to buckets.  A bucket is shared by pointer: a
goroutine may hold one that the registry has dropped from its map, so buckets
live in a heap and the map stores references.

Every mutex-protected section of the Go code is one function here.  The
exported operations compose these sections; the concurrent system of
`Byteln.Server.Calls` interleaves them.

Connections are opaque to the registry and payloads matter only by their
length, so both are type parameters.  An unset `time.Time` is `none`.
-/

namespace Byteln.Server

open Byteln.Library

abbrev Time := Int
abbrev Duration := Int

/-- One of the two seats of a bucket. -/
abbrev Slot := Fin 2

/-- The two seats are the numerals 0 and 1. -/
instance seatCount_neZero : NeZero 2 := ⟨two_ne_zero⟩

def Slot.other (slot : Slot) : Slot := 1 - slot

/-- Byte strings, known to the registry only through `len`. -/
class Payload (δ : Type) where
  len : δ → Nat

structure BufferedFrame (δ : Type) where
  data : δ
  binary : Bool
  expiresAt : Time

structure Peer (κ : Type) where
  conn : Option κ
  token : String
  deviceSessionID : String
  lastSeen : Time
  ip : String
  /-- Set when the peer disconnects, unset while connected. -/
  droppedAt : Option Time
  connected : Bool

structure Config where
  idleTTL : Duration
  bufferTTL : Duration
  reclaimTTL : Duration
  maxBufferFrames : Int
  maxBufferBytes : Int

structure Bucket (κ δ : Type) where
  id : String
  peers : Slot → Option (Peer κ)
  created : Time
  lastSeen : Time
  buffer : List (BufferedFrame δ)
  creatorIP : String
  bytesRelayed : Int

/-- A pointer to a bucket. -/
abbrev Ref := Nat

structure Registry (κ δ : Type) where
  cfg : Config
  heap : List (Bucket κ δ)
  m : InsertionMap String Ref

def newRegistry {κ δ : Type} (cfg : Config) : Registry κ δ where
  cfg :=
    { cfg with
      maxBufferFrames :=
        if cfg.maxBufferFrames ≤ 0 then 32 else cfg.maxBufferFrames
      maxBufferBytes :=
        if cfg.maxBufferBytes ≤ 0 then 16 * 2 ^ 20 else cfg.maxBufferBytes }
  heap := []
  m := .empty

variable {κ δ : Type}

/-! ## Seats -/

def peerSeatHeld (p : Peer κ) (now : Time) (reclaimTTL : Duration) : Bool :=
  if p.connected then true
  else
    match p.droppedAt with
    | none => false
    | some droppedAt => decide (now - droppedAt ≤ reclaimTTL)

def deviceSessionMatches (p : Peer κ) (deviceSessionID : String) : Bool :=
  if deviceSessionID = "" ∧ p.deviceSessionID = "" then true
  -- Legacy peer (no sid stored yet): allow reclaim and adopt the new sid.
  else if p.deviceSessionID = "" ∧ deviceSessionID ≠ "" then true
  else if deviceSessionID = "" ∨ p.deviceSessionID = "" then false
  else decide (p.deviceSessionID = deviceSessionID)

def isThirdPartyCredentialUse (p : Peer κ) (deviceSessionID : String) : Bool :=
  decide (p.deviceSessionID ≠ "" ∧ deviceSessionID ≠ "" ∧
    p.deviceSessionID ≠ deviceSessionID)

def Bucket.setPeer (b : Bucket κ δ) (slot : Slot) (p : Option (Peer κ)) :
    Bucket κ δ :=
  { b with peers := Function.update b.peers slot p }

/-- The seats whose occupant is connected. -/
def Bucket.connectedCount (b : Bucket κ δ) : Nat :=
  ([0, 1] : List Slot).countP fun slot =>
    (b.peers slot).any fun p => p.connected

/-- The connected peer conn of a slot, or nothing. -/
def Bucket.peerConn (b : Bucket κ δ) (slot : Slot) : Option κ :=
  match b.peers slot with
  | some p => if p.connected then p.conn else none
  | none => none

def Bucket.otherConn (b : Bucket κ δ) (slot : Slot) : Option κ :=
  b.peerConn slot.other

/-! ## Joining -/

structure JoinArgs (κ : Type) where
  id : String
  token : String
  deviceSessionID : String
  ip : String
  conn : κ

structure JoinResult where
  bucket : Ref
  slot : Slot
  created : Bool
  rejected : Bool
  reason : String
  deriving DecidableEq

/-- The peer record a join writes into a free seat. -/
def JoinArgs.peer (args : JoinArgs κ) (now : Time) : Peer κ where
  conn := some args.conn
  token := args.token
  deviceSessionID := args.deviceSessionID
  lastSeen := now
  ip := args.ip
  droppedAt := none
  connected := true

/-- The occupant's record after its own credentials took the seat over. -/
def JoinArgs.reclaim (args : JoinArgs κ) (p : Peer κ) (now : Time) : Peer κ :=
  { p with
    conn := some args.conn
    lastSeen := now
    droppedAt := none
    connected := true
    ip := args.ip
    deviceSessionID :=
      if args.deviceSessionID ≠ "" then args.deviceSessionID
      else p.deviceSessionID }

/-- Where the loop over the seats with the caller's token leaves a join. -/
inductive Scan (κ δ : Type) where
  | rejected (b : Bucket κ δ)
  | seated (b : Bucket κ δ) (slot : Slot)
  | unseated (b : Bucket κ δ)

/-- Reclaim an existing slot by token (and device session when present). -/
def reclaimScan (cfg : Config) (now : Time) (args : JoinArgs κ) :
    List Slot → Bucket κ δ → Scan κ δ
  | [], b => .unseated b
  | i :: slots, b =>
      match b.peers i with
      | none => reclaimScan cfg now args slots b
      | some p =>
          if p.token ≠ args.token then reclaimScan cfg now args slots b
          else if isThirdPartyCredentialUse p args.deviceSessionID &&
              peerSeatHeld p now cfg.reclaimTTL then
            .rejected b
          else if deviceSessionMatches p args.deviceSessionID &&
              p.connected then
            .seated (b.setPeer i (some (args.reclaim p now))) i
          else if deviceSessionMatches p args.deviceSessionID &&
              p.droppedAt.any
                (fun droppedAt => now - droppedAt ≤ cfg.reclaimTTL) then
            .seated (b.setPeer i (some (args.reclaim p now))) i
          else if !p.connected && !peerSeatHeld p now cfg.reclaimTTL then
            reclaimScan cfg now args slots (b.setPeer i none)
          else reclaimScan cfg now args slots b

/-- Take the first seat that is empty or whose reclaim window has passed. -/
def freeScan (cfg : Config) (now : Time) (args : JoinArgs κ) :
    List Slot → Bucket κ δ → Bucket κ δ × Option Slot
  | [], b => (b, none)
  | i :: slots, b =>
      match b.peers i with
      | none => (b.setPeer i (some (args.peer now)), some i)
      | some p =>
          if !p.connected && !peerSeatHeld p now cfg.reclaimTTL then
            (b.setPeer i (some (args.peer now)), some i)
          else freeScan cfg now args slots b

/-- The section of `Join` under the mutex of an existing bucket.  The slot is
absent when the join is rejected. -/
def Bucket.join (cfg : Config) (now : Time) (args : JoinArgs κ)
    (b : Bucket κ δ) : Bucket κ δ × Option Slot :=
  let b := { b with lastSeen := now }
  match if args.token ≠ "" then reclaimScan cfg now args [0, 1] b
    else .unseated b with
  | .rejected b => (b, none)
  | .seated b slot => (b, some slot)
  | .unseated b => freeScan cfg now args [0, 1] b

namespace Registry

def setBucket (r : Registry κ δ) (ref : Ref) (b : Bucket κ δ) :
    Registry κ δ :=
  { r with heap := r.heap.set ref b }

/-- The bucket the map holds under an id. -/
def bucket? (r : Registry κ δ) (id : String) : Option (Bucket κ δ) :=
  (r.m.get? id).bind fun ref => r.heap[ref]?

def get (r : Registry κ δ) (id : String) : Option Ref :=
  r.m.get? id

/-- The section of `Join` under the registry mutex: find the bucket or publish
a new, still unoccupied one. -/
def joinEnter (r : Registry κ δ) (now : Time) (args : JoinArgs κ) :
    Registry κ δ × Ref × Bool :=
  match r.m.get? args.id with
  | some ref => (r, ref, false)
  | none =>
      let b : Bucket κ δ :=
        { id := args.id
          peers := fun _ => none
          created := now
          lastSeen := now
          buffer := []
          creatorIP := args.ip
          bytesRelayed := 0 }
      ({ r with
          heap := r.heap ++ [b]
          m := r.m.set args.id r.heap.length }, r.heap.length, true)

/-- The creator's section under the mutex of the bucket it published. -/
def joinCreate (r : Registry κ δ) (now : Time) (args : JoinArgs κ)
    (ref : Ref) : Registry κ δ × JoinResult :=
  ({ r with
      heap := r.heap.modify ref fun b => b.setPeer 0 (some (args.peer now)) },
    { bucket := ref, slot := 0, created := true, rejected := false
      reason := "" })

/-- The answer of a join to an existing bucket. -/
def attachResult (ref : Ref) : Option Slot → JoinResult
  | none =>
      { bucket := ref, slot := 0, created := false, rejected := true
        reason := "full" }
  | some slot =>
      { bucket := ref, slot := slot, created := false, rejected := false
        reason := "" }

/-- The section under the mutex of a bucket that was already registered. -/
def joinAttach (r : Registry κ δ) (now : Time) (args : JoinArgs κ)
    (ref : Ref) : Registry κ δ × JoinResult :=
  match r.heap[ref]? with
  | none => (r, attachResult ref none)
  | some b =>
      let joined := b.join r.cfg now args
      (r.setBucket ref joined.1, attachResult ref joined.2)

/-- `Join` with nothing in between its two sections. -/
def join (r : Registry κ δ) (now : Time) (args : JoinArgs κ) :
    Registry κ δ × JoinResult :=
  match r.joinEnter now args with
  | (r', ref, true) => r'.joinCreate now args ref
  | (r', ref, false) => r'.joinAttach now args ref

end Registry

/-! ## Leaving -/

/-- No connected seat and no seat inside its reclaim window. -/
def shouldDeleteLocked (cfg : Config) (b : Bucket κ δ) (now : Time) : Bool :=
  if b.connectedCount = 0 then
    !([0, 1] : List Slot).any fun slot =>
      (b.peers slot).any fun p =>
        p.droppedAt.any fun droppedAt => now - droppedAt ≤ cfg.reclaimTTL
  else false

structure LeaveResult (κ : Type) where
  deleteBucket : Bool
  otherConn : Option κ
  otherSlot : Option Slot

/-- Mark the occupant of a seat as disconnected. -/
def Bucket.markLeft (b : Bucket κ δ) (slot : Slot) (p : Peer κ)
    (now : Time) : Bucket κ δ :=
  { b with lastSeen := now }.setPeer slot
    (some { p with
      connected := false
      droppedAt := some now
      conn := none
      lastSeen := now })

namespace Registry

def seatOccupied (r : Registry κ δ) (ref : Ref) (slot : Slot) : Bool :=
  r.heap[ref]?.any fun b => (b.peers slot).isSome

/-- The section of `Leave` under the bucket mutex, with the nested section
under the registry mutex that deletes the map entry of the id. -/
def leaveSection (r : Registry κ δ) (now : Time) (id : String) (slot : Slot)
    (ref : Ref) : Registry κ δ × LeaveResult κ :=
  match r.heap[ref]? with
  | none => (r, ⟨true, none, none⟩)
  | some b =>
      match b.peers slot with
      | none => (r, ⟨shouldDeleteLocked r.cfg b now, none, none⟩)
      | some p =>
          let b' := b.markLeft slot p now
          let r' := r.setBucket ref b'
          let occupied := (b'.peers slot.other).any fun q => q.connected
          let otherConn :=
            if occupied then (b'.peers slot.other).bind fun q => q.conn
            else none
          let otherSlot := if occupied then some slot.other else none
          if shouldDeleteLocked r.cfg b' now then
            ({ r' with m := r'.m.erase id }, ⟨true, otherConn, otherSlot⟩)
          else (r', ⟨false, otherConn, otherSlot⟩)

/-- `Leave` with nothing in between its two sections. -/
def leave (r : Registry κ δ) (now : Time) (id : String) (slot : Slot) :
    Registry κ δ × LeaveResult κ :=
  match r.m.get? id with
  | none => (r, ⟨true, none, none⟩)
  | some ref => r.leaveSection now id slot ref

end Registry

/-! ## The offline buffer -/

def bufferBytes [Payload δ] (frames : List (BufferedFrame δ)) : Nat :=
  (frames.map fun f => Payload.len f.data).sum

def pruneBuffer (now : Time) (frames : List (BufferedFrame δ)) :
    List (BufferedFrame δ) :=
  frames.filter fun f => now < f.expiresAt

/-- Drop the oldest frames until one more of `size` bytes fits both caps. -/
def evict [Payload δ] (cfg : Config) (size : Nat) :
    List (BufferedFrame δ) → List (BufferedFrame δ)
  | [] => []
  | f :: frames =>
      if ((f :: frames).length : Int) ≥ cfg.maxBufferFrames ∨
          (bufferBytes (f :: frames) + size : Int) > cfg.maxBufferBytes then
        evict cfg size frames
      else f :: frames

/-- Buffer a frame if the other seat is offline; `false` tells the caller to
send it live. -/
def Bucket.bufferIfAlone [Payload δ] (cfg : Config) (now : Time)
    (b : Bucket κ δ) (fromSlot : Slot) (data : δ) (binary : Bool) :
    Bucket κ δ × Bool :=
  if (b.peers fromSlot.other).any fun p => p.connected then (b, false)
  else
    let kept := evict cfg (Payload.len data) (pruneBuffer now b.buffer)
    if (Payload.len data : Int) > cfg.maxBufferBytes then
      -- A single frame over the byte cap is not buffered.
      ({ b with buffer := kept }, true)
    else
      ({ b with
          buffer := kept ++
            [{ data := data, binary := binary
               expiresAt := now + cfg.bufferTTL }] }, true)

def Bucket.drainBuffer (now : Time) (b : Bucket κ δ) :
    Bucket κ δ × List (BufferedFrame δ) :=
  ({ b with buffer := [] }, pruneBuffer now b.buffer)

/-! ## Activity -/

def Bucket.touch (now : Time) (b : Bucket κ δ) : Bucket κ δ :=
  { b with
    lastSeen := now
    peers := fun slot =>
      (b.peers slot).map fun p =>
        if p.connected then { p with lastSeen := now } else p }

/-- Add to the lifetime byte counter and return the new total.  The counter is
an `int64` of Go, which this one follows as long as fewer than 2 ^ 63 bytes
have been counted. -/
def Bucket.recordBytes (n : Nat) (b : Bucket κ δ) : Bucket κ δ × Int :=
  ({ b with bytesRelayed := b.bytesRelayed + n }, b.bytesRelayed + n)

def Bucket.age (now : Time) (b : Bucket κ δ) : Duration :=
  now - b.created

/-! ## Sweeping -/

/-- The verdict of one pass over one bucket. -/
def sweepVerdict (cfg : Config) (now : Time) (b : Bucket κ δ) : Bool :=
  let idle : Bool := now - b.lastSeen ≥ cfg.idleTTL
  let unconnected : Bool := b.connectedCount = 0
  let reclaimHold := unconnected &&
    ([0, 1] : List Slot).any fun slot =>
      (b.peers slot).any fun p =>
        p.droppedAt.any fun droppedAt => now - droppedAt ≤ cfg.reclaimTTL
  (unconnected && !reclaimHold) || (idle && unconnected)

namespace Registry

/-- Sweep the buckets registered under some ids; the creators of the removed
buckets are returned for rate-limit release. -/
def sweepKeys (r : Registry κ δ) (now : Time) :
    List String → Registry κ δ × List String
  | [] => (r, [])
  | id :: ids =>
      match r.bucket? id with
      | none => r.sweepKeys now ids
      | some b =>
          if sweepVerdict r.cfg now b then
            let (r', creators) :=
              ({ r with m := r.m.erase id } : Registry κ δ).sweepKeys now ids
            (r', if b.creatorIP ≠ "" then b.creatorIP :: creators
              else creators)
          else r.sweepKeys now ids

def sweepIdle (r : Registry κ δ) (now : Time) : Registry κ δ × List String :=
  r.sweepKeys now r.m.keys

def creatorIP (r : Registry κ δ) (id : String) : String :=
  ((r.bucket? id).map Bucket.creatorIP).getD ""

end Registry

/-! ## A room -/

def roomConfig : Config where
  idleTTL := 60
  bufferTTL := 60
  reclaimTTL := 60
  maxBufferFrames := 32
  maxBufferBytes := 4096

/-- Somebody joining the room over a given connection. -/
def roomJoin (token conn : String) : JoinArgs String where
  id := "room"
  token := token
  deviceSessionID := ""
  ip := "192.0.2.1"
  conn := conn

end Byteln.Server

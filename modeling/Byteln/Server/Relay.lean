import Byteln.Server.Calls
import Byteln.Server.Limiter

/-!
# The relay

The goroutines around the registry: `handleConn` for a new connection,
`readPeer` and the write loop of a `Peer`, `dropPeer`, the poller's callback,
the sweep loop and `Shutdown`.  Each mutex-protected section, atomic flag
operation and channel operation is one step, and a call of one of these
functions by another pushes an activation on the caller's stack.

HTTP parsing ends where the model starts: a `Request` is what `handleConn` has
read off the upgrade request when it first looks at the registry.  The outcome
of network I/O, of the per-connection throughput limiter and of the worker
pool's admission comes from the oracle.
-/

namespace Byteln.Server.Relay

open Byteln.Library

/-- A pointer to a `Peer`. -/
abbrev PeerRef := Nat

/-- An application frame.  `sender` is not part of the frame: it records the
peer the frame was read from. -/
structure Frame where
  data : List UInt8
  sender : PeerRef
  deriving DecidableEq

instance : Payload Frame where
  len := fun frame => frame.data.length

inductive Control where
  | peerJoin
  | peerLeave
  | slot (n : Slot)
  | pong
  deriving DecidableEq

inductive Outbound where
  | control (c : Control)
  | data (frame : Frame) (binary : Bool)
  /-- The relay's answer to a WebSocket ping. -/
  | pong (data : List UInt8)
  deriving DecidableEq

/-- A connection.  `slot` is unset until `SetSlot`, where Go has a zero. -/
structure Peer where
  bucket : String
  token : String
  ip : String
  slot : Option Slot
  desc : Bool
  /-- The poller delivers events for the descriptor. -/
  polled : Bool
  sendCh : List Outbound
  writing : Bool
  reading : Bool
  readAgain : Bool
  closed : Bool
  /-- All that `sendCh` ever accepted, oldest first; no code reads it. -/
  queued : List Outbound

def sendChCap : Nat := 64

/-- The zero value of a `Peer`. -/
def Peer.zero : Peer where
  bucket := ""
  token := ""
  ip := ""
  slot := none
  desc := false
  polled := false
  sendCh := []
  writing := false
  reading := false
  readAgain := false
  closed := false
  queued := []

/-- The slot as Go reads it. -/
def Peer.slotIndex (p : Peer) : Slot :=
  p.slot.getD 0

structure Limits where
  maxFrameBytes : Int
  maxBucketLifetimeBytes : Int
  maxBucketLifetime : Duration

/-- Closing the poller refuses further registrations first; its loop delivers
what it has collected before it ends. -/
inductive Poller where
  | running
  | closing
  | closed
  deriving DecidableEq

structure State where
  cfg : Limits
  calls : Shared PeerRef Frame
  limit : Limiter
  poller : Poller
  peers : PeerRef → Peer
  allocated : PeerRef
  /-- The server's own set of peers. -/
  live : List PeerRef

structure Request where
  bucketID : String
  token : String
  deviceSessionID : String
  ip : String

/-- How one `readClientFrame` ends. -/
inductive ReadOutcome where
  | timeout
  /-- End of file, or an error that says "closed". -/
  | hangup
  | failed
  | close
  | ping (data : List UInt8)
  /-- A text frame that parses as a control message of type ping. -/
  | ctrlPing
  | frame (data : List UInt8) (binary : Bool)

/-- `ok` is the outcome of the I/O call, limiter or admission of a step. -/
structure Oracle extends Server.Oracle where
  ok : Bool
  read : ReadOutcome

inductive HandleConn where
  | get (req : Request)
  | allowCreate (req : Request)
  | tryAcquire (req : Request)
  | upgrade (req : Request) (existed : Bool)
  | join (req : Request) (existed : Bool) (p : PeerRef)
      (call : JoinCall PeerRef)
  | list (p : PeerRef) (b : Ref) (slot : Slot)
  | drain (p : PeerRef) (b : Ref)
  | handleRead (p : PeerRef)
  | start (p : PeerRef)
  | done (p : PeerRef)

inductive DropPeer where
  | swap (p : PeerRef)
  | creatorIP (p : PeerRef)
  | teardown (p : PeerRef) (ip : String)
  | unlist (p : PeerRef) (ip : String)
  | leave (p : PeerRef) (ip : String) (call : LeaveCall PeerRef)

inductive ReadPeer where
  | enter (p : PeerRef)
  | swap (p : PeerRef)
  | again (p : PeerRef)
  | loop (p : PeerRef)
  | clear (p : PeerRef)
  | readFrame (p : PeerRef)
  | ping (p : PeerRef) (answer : Outbound)
  | handle (p : PeerRef) (data : List UInt8) (binary : Bool)
  | get (p : PeerRef) (data : List UInt8) (binary : Bool) (now : Time)
  | record (p : PeerRef) (b : Ref) (data : List UInt8) (binary : Bool)
      (now : Time)
  | age (p : PeerRef) (b : Ref) (data : List UInt8) (binary : Bool)
      (now : Time)
  | bufferIfAlone (p : PeerRef) (b : Ref) (data : List UInt8) (binary : Bool)
  | otherConn (p : PeerRef) (b : Ref) (data : List UInt8) (binary : Bool)
  | idle (p : PeerRef)
  | done (p : PeerRef)

inductive WriteLoop where
  | loop (p : PeerRef)
  | drain (p : PeerRef)
  | check (p : PeerRef)
  | done (p : PeerRef)

inductive Act where
  | handleConn (call : HandleConn)
  | dropPeer (call : DropPeer)
  | readPeer (call : ReadPeer)
  | writeLoop (call : WriteLoop)
  /-- The poller's callback. -/
  | event (p : PeerRef) (hup : Bool)
  | sweep (call : SweepCall)
  | shutdown
  | closePoller
  | stopPoller
  | releaseBucket (ip : String)
  | touch (b : Ref)
  | notifyPeerPresence (b : Ref)
  /-- Tell the peer in a seat that both are there. -/
  | notifySeat (b : Ref) (slot : Slot)
  /-- Close the connection in a seat. -/
  | closeSeat (b : Ref) (slot : Slot)
  | enqueue (p : PeerRef) (out : Outbound)
  | send (p : PeerRef) (out : Outbound)
  | ensureWriter (p : PeerRef)

namespace State

def modifyPeer (s : State) (p : PeerRef) (f : Peer → Peer) : State :=
  { s with peers := Function.update s.peers p (f (s.peers p)) }

def setBucket (s : State) (ref : Ref) (b : Bucket PeerRef Frame) : State :=
  { s with calls := { s.calls with reg := s.calls.reg.setBucket ref b } }

def bucket? (s : State) (ref : Ref) : Option (Bucket PeerRef Frame) :=
  s.calls.reg.heap[ref]?

end State

def Request.joinArgs (req : Request) (p : PeerRef) : JoinArgs PeerRef where
  id := req.bucketID
  token := req.token
  deviceSessionID := req.deviceSessionID
  ip := req.ip
  conn := p

/-- Close a connection that did not get into its bucket; give its quota back
if it had taken any. -/
def refuse (req : Request) (existed : Bool) : List Act :=
  if existed then [] else [.releaseBucket req.ip]

def HandleConn.next (oracle : Oracle) (s : State) :
    HandleConn → Option (State × List Act)
  | .get req =>
      if s.calls.sweeping then none
      else
        match s.calls.reg.get req.bucketID with
        | some _ => some (s, [.handleConn (.upgrade req true)])
        | none => some (s, [.handleConn (.allowCreate req)])
  | .allowCreate req =>
      let (limit, allowed) := s.limit.allowCreate oracle.now req.ip
      some ({ s with limit := limit },
        if allowed then [.handleConn (.tryAcquire req)] else [])
  | .tryAcquire req =>
      let (limit, granted) := s.limit.tryAcquireBucket req.ip
      some ({ s with limit := limit },
        if granted then [.handleConn (.upgrade req false)] else [])
  | .upgrade req existed =>
      if oracle.ok then
        let p := s.allocated
        some ({ s with
            peers := Function.update s.peers p
              { Peer.zero with
                bucket := req.bucketID, token := req.token, ip := req.ip }
            allocated := p + 1 },
          [.handleConn (.join req existed p (.enter (req.joinArgs p)))])
      else some (s, refuse req existed)
  | .join req existed p call =>
      match call.next oracle.toOracle s.calls with
      | none => none
      | some (calls, .returned _ result) =>
          if result.rejected then
            some ({ s with calls := calls }, refuse req existed)
          else
            some ({ s with calls := calls }.modifyPeer p
                fun peer => { peer with slot := some result.slot },
              [.handleConn (.list p result.bucket result.slot)])
      | some (calls, call) =>
          some ({ s with calls := calls },
            [.handleConn (.join req existed p call)])
  | .list p b slot =>
      some ({ s with live := p :: s.live },
        [.enqueue p (.control (.slot slot)), .notifyPeerPresence b,
          .handleConn (.drain p b)])
  | .drain p b =>
      match s.bucket? b with
      | none => none
      | some bucket =>
          let (bucket, frames) := bucket.drainBuffer oracle.now
          some (s.setBucket b bucket,
            (frames.map fun f => .enqueue p (.data f.data f.binary)) ++
              [.handleConn (.handleRead p)])
  | .handleRead p =>
      some (s, if oracle.ok then [.handleConn (.start p)]
        else [.dropPeer (.swap p), .handleConn (.done p)])
  | .start p =>
      if (s.peers p).closed then some (s, [])
      else
        -- a poller that is being closed refuses the descriptor
        let registered := oracle.ok && s.poller = .running
        some (s.modifyPeer p fun peer =>
            { peer with desc := true, polled := registered },
          if registered then []
          else [.dropPeer (.swap p), .handleConn (.done p)])
  | .done _ => some (s, [])

/-- Tell the other seat, and give a unit back if the bucket was deleted. -/
def afterLeave (ip : String) (result : LeaveResult PeerRef) : List Act :=
  (match result.otherConn with
    | some other => [.enqueue other (.control .peerLeave)]
    | none => []) ++
  if result.deleteBucket ∧ ip ≠ "" then [.releaseBucket ip] else []

def DropPeer.next (oracle : Oracle) (s : State) :
    DropPeer → Option (State × List Act)
  | .swap p =>
      if (s.peers p).closed then some (s, [])
      else
        some (s.modifyPeer p fun peer => { peer with closed := true },
          [.dropPeer (.creatorIP p)])
  | .creatorIP p =>
      if s.calls.sweeping then none
      else
        some (s, [.dropPeer
          (.teardown p (s.calls.reg.creatorIP (s.peers p).bucket))])
  | .teardown p ip =>
      some (s.modifyPeer p fun peer =>
          { peer with desc := false, polled := false },
        [.dropPeer (.unlist p ip)])
  | .unlist p ip =>
      some ({ s with live := s.live.filter fun q => q ≠ p },
        [.dropPeer (.leave p ip
          (.enter (s.peers p).bucket (s.peers p).slotIndex))])
  | .leave p ip call =>
      match call.next oracle.toOracle s.calls with
      | none => none
      | some (calls, .returned result) =>
          some ({ s with calls := calls }, afterLeave ip result)
      | some (calls, call) =>
          some ({ s with calls := calls }, [.dropPeer (.leave p ip call)])

/-- Close both seats of a bucket, then leave the reader. -/
def closeBucketPeers (p : PeerRef) (b : Ref) : List Act :=
  [.closeSeat b 0, .closeSeat b 1, .readPeer (.done p)]

def ReadPeer.next (oracle : Oracle) (s : State) :
    ReadPeer → Option (State × List Act)
  | .enter p =>
      some (s, if (s.peers p).closed then [] else [.readPeer (.swap p)])
  | .swap p =>
      if (s.peers p).reading then some (s, [.readPeer (.again p)])
      else
        some (s.modifyPeer p fun peer => { peer with reading := true },
          [.readPeer (.loop p)])
  | .again p =>
      some (s.modifyPeer p fun peer => { peer with readAgain := true }, [])
  | .loop p =>
      some (s, [.readPeer (if (s.peers p).closed then .done p else .clear p)])
  | .clear p =>
      some (s.modifyPeer p fun peer => { peer with readAgain := false },
        [.readPeer (.readFrame p)])
  | .readFrame p =>
      match oracle.read with
      | .timeout => some (s, [.readPeer (.idle p)])
      | .hangup => some (s, [.dropPeer (.swap p), .readPeer (.done p)])
      | .failed => some (s, [.readPeer (.done p)])
      | .close => some (s, [.dropPeer (.swap p), .readPeer (.done p)])
      | .ping data => some (s, [.readPeer (.ping p (.pong data))])
      | .ctrlPing => some (s, [.readPeer (.ping p (.control .pong))])
      | .frame data binary => some (s, [.readPeer (.handle p data binary)])
  | .ping p answer =>
      if s.calls.sweeping then none
      else
        some (s,
          (match s.calls.reg.get (s.peers p).bucket with
            | some b => [.touch b]
            | none => []) ++
          [.enqueue p answer, .readPeer (.readFrame p)])
  | .handle p data binary =>
      if (data.length : Int) > s.cfg.maxFrameBytes then
        some (s, [.readPeer (.readFrame p)])
      else if oracle.ok then
        some (s, [.readPeer (.get p data binary oracle.now)])
      else some (s, [.dropPeer (.swap p), .readPeer (.done p)])
  | .get p data binary now =>
      if s.calls.sweeping then none
      else
        match s.calls.reg.get (s.peers p).bucket with
        | none => some (s, [.dropPeer (.swap p), .readPeer (.done p)])
        | some b =>
            some (s, [.touch b, .readPeer (.record p b data binary now)])
  | .record p b data binary now =>
      if s.cfg.maxBucketLifetimeBytes > 0 then
        match s.bucket? b with
        | none => none
        | some bucket =>
            let (bucket, total) := bucket.recordBytes data.length
            some (s.setBucket b bucket,
              if total > s.cfg.maxBucketLifetimeBytes then
                closeBucketPeers p b
              else [.readPeer (.age p b data binary now)])
      else some (s, [.readPeer (.age p b data binary now)])
  | .age p b data binary now =>
      match s.bucket? b with
      | none => none
      | some bucket =>
          some (s,
            if s.cfg.maxBucketLifetime > 0 ∧
                bucket.age now > s.cfg.maxBucketLifetime then
              closeBucketPeers p b
            else [.readPeer (.bufferIfAlone p b data binary)])
  | .bufferIfAlone p b data binary =>
      match s.bucket? b with
      | none => none
      | some bucket =>
          let (bucket, buffered) := bucket.bufferIfAlone s.calls.reg.cfg
            oracle.now (s.peers p).slotIndex ⟨data, p⟩ binary
          some (s.setBucket b bucket,
            [.readPeer (if buffered then .readFrame p
              else .otherConn p b data binary)])
  | .otherConn p b data binary =>
      match s.bucket? b with
      | none => none
      | some bucket =>
          some (s,
            (match bucket.otherConn (s.peers p).slotIndex with
              | some other =>
                  [.enqueue other (.data ⟨data, p⟩ binary),
                    .enqueue p (.control .peerJoin)]
              | none => []) ++ [.readPeer (.readFrame p)])
  | .idle p =>
      some (s, [.readPeer (if (s.peers p).readAgain then .loop p
        else .done p)])
  | .done p =>
      some (s.modifyPeer p fun peer => { peer with reading := false }, [])

def WriteLoop.next (oracle : Oracle) (s : State) :
    WriteLoop → Option (State × List Act)
  | .loop p =>
      match (s.peers p).sendCh with
      | [] => some (s, [.writeLoop (.done p)])
      | _ :: rest =>
          some (s.modifyPeer p fun peer => { peer with sendCh := rest },
            if oracle.ok then [.writeLoop (.drain p)]
            else [.dropPeer (.swap p), .writeLoop (.done p)])
  | .drain p =>
      match (s.peers p).sendCh with
      | [] => some (s, [.writeLoop (.check p)])
      | _ :: rest =>
          some (s.modifyPeer p fun peer => { peer with sendCh := rest },
            if oracle.ok then [.writeLoop (.drain p)]
            else [.dropPeer (.swap p), .writeLoop (.done p)])
  | .check p =>
      some (s, [.writeLoop (if (s.peers p).sendCh.length = 0 then .done p
        else .loop p)])
  | .done p =>
      some (s.modifyPeer p fun peer => { peer with writing := false }, [])

def Act.next (oracle : Oracle) (act : Act) (s : State) :
    Option (State × List Act) :=
  match act with
  | .handleConn call => call.next oracle s
  | .dropPeer call => call.next oracle s
  | .readPeer call => call.next oracle s
  | .writeLoop call => call.next oracle s
  | .event p _ =>
      if (s.peers p).polled ∧ s.poller ≠ .closed then some (s, []) else none
  | .sweep call =>
      match call.next oracle.toOracle s.calls with
      | none => none
      | some (calls, .returned creators) =>
          some ({ s with calls := calls }, creators.map .releaseBucket)
      | some (calls, call) => some ({ s with calls := calls }, [.sweep call])
  | .shutdown =>
      some (s, (s.live.map fun p => .dropPeer (.swap p)) ++ [.closePoller])
  | .closePoller =>
      if s.poller = .running then
        some ({ s with poller := .closing }, [.stopPoller])
      else some (s, [])
  | .stopPoller => some ({ s with poller := .closed }, [])
  | .releaseBucket ip =>
      some ({ s with limit := s.limit.releaseBucket ip }, [])
  | .touch b =>
      match s.bucket? b with
      | none => none
      | some bucket => some (s.setBucket b (bucket.touch oracle.now), [])
  | .notifyPeerPresence b =>
      match s.bucket? b with
      | none => none
      | some bucket =>
          some (s, if bucket.connectedCount < 2 then []
            else [.notifySeat b 0, .notifySeat b 1])
  | .notifySeat b slot =>
      match s.bucket? b with
      | none => none
      | some bucket =>
          some (s, match bucket.peerConn slot with
            | some p => [.enqueue p (.control .peerJoin)]
            | none => [])
  | .closeSeat b slot =>
      match s.bucket? b with
      | none => none
      | some bucket =>
          some (s, match bucket.peerConn slot with
            | some p => [.dropPeer (.swap p)]
            | none => [])
  | .enqueue p out =>
      some (s, if (s.peers p).closed then [] else [.send p out])
  | .send p out =>
      if (s.peers p).sendCh.length < sendChCap then
        some (s.modifyPeer p fun peer =>
            { peer with
              sendCh := peer.sendCh ++ [out]
              queued := peer.queued ++ [out] }, [.ensureWriter p])
      else some (s, [])
  | .ensureWriter p =>
      some (s.modifyPeer p fun peer => { peer with writing := true }, [])

/-- The goroutines a step starts: a reader or a drop if the worker pool admits
it, and the write loop of a peer that has none. -/
def Act.forks (oracle : Oracle) (act : Act) (s : State) : List Act :=
  match act with
  | .event p hup =>
      if (s.peers p).closed ∨ ¬ oracle.ok then []
      else if hup then [.dropPeer (.swap p)]
      else [.readPeer (.enter p)]
  | .ensureWriter p =>
      if (s.peers p).writing then [] else [.writeLoop (.loop p)]
  | _ => []

/-- New connections, poller events, ticks of the sweep loop and a shutdown
come from outside. -/
def Act.Entry : Act → Prop
  | .handleConn (.get _) | .event _ _ | .sweep .enter | .shutdown => True
  | _ => False

def relay : Program State Act Oracle where
  next := Act.next
  forks := Act.forks
  entry := Act.Entry

/-- The server before its first connection. -/
def New (cfg : Limits) (buckets : Config) (createPerMin maxBuckets : Int) :
    State where
  cfg := cfg
  calls := ⟨newRegistry buckets, false⟩
  limit := .new createPerMin maxBuckets
  poller := .running
  peers := fun _ => .zero
  allocated := 0
  live := []

def Started (cfg : Limits) (buckets : Config) (createPerMin maxBuckets : Int)
    (pool : Pool State Act) : Prop :=
  pool = ⟨New cfg buckets createPerMin maxBuckets, []⟩

/-! ## A small server -/

def roomLimits : Limits where
  maxFrameBytes := 1024
  maxBucketLifetimeBytes := 4096
  maxBucketLifetime := 3600

/-- Somebody asking for the room. -/
def roomRequest (token ip : String) : Request where
  bucketID := "room"
  token := token
  deviceSessionID := ""
  ip := ip

/-- A new server with some requests and events waiting to be handled. -/
def busy (acts : List Act) : Pool State Act :=
  ⟨New roomLimits roomConfig 10 10, acts.map fun act => [act]⟩

/-- A step at some time in which all I/O succeeds. -/
def fine (now : Time) : Oracle where
  now := now
  order := ["room"]
  ok := true
  read := .timeout

/-- Somebody connects to the room. -/
def connects (token ip : String) : Program.Move Act Oracle :=
  .spawn (.handleConn (.get (roomRequest token ip)))

/-- A thread takes some steps in which all I/O succeeds. -/
def runs (position n : Nat) : List (Program.Move Act Oracle) :=
  List.replicate n (.run position (fine 0))

/-- A step in which a frame arrives. -/
def arriving (data : List UInt8) : Oracle :=
  { fine 0 with read := .frame data true }

/-- A thread takes a step in which a frame arrives. -/
def reads (position : Nat) (data : List UInt8) :
    List (Program.Move Act Oracle) :=
  [.run position (arriving data)]

/-- The poller starts a callback for a peer. -/
def polls (p : PeerRef) (hup : Bool) : Program.Move Act Oracle :=
  .spawn (.event p hup)

/-- A schedule starts from outside only what comes from there. -/
def fromOutside : Program.Move Act Oracle → Bool
  | .spawn (.handleConn (.get _)) | .spawn (.event _ _)
  | .spawn (.sweep .enter) | .spawn .shutdown | .run _ _ => true
  | _ => false

theorem entry_of_fromOutside {moves : List (Program.Move Act Oracle)}
    (outside : moves.all fromOutside = true) (act : Act)
    (member : .spawn act ∈ moves) : act.Entry := by
  have entry := List.all_eq_true.mp outside _ member
  cases act with
  | handleConn call =>
      cases call with
      | get => trivial
      | _ => cases entry
  | sweep call =>
      cases call with
      | enter => trivial
      | _ => cases entry
  | event | shutdown => trivial
  | _ => cases entry

theorem played_run {moves : List (Program.Move Act Oracle)}
    {trace : List (Pool State Act × PoolLabel Act Oracle)}
    {pool : Pool State Act}
    (played : relay.play ⟨New roomLimits roomConfig 10 10, []⟩ moves =
      some (trace, pool)) (outside : moves.all fromOutside = true) :
    (relay.system (Started roomLimits roomConfig 10 10)).Run
      ⟨New roomLimits roomConfig 10 10, []⟩ trace pool :=
  Program.play_run (entry_of_fromOutside outside) played

/-- The schedule is a run whose steps all pass a test of the condition. -/
theorem played_restrict
    {condition : Pool State Act → PoolLabel Act Oracle → Prop}
    {test : Pool State Act × PoolLabel Act Oracle → Bool}
    (sound : ∀ pool label, test (pool, label) = true → condition pool label)
    {moves : List (Program.Move Act Oracle)}
    {trace : List (Pool State Act × PoolLabel Act Oracle)}
    {pool : Pool State Act}
    (played : relay.play ⟨New roomLimits roomConfig 10 10, []⟩ moves =
      some (trace, pool)) (outside : moves.all fromOutside = true)
    (tested : trace.all test = true) :
    ((relay.system (Started roomLimits roomConfig 10 10)).restrict
      condition).Run ⟨New roomLimits roomConfig 10 10, []⟩ trace pool :=
  Lts.run_restrict_iff.mpr ⟨played_run played outside, fun entry member =>
    sound entry.1 entry.2 (List.all_eq_true.mp tested entry member)⟩

theorem busy_reachable {acts : List Act} (entries : ∀ act ∈ acts, act.Entry) :
    (relay.system (Started roomLimits roomConfig 10 10)).Reachable
      (busy acts) := by
  have started : (relay.system (Started roomLimits roomConfig 10 10)).Reachable
      ⟨New roomLimits roomConfig 10 10, []⟩ := .start rfl
  exact Program.spawnAll_reachable started acts entries

end Byteln.Server.Relay

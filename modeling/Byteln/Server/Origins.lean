import Byteln.Server.Joining
import Byteln.Server.RelaySteps

/-!
# Where connections and frames come from

Which join put a connection into a seat, which reader put a frame into a
buffer, and what the activations of the relay know about the slots of the
peers they work for.  `Origins` collects what holds of a whole pool.
-/

namespace Byteln.Server.Relay

open Byteln.Library

/-! ## Origins of connections and buffered frames -/

/-- A seat found after a section was there before, has just been reported by
its join, or was marked by a leave. -/
theorem seat_origin {oracle : Server.Oracle} {call call' : Call PeerRef}
    {shared shared' : Shared PeerRef Frame}
    (step : CallStep oracle shared call shared' call') {ref : Ref}
    {b' : Bucket PeerRef Frame} {slot : Slot} {q' : Server.Peer PeerRef}
    (found : shared'.reg.heap[ref]? = some b')
    (occupied : b'.peers slot = some q') :
    (∃ b, shared.reg.heap[ref]? = some b ∧ b.peers slot = some q') ∨
      (∃ args result, call' = .join (.returned args result) ∧
        q'.conn = some args.conn ∧ result.outcome ref = some slot) ∨
      (q'.connected = false ∧ q'.conn = none) := by
  cases step with
  | joinFound | leaveMissing | leaveFound | sweepEnter | sweepEnd
  | sweepKeep | sweepCondemn | sweepDelete => exact .inl ⟨b', found, occupied⟩
  | @joinPublish args b _ _ _ _ _ vacant =>
      rw [List.getElem?_append] at found
      split at found
      · exact .inl ⟨b', found, occupied⟩
      · have published := List.mem_singleton.mp (List.mem_of_getElem? found)
        rw [published, vacant] at occupied
        cases occupied
  | @joinCreate args now target =>
      simp only [Registry.joinCreate, List.getElem?_modify] at found
      obtain ⟨b, before, rfl⟩ := Option.map_eq_some_iff.mp found
      split at occupied
      · rename_i here
        by_cases first : slot = 0
        · subst slot
          rw [setPeer_peers_self] at occupied
          obtain rfl := Option.some.inj occupied
          exact .inr (.inl ⟨args, _, rfl, rfl, if_pos ⟨here, rfl⟩⟩)
        · rw [setPeer_peers_of_ne _ _ first] at occupied
          exact .inl ⟨b, before, occupied⟩
      · exact .inl ⟨b, before, occupied⟩
  | @joinAttach args now target =>
      have sameLength : (shared.reg.joinAttach now args target).1.heap.length =
          shared.reg.heap.length := by
        unfold Registry.joinAttach
        split <;> simp [Registry.setBucket]
      obtain ⟨inBounds, -⟩ := List.getElem?_eq_some_iff.mp found
      rw [sameLength] at inBounds
      obtain ⟨c, cFound, seats⟩ := shared.reg.joinAttach_heap now args target
        ref (List.getElem?_eq_getElem inBounds)
      obtain rfl : b' = c := by simpa [found] using cFound
      have change := seats slot
      rw [occupied] at change
      generalize beforeEq : (shared.reg.heap[ref]).peers slot = before at change
      cases change with
      | kept => exact .inl ⟨_, List.getElem?_eq_getElem inBounds, beforeEq⟩
      | reclaimed here | taken here =>
          exact .inr (.inl ⟨args, _, rfl, rfl, here⟩)
  | @leaveMark id left target =>
      rcases shared.reg.leaveSection_cases oracle.now id left target with
        ⟨_, unchanged⟩ | ⟨b, p, before, _, _, heapEq, _⟩
      · rw [unchanged] at found
        exact .inl ⟨b', found, occupied⟩
      · simp only [heapEq, List.getElem?_set] at found
        split at found
        · split at found
          · rename_i same _
            subst same
            obtain rfl := Option.some.inj found
            by_cases sameSlot : slot = left
            · subst left
              rw [Bucket.markLeft, setPeer_peers_self] at occupied
              obtain rfl := Option.some.inj occupied
              exact .inr (.inr ⟨rfl, rfl⟩)
            · rw [Bucket.markLeft, setPeer_peers_of_ne _ _ sameSlot]
                at occupied
              exact .inl ⟨b, before, occupied⟩
          · cases found
        · exact .inl ⟨b', found, occupied⟩

/-- Registry calls put nothing into a buffer. -/
theorem buffer_origin {oracle : Server.Oracle} {call call' : Call PeerRef}
    {shared shared' : Shared PeerRef Frame}
    (step : CallStep oracle shared call shared' call') {ref : Ref}
    {b' : Bucket PeerRef Frame} {f : BufferedFrame Frame}
    (found : shared'.reg.heap[ref]? = some b') (member : f ∈ b'.buffer) :
    ∃ b, shared.reg.heap[ref]? = some b ∧ f ∈ b.buffer := by
  cases step with
  | joinFound | leaveMissing | leaveFound | sweepEnter | sweepEnd
  | sweepKeep | sweepCondemn | sweepDelete => exact ⟨b', found, member⟩
  | @joinPublish args b _ _ _ _ noFrames _ =>
      rw [List.getElem?_append] at found
      split at found
      · exact ⟨b', found, member⟩
      · have published := List.mem_singleton.mp (List.mem_of_getElem? found)
        simp [published, noFrames] at member
  | @joinCreate args now target =>
      simp only [Registry.joinCreate, List.getElem?_modify] at found
      obtain ⟨b, before, rfl⟩ := Option.map_eq_some_iff.mp found
      refine ⟨b, before, ?_⟩
      split at member <;> exact member
  | @joinAttach args now target =>
      unfold Registry.joinAttach at found
      split at found
      · exact ⟨b', found, member⟩
      · rename_i b before
        simp only [Registry.setBucket, List.getElem?_set] at found
        split at found
        · split at found
          · rename_i same _
            subst same
            obtain rfl := Option.some.inj found
            obtain ⟨peers, frame⟩ := join_frame shared.reg.cfg now args b
            rw [frame] at member
            exact ⟨b, before, member⟩
          · simp at found
        · exact ⟨b', found, member⟩
  | @leaveMark id left target =>
      rcases shared.reg.leaveSection_cases oracle.now id left target with
        ⟨_, unchanged⟩ | ⟨b, p, before, _, _, heapEq, _⟩
      · rw [unchanged] at found
        exact ⟨b', found, member⟩
      · simp only [heapEq, List.getElem?_set] at found
        split at found
        · split at found
          · rename_i same _
            subst same
            obtain rfl := Option.some.inj found
            exact ⟨b, before, member⟩
          · simp at found
        · exact ⟨b', found, member⟩

/-- A bucket section leaves every occupant its connection. -/
theorem Poke.origin {oracle : Server.Oracle} {s : State} {act : Act}
    {ref : Ref} {b b' : Bucket PeerRef Frame}
    (poke : Poke oracle s b act ref b') {slot : Slot}
    {q' : Server.Peer PeerRef} (occupied : b'.peers slot = some q') :
    ∃ q, b.peers slot = some q ∧ q.conn = q'.conn ∧
      q.connected = q'.connected := by
  cases poke with
  | touch =>
      obtain ⟨q, before, rfl⟩ := Option.map_eq_some_iff.mp occupied
      refine ⟨q, before, ?_⟩
      split <;> exact ⟨rfl, rfl⟩
  | record | drain => exact ⟨q', occupied, rfl, rfl⟩
  | buffer =>
      refine ⟨q', ?_, rfl, rfl⟩
      unfold Bucket.bufferIfAlone at occupied
      split_ifs at occupied <;> exact occupied

theorem mem_evict {cfg : Config} {size : Nat} {f : BufferedFrame Frame}
    {frames : List (BufferedFrame Frame)} (member : f ∈ evict cfg size frames) :
    f ∈ frames := by
  induction frames with
  | nil => simp [evict] at member
  | cons first frames induction =>
      unfold evict at member
      split at member
      · exact List.mem_cons_of_mem first (induction member)
      · exact member

theorem Poke.mem_buffer {oracle : Server.Oracle} {s : State} {act : Act}
    {ref : Ref} {b b' : Bucket PeerRef Frame}
    (poke : Poke oracle s b act ref b') {f : BufferedFrame Frame}
    (member : f ∈ b'.buffer) :
    f ∈ b.buffer ∨ ∃ data binary,
      act = .readPeer (.bufferIfAlone f.data.sender ref data binary) := by
  cases poke with
  | touch | record => exact .inl member
  | drain => simp [Bucket.drainBuffer] at member
  | @buffer p ref data binary =>
      unfold Bucket.bufferIfAlone at member
      split_ifs at member
      · exact .inl member
      · exact .inl (List.mem_of_mem_filter (mem_evict member))
      · rcases List.mem_append.mp member with kept | added
        · exact .inl (List.mem_of_mem_filter (mem_evict kept))
        · obtain rfl := List.mem_singleton.mp added
          exact .inr ⟨data, binary, rfl⟩

/-! ## Origins across a step -/

/-- The join an activation is in has just returned with a seat for its
connection. -/
inductive SeatReturned (oracle : Server.Oracle) (s s' : State) :
    Act → Ref → Slot → PeerRef → Prop where
  | join {req : Request} {existed : Bool} {p : PeerRef}
      {call : JoinCall PeerRef} {result : JoinResult} :
      CallStep oracle s.calls (.join call) s'.calls
        (.join (.returned call.args result)) →
      result.rejected = false →
      (s'.peers p).slot = some result.slot →
      SeatReturned oracle s s' (.handleConn (.join req existed p call))
        result.bucket result.slot call.args.conn

section Step

variable {oracle : Oracle} {s s' : State} {act : Act} {acts : List Act}
  {ref : Ref} {b' : Bucket PeerRef Frame} {slot : Slot}
  {q' : Server.Peer PeerRef}

/-- A section in a bucket changes that bucket only. -/
theorem State.bucket?_of_setBucket {target : Ref}
    {c' : Bucket PeerRef Frame}
    (callsEq : s'.calls = (s.setBucket target c').calls)
    (found : s'.bucket? ref = some b') :
    target = ref ∧ c' = b' ∨ s.bucket? ref = some b' := by
  simp only [State.bucket?, callsEq, State.setBucket, Registry.setBucket,
    List.getElem?_set] at found
  split at found
  · split at found
    · rename_i same _
      exact .inl ⟨same, Option.some.inj found⟩
    · cases found
  · exact .inr found

/-- An occupant found after a step was in its seat before, has just been
seated, or was marked by a leave. -/
theorem Act.seat_origin (next : act.next oracle s = some (s', acts))
    (found : s'.bucket? ref = some b') (occupied : b'.peers slot = some q') :
    (∃ b q, s.bucket? ref = some b ∧ b.peers slot = some q ∧
      q.conn = q'.conn ∧ q.connected = q'.connected) ∨
    (∃ conn, q'.conn = some conn ∧
      SeatReturned oracle.toOracle s s' act ref slot conn) ∨
    (q'.connected = false ∧ q'.conn = none) := by
  cases act.next_registry next with
  | quiet _ same =>
      rw [State.bucket?, same] at found
      exact .inl ⟨b', q', found, occupied, rfl, rfl⟩
  | poke cFound poke callsEq =>
      left
      rcases State.bucket?_of_setBucket callsEq found with
        ⟨rfl, rfl⟩ | before
      · obtain ⟨q, old⟩ := poke.origin occupied
        exact ⟨_, q, cFound, old⟩
      · exact ⟨b', q', before, occupied, rfl, rfl⟩
  | call inCall step tells =>
      rcases Relay.seat_origin step found occupied with
        ⟨b, before, old⟩ | ⟨args, result, rfl, stored, outcome⟩ | marked
      · exact .inl ⟨b, q', before, old, rfl, rfl⟩
      · obtain ⟨rfl, accepted, rfl⟩ := JoinResult.outcome_eq_some.mp outcome
        obtain ⟨req, existed, p, call, rfl, rfl, told⟩ :=
          tells args result rfl accepted
        obtain rfl := Option.some.inj inCall
        exact .inr (.inl ⟨_, stored, .join step accepted told⟩)
      · exact .inr (.inr marked)

/-- A connection found in a seat was there before, or has just got it. -/
theorem Act.conn_origin (next : act.next oracle s = some (s', acts))
    {conn : PeerRef} (found : s'.bucket? ref = some b')
    (occupied : b'.peers slot = some q') (stored : q'.conn = some conn) :
    (∃ b q, s.bucket? ref = some b ∧ b.peers slot = some q ∧
      q.conn = some conn) ∨
    SeatReturned oracle.toOracle s s' act ref slot conn := by
  rcases act.seat_origin next found occupied with
    ⟨b, q, before, old, sameConn, -⟩ | ⟨conn', fresh, returned⟩ | ⟨-, cleared⟩
  · exact .inl ⟨b, q, before, old, sameConn.trans stored⟩
  · obtain rfl := Option.some.inj (fresh.symm.trans stored)
    exact .inr returned
  · rw [cleared] at stored
    cases stored

/-- A seat found connected was so before, or has just been taken. -/
theorem Act.connected_origin (next : act.next oracle s = some (s', acts))
    (found : s'.bucket? ref = some b') (occupied : b'.peers slot = some q')
    (connected : q'.connected = true) :
    (∃ b q, s.bucket? ref = some b ∧ b.peers slot = some q ∧
      q.connected = true ∧ q.conn = q'.conn) ∨
    ∃ conn, q'.conn = some conn ∧
      SeatReturned oracle.toOracle s s' act ref slot conn := by
  rcases act.seat_origin next found occupied with
    ⟨b, q, before, old, sameConn, sameFlag⟩ | returned | ⟨disconnected, -⟩
  · exact .inl ⟨b, q, before, old, sameFlag.trans connected, sameConn⟩
  · exact .inr returned
  · rw [disconnected] at connected
    cases connected

/-- A frame found in a buffer was there before, or its reader has just put it
there. -/
theorem Act.buffer_origin (next : act.next oracle s = some (s', acts))
    {f : BufferedFrame Frame} (found : s'.bucket? ref = some b')
    (member : f ∈ b'.buffer) :
    (∃ b, s.bucket? ref = some b ∧ f ∈ b.buffer) ∨
    ∃ data binary,
      act = .readPeer (.bufferIfAlone f.data.sender ref data binary) := by
  cases act.next_registry next with
  | quiet _ same =>
      rw [State.bucket?, same] at found
      exact .inl ⟨b', found, member⟩
  | poke cFound poke callsEq =>
      rcases State.bucket?_of_setBucket callsEq found with
        ⟨rfl, rfl⟩ | before
      · exact (poke.mem_buffer member).imp_left fun old => ⟨_, cFound, old⟩
      · exact .inl ⟨b', before, member⟩
  | call _ step _ => exact .inl (Relay.buffer_origin step found member)

end Step

/-! ## The invariant -/

/-- The frame was read in one seat and goes to a peer in the other. -/
def Frame.Crosses (s : State) (frame : Frame) (q : PeerRef) : Prop :=
  ∃ a b, (s.peers frame.sender).slot = some a ∧ (s.peers q).slot = some b ∧
    a ≠ b

def Outbound.Crosses (s : State) (q : PeerRef) : Outbound → Prop
  | .data frame _ => frame.Crosses s q
  | .control _ | .pong _ => True

/-- The peer whose `Join` an activation is in. -/
def Act.joining : Act → Option PeerRef
  | .handleConn (.join _ _ p _) => some p
  | _ => none

/-- The peer an activation works for after its `Join`. -/
def Act.joined : Act → Option PeerRef
  | .handleConn (.list p _ _) | .handleConn (.drain p _)
  | .handleConn (.handleRead p) | .handleConn (.start p) => some p
  | .readPeer (.enter p) | .readPeer (.swap p) | .readPeer (.again p)
  | .readPeer (.loop p) | .readPeer (.clear p) | .readPeer (.readFrame p)
  | .readPeer (.ping p _) | .readPeer (.handle p _ _) | .readPeer (.get p _ _ _)
  | .readPeer (.record p _ _ _ _) | .readPeer (.age p _ _ _ _)
  | .readPeer (.bufferIfAlone p _ _ _) | .readPeer (.otherConn p _ _ _)
  | .readPeer (.idle p) | .readPeer (.done p) => some p
  | _ => none

/-- A frame an activation is about to queue, with the receiver. -/
def Act.queues : Act → Option (PeerRef × Outbound)
  | .enqueue q out | .send q out | .readPeer (.ping q out) => some (q, out)
  | _ => none

structure Act.Placed (s : State) (act : Act) : Prop where
  joined : ∀ p, act.joined = some p → (s.peers p).slot.isSome
  queues : ∀ q out, act.queues = some (q, out) → out.Crosses s q
  conn : ∀ req existed p call, act = .handleConn (.join req existed p call) →
    call.args.conn = p

structure Origins (s : State) (acts : List Act) : Prop where
  seats : ∀ ref b slot q conn, s.bucket? ref = some b →
    b.peers slot = some q → q.conn = some conn →
    (s.peers conn).slot = some slot
  buffers : ∀ ref b f, s.bucket? ref = some b → f ∈ b.buffer →
    (s.peers f.data.sender).slot.isSome
  queued : ∀ q out, out ∈ (s.peers q).queued → out.Crosses s q
  polled : ∀ p, (s.peers p).polled = true → (s.peers p).slot.isSome
  fresh : ∀ p, s.allocated ≤ p → (s.peers p).slot = none
  joining : (acts.filterMap Act.joining).Nodup
  unseated : ∀ p ∈ acts.filterMap Act.joining,
    p < s.allocated ∧ (s.peers p).slot = none
  placed : ∀ act ∈ acts, act.Placed s

/-- The part of `Origins` that holds whatever a connection drains: a peer has
no slot until its one join has returned, and a connection found in a seat is a
peer of that slot. -/
structure Seating (s : State) (acts : List Act) : Prop where
  seats : ∀ ref b slot q conn, s.bucket? ref = some b →
    b.peers slot = some q → q.conn = some conn →
    (s.peers conn).slot = some slot
  polled : ∀ p, (s.peers p).polled = true → (s.peers p).slot.isSome
  fresh : ∀ p, s.allocated ≤ p → (s.peers p).slot = none
  joining : (acts.filterMap Act.joining).Nodup
  unseated : ∀ p ∈ acts.filterMap Act.joining,
    p < s.allocated ∧ (s.peers p).slot = none
  joined : ∀ act ∈ acts, ∀ p, act.joined = some p → (s.peers p).slot.isSome
  conn : ∀ act ∈ acts, ∀ req existed p call,
    act = .handleConn (.join req existed p call) → call.args.conn = p

theorem Origins.seating {s : State} {acts : List Act}
    (origins : Origins s acts) : Seating s acts where
  seats := origins.seats
  polled := origins.polled
  fresh := origins.fresh
  joining := origins.joining
  unseated := origins.unseated
  joined := fun act member => (origins.placed act member).joined
  conn := fun act member => (origins.placed act member).conn

/-- The condition on a step: a connection that drains the buffer finds no
unexpired frame in it that was read in its own seat. -/
def DrainsOther (s : State) : Act → Oracle → Prop
  | .handleConn (.drain p ref), oracle =>
      ∀ b, s.bucket? ref = some b → ∀ f ∈ b.buffer,
        oracle.now < f.expiresAt →
        (s.peers f.data.sender).slot ≠ (s.peers p).slot
  | _, _ => True

/-! ## Slots never change once assigned -/

def SlotsKept (s s' : State) : Prop :=
  ∀ p slot, (s.peers p).slot = some slot → (s'.peers p).slot = some slot

theorem SlotsKept.isSome {s s' : State} (kept : SlotsKept s s') {p : PeerRef}
    (assigned : (s.peers p).slot.isSome) : (s'.peers p).slot.isSome := by
  obtain ⟨slot, assigned⟩ := Option.isSome_iff_exists.mp assigned
  exact Option.isSome_iff_exists.mpr ⟨slot, kept p slot assigned⟩

theorem Outbound.Crosses.mono {s s' : State} (kept : SlotsKept s s')
    {q : PeerRef} {out : Outbound} (crosses : out.Crosses s q) :
    out.Crosses s' q := by
  cases out with
  | control | pong => trivial
  | data frame binary =>
      obtain ⟨a, b, sender, receiver, different⟩ := crosses
      exact ⟨a, b, kept _ _ sender, kept _ _ receiver, different⟩

theorem Act.Placed.mono {s s' : State} (kept : SlotsKept s s') {act : Act}
    (placed : act.Placed s) : act.Placed s' where
  joined := fun p joined => kept.isSome (placed.joined p joined)
  queues := fun q out queues => (placed.queues q out queues).mono kept
  conn := placed.conn

theorem Seating.slotsKept {oracle : Oracle} {s s' : State} {act : Act}
    {acts others : List Act} (seating : Seating s (act :: others))
    (next : act.next oracle s = some (s', acts)) : SlotsKept s s' := by
  intro p slot assigned
  cases act.next_peers next with
  | tame same => rw [(same p).slot]; exact assigned
  | allocated _ _ _ others =>
      have old : p ≠ s.allocated := by
        rintro rfl
        simp [seating.fresh s.allocated le_rfl] at assigned
      rw [others p old]
      exact assigned
  | @seated _ _ joiner _ _ peers =>
      have unassigned := (seating.unseated joiner (by simp [Act.joining])).2
      have different : p ≠ joiner := by
        rintro rfl
        simp [unassigned] at assigned
      rw [peers, State.modifyPeer_of_ne _ _ different]
      exact assigned
  | @started started _ peers =>
      rw [peers]
      by_cases same : p = started
      · subst p
        rw [State.modifyPeer_self]
        exact assigned
      · rw [State.modifyPeer_of_ne _ _ same]
        exact assigned
  | @queued receiver _ peers =>
      rw [peers]
      by_cases same : p = receiver
      · subst p
        rw [State.modifyPeer_self]
        exact assigned
      · rw [State.modifyPeer_of_ne _ _ same]
        exact assigned

theorem Origins.slotsKept {oracle : Oracle} {s s' : State} {act : Act}
    {acts others : List Act} (origins : Origins s (act :: others))
    (next : act.next oracle s = some (s', acts)) : SlotsKept s s' :=
  origins.seating.slotsKept next

/-! ## The activations a step leaves behind -/

/-- An activation that neither works for a joined peer, nor joins, nor queues
anything. -/
def Act.Idle (act : Act) : Prop :=
  act.joined = none ∧ act.queues = none ∧ act.joining = none

theorem Act.Idle.placed {act : Act} (idle : act.Idle) (s : State) :
    act.Placed s where
  joined := by simp [idle.1]
  queues := by simp [idle.2.1]
  conn := by
    rintro req existed p call rfl
    simp [Act.Idle, Act.joining] at idle

theorem Act.Entry.idle {act : Act} (entry : act.Entry) : act.Idle := by
  cases act with
  | handleConn call =>
      cases call with
      | get req => exact ⟨rfl, rfl, rfl⟩
      | allowCreate | tryAcquire | upgrade | join | list | drain | handleRead
      | start | done => exact entry.elim
  | event | shutdown => exact ⟨rfl, rfl, rfl⟩
  | sweep call => exact ⟨rfl, rfl, rfl⟩
  | dropPeer | readPeer | writeLoop | closePoller | stopPoller
  | releaseBucket | touch | notifyPeerPresence | notifySeat | closeSeat
  | enqueue | send | ensureWriter => exact entry.elim

theorem Act.Placed.of_joined {act : Act} {s : State} {p : PeerRef}
    (works : act.joined = some p) (queues : act.queues = none)
    (assigned : (s.peers p).slot.isSome) : act.Placed s where
  joined := by
    intro q joined
    obtain rfl : p = q := by simpa [works] using joined
    exact assigned
  queues := by simp [queues]
  conn := by
    rintro req existed q call rfl
    simp [Act.joined] at works

theorem Act.Placed.enqueue {s : State} {q : PeerRef} {out : Outbound}
    (crosses : out.Crosses s q) : (Act.enqueue q out).Placed s where
  joined := by simp [Act.joined]
  queues := by
    rintro q' out' queues
    obtain ⟨rfl, rfl⟩ : q = q' ∧ out = out' := by
      simpa [Act.queues] using queues
    exact crosses
  conn := by simp

theorem refuse_placed (s : State) (req : Request) (existed : Bool) :
    ∀ act ∈ refuse req existed, act.Placed s := by
  intro act member
  unfold refuse at member
  split at member
  · simp at member
  · obtain rfl := List.mem_singleton.mp member
    exact Act.Idle.placed ⟨rfl, rfl, rfl⟩ s

theorem dropPeer_placed (s : State) (call : DropPeer) :
    (Act.dropPeer call).Placed s :=
  Act.Idle.placed ⟨rfl, rfl, rfl⟩ s

private theorem placed_singleton {s : State} {act : Act}
    (placed : act.Placed s) : ∀ act' ∈ [act], act'.Placed s := by
  simpa using placed

/-- A `handleConn` that drops its peer ends. -/
private theorem dropped_placed (s : State) (p : PeerRef) :
    ∀ act ∈ [Act.dropPeer (.swap p), .handleConn (.done p)],
      act.Placed s := by
  simp only [List.forall_mem_cons, List.not_mem_nil, false_implies,
    implies_true, and_true]
  exact ⟨dropPeer_placed s _, Act.Idle.placed ⟨rfl, rfl, rfl⟩ s⟩

theorem HandleConn.next_placed {oracle : Oracle} {s s' : State}
    {call : HandleConn} {acts others : List Act}
    (origins : Origins s (.handleConn call :: others))
    (drains : DrainsOther s (.handleConn call) oracle)
    (next : call.next oracle s = some (s', acts)) :
    ∀ act ∈ acts, act.Placed s' := by
  have kept : SlotsKept s s' := origins.slotsKept next
  have placed := origins.placed (.handleConn call) (by simp)
  cases call with
  | get req =>
      simp only [HandleConn.next] at next
      split at next
      · simp at next
      · split at next <;> cases next <;>
          exact placed_singleton (Act.Idle.placed ⟨rfl, rfl, rfl⟩ s)
  | allowCreate req =>
      simp only [HandleConn.next, Option.some.injEq, Prod.mk.injEq] at next
      obtain ⟨rfl, rfl⟩ := next
      split
      · exact placed_singleton (Act.Idle.placed ⟨rfl, rfl, rfl⟩ _)
      · simp
  | tryAcquire req =>
      simp only [HandleConn.next, Option.some.injEq, Prod.mk.injEq] at next
      obtain ⟨rfl, rfl⟩ := next
      split
      · exact placed_singleton (Act.Idle.placed ⟨rfl, rfl, rfl⟩ _)
      · simp
  | upgrade req existed =>
      simp only [HandleConn.next] at next
      split at next <;> cases next
      · refine placed_singleton ⟨by simp [Act.joined], by simp [Act.queues],
          ?_⟩
        rintro req' existed' p call equality
        simp only [Act.handleConn.injEq, HandleConn.join.injEq] at equality
        obtain ⟨-, -, rfl, rfl⟩ := equality
        rfl
      · exact refuse_placed s req existed
  | join req existed p call =>
      have sameConn := placed.conn req existed p call rfl
      simp only [HandleConn.next] at next
      split at next
      · simp at next
      · split at next <;> cases next
        · exact refuse_placed _ req existed
        · exact placed_singleton (.of_joined rfl rfl
            (by rw [State.modifyPeer_self]; rfl))
      · rename_i calls call' _ taken
        cases next
        refine placed_singleton ⟨by simp [Act.joined], by simp [Act.queues],
          ?_⟩
        rintro req' existed' p' call'' equality
        simp only [Act.handleConn.injEq, HandleConn.join.injEq] at equality
        obtain ⟨-, -, rfl, rfl⟩ := equality
        rw [call.next_args taken, sameConn]
  | list p b slot =>
      cases next
      have assigned := placed.joined p rfl
      simp only [List.forall_mem_cons, List.not_mem_nil, false_implies,
        implies_true, and_true]
      exact ⟨.enqueue trivial, Act.Idle.placed ⟨rfl, rfl, rfl⟩ _,
        .of_joined rfl rfl assigned⟩
  | drain p ref =>
      have assigned := placed.joined p rfl
      simp only [HandleConn.next] at next
      split at next
      · simp at next
      · rename_i b found
        cases next
        intro act member
        rcases List.mem_append.mp member with handed | last
        · obtain ⟨f, drained, rfl⟩ := List.mem_map.mp handed
          obtain ⟨buffered, unexpired⟩ := List.mem_filter.mp drained
          obtain ⟨a, sender⟩ := Option.isSome_iff_exists.mp
            (origins.buffers ref b f found buffered)
          obtain ⟨c, receiver⟩ := Option.isSome_iff_exists.mp assigned
          refine .enqueue ⟨a, c, sender, receiver, fun same => ?_⟩
          subst same
          exact drains b found f buffered (of_decide_eq_true unexpired)
            (sender.trans receiver.symm)
        · obtain rfl := List.mem_singleton.mp last
          exact .of_joined rfl rfl assigned
  | handleRead p =>
      cases next
      have assigned := placed.joined p rfl
      split
      · exact placed_singleton (.of_joined rfl rfl assigned)
      · exact dropped_placed s p
  | start p =>
      simp only [HandleConn.next] at next
      split at next <;> cases next
      · simp
      · split
        · simp
        · exact dropped_placed _ p
  | done p => cases next; simp

theorem DropPeer.next_placed {oracle : Oracle} {s s' : State}
    {call : DropPeer} {acts : List Act}
    (next : call.next oracle s = some (s', acts)) :
    ∀ act ∈ acts, act.Placed s' := by
  cases call with
  | swap p =>
      simp only [DropPeer.next] at next
      split at next <;> cases next
      · simp
      · exact placed_singleton (dropPeer_placed _ _)
  | creatorIP p =>
      simp only [DropPeer.next] at next
      split at next
      · simp at next
      · cases next; exact placed_singleton (dropPeer_placed _ _)
  | teardown p ip => cases next; exact placed_singleton (dropPeer_placed _ _)
  | unlist p ip => cases next; exact placed_singleton (dropPeer_placed _ _)
  | leave p ip call =>
      simp only [DropPeer.next] at next
      split at next
      · simp at next
      · cases next
        intro act member
        rcases List.mem_append.mp member with told | released
        · split at told
          · obtain rfl := List.mem_singleton.mp told
            exact .enqueue trivial
          · simp at told
        · split at released
          · obtain rfl := List.mem_singleton.mp released
            exact Act.Idle.placed ⟨rfl, rfl, rfl⟩ _
          · simp at released
      · cases next; exact placed_singleton (dropPeer_placed _ _)

theorem closeBucketPeers_placed {s : State} {p : PeerRef} {b : Ref}
    (assigned : (s.peers p).slot.isSome) :
    ∀ act ∈ closeBucketPeers p b, act.Placed s := by
  simp only [closeBucketPeers, List.forall_mem_cons, List.not_mem_nil,
    false_implies, implies_true, and_true]
  exact ⟨Act.Idle.placed ⟨rfl, rfl, rfl⟩ s,
    Act.Idle.placed ⟨rfl, rfl, rfl⟩ s, .of_joined rfl rfl assigned⟩

theorem ReadPeer.next_placed {oracle : Oracle} {s s' : State}
    {call : ReadPeer} {acts others : List Act}
    (origins : Origins s (.readPeer call :: others))
    (next : call.next oracle s = some (s', acts)) :
    ∀ act ∈ acts, act.Placed s' := by
  have kept : SlotsKept s s' := origins.slotsKept next
  have placed := origins.placed (.readPeer call) (by simp)
  have works : ∀ {p : PeerRef} {call' : ReadPeer},
      (Act.readPeer call).joined = some p →
      (Act.readPeer call').joined = some p →
      (Act.readPeer call').queues = none → (Act.readPeer call').Placed s' :=
    fun here there queues =>
      .of_joined there queues (kept.isSome (placed.joined _ here))
  have dropped : ∀ {p : PeerRef}, (Act.readPeer call).joined = some p →
      ∀ act ∈ [Act.dropPeer (.swap p), .readPeer (.done p)], act.Placed s' := by
    intro p here
    simp only [List.forall_mem_cons, List.not_mem_nil, false_implies,
      implies_true, and_true]
    exact ⟨dropPeer_placed s' _, works here rfl rfl⟩
  cases call with
  | enter p =>
      cases next
      split
      · simp
      · exact placed_singleton (works rfl rfl rfl)
  | swap p =>
      simp only [ReadPeer.next] at next
      split at next <;> cases next <;>
        exact placed_singleton (works rfl rfl rfl)
  | again p => cases next; simp
  | loop p =>
      cases next
      refine placed_singleton ?_
      split <;> exact works rfl rfl rfl
  | clear p => cases next; exact placed_singleton (works rfl rfl rfl)
  | readFrame p =>
      simp only [ReadPeer.next] at next
      split at next <;> cases next
      · exact placed_singleton (works rfl rfl rfl)
      · exact dropped rfl
      · exact placed_singleton (works rfl rfl rfl)
      · exact dropped rfl
      · refine placed_singleton ⟨?_, ?_, by simp⟩
        · simpa [Act.joined] using placed.joined p rfl
        · rintro q out queues
          obtain ⟨rfl, rfl⟩ := by simpa [Act.queues] using queues
          trivial
      · refine placed_singleton ⟨?_, ?_, by simp⟩
        · simpa [Act.joined] using placed.joined p rfl
        · rintro q out queues
          obtain ⟨rfl, rfl⟩ := by simpa [Act.queues] using queues
          trivial
      · exact placed_singleton (works rfl rfl rfl)
  | ping p answer =>
      have crosses := placed.queues p answer rfl
      simp only [ReadPeer.next] at next
      split at next
      · simp at next
      · cases next
        intro act member
        rcases List.mem_append.mp member with touched | rest
        · split at touched
          · obtain rfl := List.mem_singleton.mp touched
            exact Act.Idle.placed ⟨rfl, rfl, rfl⟩ s
          · simp at touched
        · rcases List.mem_cons.mp rest with rfl | last
          · exact .enqueue crosses
          · obtain rfl := List.mem_singleton.mp last
            exact works rfl rfl rfl
  | handle p data binary =>
      simp only [ReadPeer.next] at next
      split_ifs at next <;> cases next
      · exact placed_singleton (works rfl rfl rfl)
      · exact placed_singleton (works rfl rfl rfl)
      · exact dropped rfl
  | get p data binary now =>
      simp only [ReadPeer.next] at next
      split at next
      · simp at next
      · split at next <;> cases next
        · exact dropped rfl
        · simp only [List.forall_mem_cons, List.not_mem_nil, false_implies,
            implies_true, and_true]
          exact ⟨Act.Idle.placed ⟨rfl, rfl, rfl⟩ s, works rfl rfl rfl⟩
  | record p b data binary now =>
      simp only [ReadPeer.next] at next
      split at next
      · split at next
        · simp at next
        · cases next
          split
          · exact closeBucketPeers_placed (placed.joined p rfl)
          · exact placed_singleton (works rfl rfl rfl)
      · cases next; exact placed_singleton (works rfl rfl rfl)
  | age p b data binary now =>
      simp only [ReadPeer.next] at next
      split at next
      · simp at next
      · cases next
        split
        · exact closeBucketPeers_placed (placed.joined p rfl)
        · exact placed_singleton (works rfl rfl rfl)
  | bufferIfAlone p b data binary =>
      simp only [ReadPeer.next] at next
      split at next
      · simp at next
      · cases next
        refine placed_singleton ?_
        split <;> exact works rfl rfl rfl
  | otherConn p ref data binary =>
      obtain ⟨slot, sender⟩ :=
        Option.isSome_iff_exists.mp (placed.joined p rfl)
      simp only [ReadPeer.next] at next
      split at next
      · simp at next
      · rename_i b found
        cases next
        intro act member
        rcases List.mem_append.mp member with forwarded | last
        · split at forwarded
          · rename_i other lookup
            have receiver : (s.peers other).slot = some slot.other := by
              simp only [Peer.slotIndex, sender, Option.getD_some,
                Bucket.otherConn, Bucket.peerConn] at lookup
              split at lookup
              · rename_i q occupied
                split at lookup
                · exact origins.seats ref b slot.other q other found occupied
                    lookup
                · simp at lookup
              · simp at lookup
            rcases List.mem_cons.mp forwarded with rfl | told
            · exact .enqueue ⟨slot, slot.other, sender, receiver,
                (Slot.other_ne slot).symm⟩
            · obtain rfl := List.mem_singleton.mp told
              exact .enqueue trivial
          · simp at forwarded
        · obtain rfl := List.mem_singleton.mp last
          exact works rfl rfl rfl
  | idle p =>
      cases next
      refine placed_singleton ?_
      split <;> exact works rfl rfl rfl
  | done p => cases next; simp

theorem WriteLoop.next_placed {oracle : Oracle} {s s' : State}
    {call : WriteLoop} {acts : List Act}
    (next : call.next oracle s = some (s', acts)) :
    ∀ act ∈ acts, act.Placed s' := by
  have writes : ∀ call', (Act.writeLoop call').Placed s' :=
    fun call' => Act.Idle.placed ⟨rfl, rfl, rfl⟩ s'
  cases call with
  | loop p | drain p =>
      simp only [WriteLoop.next] at next
      split at next <;> cases next
      · exact placed_singleton (writes _)
      · split
        · exact placed_singleton (writes _)
        · simp only [List.forall_mem_cons, List.not_mem_nil, false_implies,
            implies_true, and_true]
          exact ⟨dropPeer_placed _ _, writes _⟩
  | check p => cases next; exact placed_singleton (writes _)
  | done p => cases next; simp

theorem Act.next_placed {oracle : Oracle} {s s' : State} {act : Act}
    {acts others : List Act} (origins : Origins s (act :: others))
    (drains : DrainsOther s act oracle)
    (next : act.next oracle s = some (s', acts)) :
    ∀ act' ∈ acts, act'.Placed s' := by
  have placed := origins.placed act (by simp)
  cases act with
  | handleConn call => exact call.next_placed origins drains next
  | dropPeer call => exact call.next_placed next
  | readPeer call => exact call.next_placed origins next
  | writeLoop call => exact call.next_placed next
  | event p hup =>
      simp only [Act.next] at next
      split at next <;> cases next; simp
  | sweep call =>
      simp only [Act.next] at next
      split at next
      · simp at next
      · cases next
        intro act member
        obtain ⟨ip, -, rfl⟩ := List.mem_map.mp member
        exact Act.Idle.placed ⟨rfl, rfl, rfl⟩ _
      · cases next
        exact placed_singleton (Act.Idle.placed ⟨rfl, rfl, rfl⟩ _)
  | shutdown =>
      cases next
      intro act member
      rcases List.mem_append.mp member with drop | last
      · obtain ⟨p, -, rfl⟩ := List.mem_map.mp drop
        exact dropPeer_placed s _
      · rw [List.mem_singleton.mp last]
        exact Act.Idle.placed ⟨rfl, rfl, rfl⟩ s
  | closePoller =>
      simp only [Act.next] at next
      split at next <;> cases next
      · exact placed_singleton (Act.Idle.placed ⟨rfl, rfl, rfl⟩ _)
      · simp
  | stopPoller | releaseBucket ip => cases next; simp
  | touch b =>
      simp only [Act.next] at next
      split at next <;> cases next; simp
  | notifyPeerPresence b =>
      simp only [Act.next] at next
      split at next
      · simp at next
      · cases next
        split
        · simp
        · simp only [List.forall_mem_cons, List.not_mem_nil, false_implies,
            implies_true, and_true]
          exact ⟨Act.Idle.placed ⟨rfl, rfl, rfl⟩ s,
            Act.Idle.placed ⟨rfl, rfl, rfl⟩ s⟩
  | notifySeat b slot =>
      simp only [Act.next] at next
      split at next
      · simp at next
      · cases next
        split
        · exact placed_singleton (.enqueue trivial)
        · simp
  | closeSeat b slot =>
      simp only [Act.next] at next
      split at next
      · simp at next
      · cases next
        split
        · exact placed_singleton (dropPeer_placed s _)
        · simp
  | enqueue p out =>
      have crosses := placed.queues p out rfl
      cases next
      split
      · simp
      · exact placed_singleton ⟨by simp [Act.joined], by
          rintro q out' queues
          obtain ⟨rfl, rfl⟩ : p = q ∧ out = out' := by
            simpa [Act.queues] using queues
          exact crosses, by simp⟩
  | send p out =>
      simp only [Act.next] at next
      split at next <;> cases next
      · exact placed_singleton (Act.Idle.placed ⟨rfl, rfl, rfl⟩ _)
      · simp
  | ensureWriter p => cases next; simp

/-- No activation is in a `Join`. -/
def NoneJoining (acts : List Act) : Prop :=
  ∀ act ∈ acts, act.joining = none

theorem NoneJoining.filterMap {acts : List Act} (none : NoneJoining acts) :
    acts.filterMap Act.joining = [] :=
  List.filterMap_eq_nil_iff.mpr none

theorem refuse_joining (req : Request) (existed : Bool) :
    NoneJoining (refuse req existed) := by
  cases existed <;> simp [NoneJoining, refuse, Act.joining]

theorem closeBucketPeers_joining (p : PeerRef) (b : Ref) :
    NoneJoining (closeBucketPeers p b) := by
  simp [NoneJoining, closeBucketPeers, Act.joining]

theorem DropPeer.next_joining {oracle : Oracle} {s s' : State}
    {call : DropPeer} {acts : List Act}
    (next : call.next oracle s = some (s', acts)) :
    NoneJoining acts := by
  cases call <;> grind [NoneJoining, DropPeer.next, afterLeave, Act.joining]

theorem ReadPeer.next_joining {oracle : Oracle} {s s' : State}
    {call : ReadPeer} {acts : List Act}
    (next : call.next oracle s = some (s', acts)) :
    NoneJoining acts := by
  cases call <;>
    grind [NoneJoining, ReadPeer.next, Act.joining, closeBucketPeers_joining]

theorem WriteLoop.next_joining {oracle : Oracle} {s s' : State}
    {call : WriteLoop} {acts : List Act}
    (next : call.next oracle s = some (s', acts)) :
    NoneJoining acts := by
  cases call <;> grind [NoneJoining, WriteLoop.next, Act.joining]

/-- Only an upgrade and the sections of a join leave a join behind. -/
theorem HandleConn.next_joining {oracle : Oracle} {s s' : State}
    {call : HandleConn} {acts : List Act}
    (next : call.next oracle s = some (s', acts)) :
    NoneJoining acts ∨
      (∃ p, (Act.handleConn call).joining = some p ∧
        acts.filterMap Act.joining = [p] ∧ s'.peers = s.peers ∧
        s'.allocated = s.allocated) ∨
      ((Act.handleConn call).joining = none ∧
        acts.filterMap Act.joining = [s.allocated] ∧
        (s'.peers s.allocated).slot = none ∧
        s'.allocated = s.allocated + 1) := by
  cases call with
  | upgrade req existed =>
      simp only [HandleConn.next] at next
      split at next <;> cases next
      · exact .inr (.inr ⟨rfl, rfl, by simp [Peer.zero], rfl⟩)
      · exact .inl (refuse_joining req existed)
  | join req existed p call =>
      simp only [HandleConn.next] at next
      split at next
      · simp at next
      · split at next <;> cases next
        · exact .inl (refuse_joining req existed)
        · exact .inl (by simp [NoneJoining, Act.joining])
      · cases next
        exact .inr (.inl ⟨p, rfl, rfl, rfl, rfl⟩)
  | get | allowCreate | tryAcquire | list | drain | handleRead | start
  | done =>
      refine .inl ?_
      grind [NoneJoining, HandleConn.next, Act.joining]

theorem Act.next_joining {oracle : Oracle} {s s' : State} {act : Act}
    {acts : List Act} (next : act.next oracle s = some (s', acts)) :
    NoneJoining acts ∨
      (∃ p, act.joining = some p ∧ acts.filterMap Act.joining = [p] ∧
        s'.peers = s.peers ∧
        s'.allocated = s.allocated) ∨
      (act.joining = none ∧ acts.filterMap Act.joining = [s.allocated] ∧
        (s'.peers s.allocated).slot = none ∧
        s'.allocated = s.allocated + 1) := by
  cases act with
  | handleConn call => exact call.next_joining next
  | dropPeer call => exact .inl (call.next_joining next)
  | readPeer call => exact .inl (call.next_joining next)
  | writeLoop call => exact .inl (call.next_joining next)
  | shutdown =>
      refine .inl ?_
      cases next
      intro act member
      rcases List.mem_append.mp member with drop | last
      · obtain ⟨p, -, rfl⟩ := List.mem_map.mp drop
        rfl
      · rw [List.mem_singleton.mp last]
        rfl
  | sweep call =>
      refine .inl ?_
      simp only [Act.next] at next
      split at next
      · simp at next
      · cases next
        simp [NoneJoining, Act.joining]
      · cases next; simp [NoneJoining, Act.joining]
  | event | closePoller | stopPoller | releaseBucket | touch
  | notifyPeerPresence | notifySeat | closeSeat | enqueue | send
  | ensureWriter =>
      refine .inl ?_
      grind [NoneJoining, Act.next, Act.joining]

theorem Act.forks_joining (oracle : Oracle) (act : Act) (s : State) :
    NoneJoining (act.forks oracle s) := by
  intro act' member
  rcases Act.forks_cases member with ⟨p, rfl⟩ | ⟨p, rfl⟩ | ⟨p, rfl⟩ <;> rfl

theorem Act.forks_placed {oracle : Oracle} {s s' : State} {act : Act}
    {acts others : List Act} (origins : Origins s (act :: others))
    (next : act.next oracle s = some (s', acts)) :
    ∀ act' ∈ act.forks oracle s, act'.Placed s' := by
  cases act with
  | event p hup =>
      simp only [Act.next] at next
      split at next
      · rename_i delivers
        cases next
        simp only [Act.forks]
        split_ifs
        · simp
        · exact placed_singleton (dropPeer_placed s _)
        · exact placed_singleton
            (.of_joined rfl rfl (origins.polled p delivers.1))
      · simp at next
  | ensureWriter p =>
      simp only [Act.forks]
      split
      · simp
      · exact placed_singleton (Act.Idle.placed ⟨rfl, rfl, rfl⟩ s')
  | handleConn | dropPeer | readPeer | writeLoop | sweep | shutdown
  | closePoller | stopPoller | releaseBucket | touch | notifyPeerPresence
  | notifySeat | closeSeat | enqueue | send => simp [Act.forks]

end Byteln.Server.Relay

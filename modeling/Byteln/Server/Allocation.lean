import Byteln.Server.Origins
import Byteln.Server.PeerSteps

/-!
# The peers in use

Every activation works for one peer at most.  All peers that activations work
for, that sit in a bucket or that the server lists have been allocated, and a
peer that has not been allocated still has its zero value.
-/

namespace Byteln.Server.Relay

open Byteln.Library

/-! ## Whom an activation works for -/

def HandleConn.peer? : HandleConn → Option PeerRef
  | .get _ | .allowCreate _ | .tryAcquire _ | .upgrade _ _ => none
  | .join _ _ p _ | .list p _ _ | .drain p _ | .handleRead p | .start p
  | .done p => some p

def DropPeer.peer : DropPeer → PeerRef
  | .swap p | .creatorIP p | .teardown p _ | .unlist p _ | .leave p _ _ => p

def ReadPeer.peer : ReadPeer → PeerRef
  | .enter p | .swap p | .again p | .loop p | .clear p | .readFrame p
  | .ping p _ | .handle p _ _ | .get p _ _ _ | .record p _ _ _ _
  | .age p _ _ _ _ | .bufferIfAlone p _ _ _ | .otherConn p _ _ _ | .idle p
  | .done p => p

def WriteLoop.peer : WriteLoop → PeerRef
  | .loop p | .drain p | .check p | .done p => p

/-- The peer an activation works for.  An event names its peer, but does
nothing unless the poller knows it. -/
def Act.peer? : Act → Option PeerRef
  | .handleConn call => call.peer?
  | .dropPeer call => some call.peer
  | .readPeer call => some call.peer
  | .writeLoop call => some call.peer
  | .enqueue p _ | .send p _ | .ensureWriter p => some p
  | .event _ _ | .sweep _ | .shutdown | .closePoller | .stopPoller
  | .releaseBucket _ | .touch _ | .notifyPeerPresence _ | .notifySeat _ _
  | .closeSeat _ _ => none

/-- The peer is the connection of some seat. -/
def State.Seated (s : State) (p : PeerRef) : Prop :=
  ∃ ref b slot q, s.bucket? ref = some b ∧ b.peers slot = some q ∧
    q.conn = some p

theorem seated_of_peerConn {s : State} {ref : Ref} {b : Bucket PeerRef Frame}
    {slot : Slot} {p : PeerRef} (found : s.bucket? ref = some b)
    (conn : b.peerConn slot = some p) : s.Seated p := by
  unfold Bucket.peerConn at conn
  split at conn
  · rename_i q occupied
    split at conn
    · exact ⟨ref, b, slot, q, found, occupied, conn⟩
    · cases conn
  · cases conn

/-- The connection a leave reports sits in the other seat. -/
theorem leaveSection_otherConn {r : Registry PeerRef Frame} {now : Time}
    {id : String} {slot : Slot} {ref : Ref} {p : PeerRef}
    (reported : (r.leaveSection now id slot ref).2.otherConn = some p) :
    ∃ b, r.heap[ref]? = some b ∧ b.otherConn slot = some p := by
  unfold Registry.leaveSection at reported
  cases found : r.heap[ref]? with
  | none =>
      rw [found] at reported
      cases reported
  | some b =>
      rw [found] at reported
      dsimp only at reported
      cases occupied : b.peers slot with
      | none =>
          rw [occupied] at reported
          cases reported
      | some q =>
          rw [occupied] at reported
          refine ⟨b, rfl, ?_⟩
          have elsewhere : (b.markLeft slot q now).peers slot.other =
              b.peers slot.other :=
            setPeer_peers_of_ne _ _ (Slot.other_ne slot)
          have answered : (if ((b.markLeft slot q now).peers slot.other).any
              fun q => q.connected then
                ((b.markLeft slot q now).peers slot.other).bind fun q => q.conn
              else none) = some p := by
            dsimp only at reported
            split at reported <;> exact reported
          rw [elsewhere] at answered
          unfold Bucket.otherConn Bucket.peerConn
          cases other : b.peers slot.other with
          | none =>
              rw [other] at answered
              simp at answered
          | some q' =>
              rw [other] at answered
              simpa using answered

/-! ## Whom the started activations work for -/

/-- Where the peer of a started activation comes from. -/
inductive Started.Peer (s : State) (act : Act) (p : PeerRef) : Prop where
  | own : act.peer? = some p → Started.Peer s act p
  | allocated (req : Request) (existed : Bool) :
      act = .handleConn (.upgrade req existed) → p = s.allocated →
      Started.Peer s act p
  | seated : s.Seated p → Started.Peer s act p
  | listed : p ∈ s.live → Started.Peer s act p

theorem dropped_peer {s : State} {act act' : Act} {p q : PeerRef}
    (started : act' ∈ [Act.dropPeer (.swap p), .handleConn (.done p)])
    (works : act'.peer? = some q) (own : act.peer? = some p) :
    Started.Peer s act q := by
  simp only [List.mem_cons, List.not_mem_nil, or_false] at started
  rcases started with rfl | rfl <;> obtain rfl := Option.some.inj works <;>
    exact .own own

theorem HandleConn.next_peer {oracle : Oracle} {s s' : State}
    {call : HandleConn} {acts : List Act} {act : Act} {p : PeerRef}
    (next : call.next oracle s = some (s', acts)) (started : act ∈ acts)
    (works : act.peer? = some p) : Started.Peer s (.handleConn call) p := by
  cases call with
  | get req =>
      simp only [HandleConn.next] at next
      split at next
      · cases next
      · split at next <;> cases next <;>
          obtain rfl := List.mem_singleton.mp started <;> cases works
  | allowCreate req =>
      simp only [HandleConn.next, Option.some.injEq, Prod.mk.injEq] at next
      obtain ⟨rfl, rfl⟩ := next
      split at started
      · obtain rfl := List.mem_singleton.mp started
        cases works
      · cases started
  | tryAcquire req =>
      simp only [HandleConn.next, Option.some.injEq, Prod.mk.injEq] at next
      obtain ⟨rfl, rfl⟩ := next
      split at started
      · obtain rfl := List.mem_singleton.mp started
        cases works
      · cases started
  | upgrade req existed =>
      simp only [HandleConn.next] at next
      split at next <;> cases next
      · obtain rfl := List.mem_singleton.mp started
        obtain rfl := Option.some.inj works
        exact .allocated req existed rfl rfl
      · unfold refuse at started
        split at started
        · cases started
        · obtain rfl := List.mem_singleton.mp started
          cases works
  | join req existed p' call =>
      simp only [HandleConn.next] at next
      split at next
      · cases next
      · split at next <;> cases next
        · unfold refuse at started
          split at started
          · cases started
          · obtain rfl := List.mem_singleton.mp started
            cases works
        · obtain rfl := List.mem_singleton.mp started
          exact .own works
      · cases next
        obtain rfl := List.mem_singleton.mp started
        exact .own works
  | list p' b slot =>
      cases next
      simp only [List.mem_cons, List.not_mem_nil, or_false] at started
      rcases started with rfl | rfl | rfl
      · exact .own works
      · cases works
      · exact .own works
  | drain p' b =>
      simp only [HandleConn.next] at next
      split at next
      · cases next
      · cases next
        rcases List.mem_append.mp started with handed | last
        · obtain ⟨f, -, rfl⟩ := List.mem_map.mp handed
          exact .own works
        · obtain rfl := List.mem_singleton.mp last
          exact .own works
  | handleRead p' =>
      cases next
      split at started
      · obtain rfl := List.mem_singleton.mp started
        exact .own works
      · exact dropped_peer started works rfl
  | start p' =>
      simp only [HandleConn.next] at next
      split at next <;> cases next
      · cases started
      · split at started
        · cases started
        · exact dropped_peer started works rfl
  | done p' =>
      cases next
      cases started

theorem DropPeer.next_peer {oracle : Oracle} {s s' : State}
    {call : DropPeer} {acts : List Act} {act : Act} {p : PeerRef}
    (next : call.next oracle s = some (s', acts)) (started : act ∈ acts)
    (works : act.peer? = some p) : Started.Peer s (.dropPeer call) p := by
  cases call with
  | swap p' =>
      simp only [DropPeer.next] at next
      split at next <;> cases next
      · cases started
      · obtain rfl := List.mem_singleton.mp started
        exact .own works
  | creatorIP p' =>
      simp only [DropPeer.next] at next
      split at next
      · cases next
      · cases next
        obtain rfl := List.mem_singleton.mp started
        exact .own works
  | teardown p' ip | unlist p' ip =>
      cases next
      obtain rfl := List.mem_singleton.mp started
      exact .own works
  | leave p' ip call =>
      simp only [DropPeer.next] at next
      split at next
      · cases next
      · rename_i calls result taken
        cases next
        unfold afterLeave at started
        rcases List.mem_append.mp started with told | released
        · split at told
          · rename_i other reported
            obtain rfl := List.mem_singleton.mp told
            obtain rfl := Option.some.inj works
            refine .seated ?_
            cases call with
            | enter id slot =>
                simp only [LeaveCall.next] at taken
                split at taken
                · cases taken
                · split at taken <;> cases taken
                  cases reported
            | marking id slot ref =>
                simp only [LeaveCall.next] at taken
                split at taken <;> cases taken
                obtain ⟨b, found, conn⟩ := leaveSection_otherConn reported
                exact seated_of_peerConn found conn
            | returned result' => cases taken
          · cases told
        · split at released
          · obtain rfl := List.mem_singleton.mp released
            cases works
          · cases released
      · cases next
        obtain rfl := List.mem_singleton.mp started
        exact .own works

theorem closeBucketPeers_peer {p q : PeerRef} {b : Ref} {act : Act}
    (started : act ∈ closeBucketPeers p b) (works : act.peer? = some q) :
    q = p := by
  simp only [closeBucketPeers, List.mem_cons, List.not_mem_nil, or_false]
    at started
  rcases started with rfl | rfl | rfl
  · cases works
  · cases works
  · exact (Option.some.inj works).symm

theorem ReadPeer.next_peer {oracle : Oracle} {s s' : State}
    {call : ReadPeer} {acts : List Act} {act : Act} {p : PeerRef}
    (next : call.next oracle s = some (s', acts)) (started : act ∈ acts)
    (works : act.peer? = some p) : Started.Peer s (.readPeer call) p := by
  cases call with
  | enter p' =>
      cases next
      split at started
      · cases started
      · obtain rfl := List.mem_singleton.mp started
        exact .own works
  | swap p' =>
      simp only [ReadPeer.next] at next
      split at next <;> cases next <;>
        obtain rfl := List.mem_singleton.mp started <;> exact .own works
  | loop p' | idle p' =>
      cases next
      obtain rfl := List.mem_singleton.mp started
      split at works <;> exact .own works
  | clear p' =>
      cases next
      obtain rfl := List.mem_singleton.mp started
      exact .own works
  | again p' | done p' =>
      cases next
      cases started
  | readFrame p' =>
      simp only [ReadPeer.next] at next
      split at next <;> cases next <;>
        simp only [List.mem_cons, List.not_mem_nil, or_false] at started
      · subst started
        exact .own works
      · rcases started with rfl | rfl <;> exact .own works
      · subst started
        exact .own works
      · rcases started with rfl | rfl <;> exact .own works
      · subst started
        exact .own works
      · subst started
        exact .own works
      · subst started
        exact .own works
  | ping p' answer =>
      simp only [ReadPeer.next] at next
      split at next
      · cases next
      · cases next
        rcases List.mem_append.mp started with touched | answered
        · split at touched
          · obtain rfl := List.mem_singleton.mp touched
            cases works
          · cases touched
        · simp only [List.mem_cons, List.not_mem_nil, or_false] at answered
          rcases answered with rfl | rfl <;> exact .own works
  | handle p' data binary =>
      simp only [ReadPeer.next] at next
      split_ifs at next <;> cases next <;>
        simp only [List.mem_cons, List.not_mem_nil, or_false] at started
      · subst started
        exact .own works
      · subst started
        exact .own works
      · rcases started with rfl | rfl <;> exact .own works
  | get p' data binary now =>
      simp only [ReadPeer.next] at next
      split at next
      · cases next
      · split at next <;> cases next <;>
          simp only [List.mem_cons, List.not_mem_nil, or_false] at started
        · rcases started with rfl | rfl <;> exact .own works
        · rcases started with rfl | rfl
          · cases works
          · exact .own works
  | record p' b data binary now =>
      simp only [ReadPeer.next] at next
      split at next
      · split at next
        · cases next
        · cases next
          split at started
          · exact .own (closeBucketPeers_peer started works ▸ rfl)
          · obtain rfl := List.mem_singleton.mp started
            exact .own works
      · cases next
        obtain rfl := List.mem_singleton.mp started
        exact .own works
  | age p' b data binary now =>
      simp only [ReadPeer.next] at next
      split at next
      · cases next
      · cases next
        split at started
        · exact .own (closeBucketPeers_peer started works ▸ rfl)
        · obtain rfl := List.mem_singleton.mp started
          exact .own works
  | bufferIfAlone p' b data binary =>
      simp only [ReadPeer.next] at next
      split at next
      · cases next
      · cases next
        obtain rfl := List.mem_singleton.mp started
        split at works <;> exact .own works
  | otherConn p' ref data binary =>
      simp only [ReadPeer.next] at next
      split at next
      · cases next
      · rename_i b found
        cases next
        rcases List.mem_append.mp started with handed | last
        · split at handed
          · rename_i q conn
            simp only [List.mem_cons, List.not_mem_nil, or_false] at handed
            rcases handed with rfl | rfl
            · obtain rfl := Option.some.inj works
              exact .seated (seated_of_peerConn found conn)
            · exact .own works
          · cases handed
        · obtain rfl := List.mem_singleton.mp last
          exact .own works

theorem WriteLoop.next_peer {oracle : Oracle} {s s' : State}
    {call : WriteLoop} {acts : List Act} {act : Act} {p : PeerRef}
    (next : call.next oracle s = some (s', acts)) (started : act ∈ acts)
    (works : act.peer? = some p) : call.peer = p := by
  cases call with
  | loop p' | drain p' =>
      simp only [WriteLoop.next] at next
      split at next <;> cases next
      · obtain rfl := List.mem_singleton.mp started
        exact Option.some.inj works
      · split at started <;>
          simp only [List.mem_cons, List.not_mem_nil, or_false] at started
        · subst started
          exact Option.some.inj works
        · rcases started with rfl | rfl <;> exact Option.some.inj works
  | check p' =>
      cases next
      obtain rfl := List.mem_singleton.mp started
      split at works <;> exact Option.some.inj works
  | done p' =>
      cases next
      cases started

/-- A started activation works for the peer of its caller, a new one, one with
a seat, or one the server lists. -/
theorem Act.next_peer {oracle : Oracle} {s s' : State} {act act' : Act}
    {acts : List Act} {p : PeerRef}
    (next : act.next oracle s = some (s', acts)) (started : act' ∈ acts)
    (works : act'.peer? = some p) : Started.Peer s act p := by
  cases act with
  | handleConn call => exact call.next_peer next started works
  | dropPeer call => exact call.next_peer next started works
  | readPeer call => exact call.next_peer next started works
  | writeLoop call =>
      exact .own (congrArg some (call.next_peer next started works))
  | event q hup =>
      simp only [Act.next] at next
      split at next <;> cases next
      cases started
  | sweep call =>
      simp only [Act.next] at next
      split at next
      · cases next
      · cases next
        obtain ⟨ip, -, rfl⟩ := List.mem_map.mp started
        cases works
      · cases next
        obtain rfl := List.mem_singleton.mp started
        cases works
  | shutdown =>
      cases next
      rcases List.mem_append.mp started with drop | last
      · obtain ⟨q, listed, rfl⟩ := List.mem_map.mp drop
        obtain rfl := Option.some.inj works
        exact .listed listed
      · obtain rfl := List.mem_singleton.mp last
        cases works
  | closePoller =>
      simp only [Act.next] at next
      split at next <;> cases next
      · obtain rfl := List.mem_singleton.mp started
        cases works
      · cases started
  | stopPoller | releaseBucket ip =>
      cases next
      cases started
  | touch b =>
      simp only [Act.next] at next
      split at next <;> cases next
      cases started
  | notifyPeerPresence b =>
      simp only [Act.next] at next
      split at next <;> cases next
      split at started
      · cases started
      · simp only [List.mem_cons, List.not_mem_nil, or_false] at started
        rcases started with rfl | rfl <;> cases works
  | notifySeat ref slot | closeSeat ref slot =>
      simp only [Act.next] at next
      split at next
      · cases next
      · rename_i b found
        cases next
        split at started
        · rename_i q conn
          obtain rfl := List.mem_singleton.mp started
          obtain rfl := Option.some.inj works
          exact .seated (seated_of_peerConn found conn)
        · cases started
  | enqueue q out =>
      cases next
      split at started
      · cases started
      · obtain rfl := List.mem_singleton.mp started
        exact .own works
  | send q out =>
      simp only [Act.next] at next
      split at next <;> cases next
      · obtain rfl := List.mem_singleton.mp started
        exact .own works
      · cases started
  | ensureWriter q =>
      cases next
      cases started

/-- A goroutine is started for a peer that the poller knows, or for the peer
of its starter. -/
theorem Act.forks_peer {oracle : Oracle} {s s' : State} {act act' : Act}
    {acts : List Act} {p : PeerRef}
    (next : act.next oracle s = some (s', acts))
    (forked : act' ∈ act.forks oracle s) (works : act'.peer? = some p) :
    act.peer? = some p ∨ (s.peers p).polled = true := by
  unfold Act.forks at forked
  split at forked
  · rename_i q hup
    simp only [Act.next] at next
    split at next
    · rename_i delivers
      right
      split_ifs at forked
      · cases forked
      · obtain rfl := List.mem_singleton.mp forked
        obtain rfl := Option.some.inj works
        exact delivers.1
      · obtain rfl := List.mem_singleton.mp forked
        obtain rfl := Option.some.inj works
        exact delivers.1
    · cases next
  · split at forked
    · cases forked
    · obtain rfl := List.mem_singleton.mp forked
      exact .inl works
  · cases forked

theorem PeerChange.peer? {s : State} {act : Act} {p : PeerRef} {peer : Peer}
    (change : PeerChange s act p peer) :
    act.peer? = some p ∨ p = s.allocated ∧
      ∃ req existed, act = .handleConn (.upgrade req existed) := by
  cases change with
  | allocated req existed => exact .inr ⟨rfl, req, existed, rfl⟩
  | _ => exact .inl rfl

/-- Only a connection that has joined is added to the server's peers. -/
theorem Act.next_live {oracle : Oracle} {s s' : State} {act : Act}
    {acts : List Act} {p : PeerRef}
    (next : act.next oracle s = some (s', acts)) (listed : p ∈ s'.live) :
    p ∈ s.live ∨ ∃ b slot, act = .handleConn (.list p b slot) := by
  cases act with
  | handleConn call =>
      cases call with
      | list q b slot =>
          cases next
          rcases List.mem_cons.mp listed with rfl | before
          · exact .inr ⟨b, slot, rfl⟩
          · exact .inl before
      | _ =>
          left
          grind [Act.next, HandleConn.next, State.modifyPeer, State.setBucket]
  | dropPeer call =>
      cases call with
      | unlist q ip =>
          cases next
          exact .inl (List.mem_of_mem_filter listed)
      | _ =>
          left
          grind [Act.next, DropPeer.next, State.modifyPeer]
  | readPeer call =>
      left
      cases call <;>
        grind [Act.next, ReadPeer.next, State.modifyPeer, State.setBucket]
  | writeLoop call =>
      left
      cases call <;> grind [Act.next, WriteLoop.next, State.modifyPeer]
  | _ =>
      left
      grind [Act.next, State.modifyPeer, State.setBucket]

/-! ## The invariant -/

structure Allocated (s : State) (acts : List Act) : Prop where
  working : ∀ act ∈ acts, ∀ p, act.peer? = some p → p < s.allocated
  joining : ∀ req existed p call,
    .handleConn (.join req existed p call) ∈ acts → call.args.conn = p
  seats : ∀ p, s.Seated p → p < s.allocated
  live : ∀ p ∈ s.live, p < s.allocated
  zero : ∀ p, s.allocated ≤ p → s.peers p = Peer.zero

theorem Allocated.perm {s : State} {acts acts' : List Act}
    (allocated : Allocated s acts) (same : acts.Perm acts') :
    Allocated s acts' where
  working := fun act member => allocated.working act (same.mem_iff.mpr member)
  joining := fun req existed p call member =>
    allocated.joining req existed p call (same.mem_iff.mpr member)
  seats := allocated.seats
  live := allocated.live
  zero := allocated.zero

theorem Act.Entry.peer? {act : Act} (entry : act.Entry) : act.peer? = none := by
  cases act with
  | handleConn call =>
      cases call with
      | get => rfl
      | _ => exact entry.elim
  | event | sweep | shutdown => rfl
  | _ => exact entry.elim

theorem Allocated.spawn {s : State} {act : Act} {acts : List Act}
    (allocated : Allocated s acts) (entry : act.Entry) :
    Allocated s (act :: acts) where
  working := by
    intro other member p works
    rcases List.mem_cons.mp member with rfl | earlier
    · rw [entry.peer?] at works
      cases works
    · exact allocated.working other earlier p works
  joining := by
    intro req existed p call member
    rcases List.mem_cons.mp member with rfl | earlier
    · exact entry.elim
    · exact allocated.joining req existed p call earlier
  seats := allocated.seats
  live := allocated.live
  zero := allocated.zero

section Step

variable {oracle : Oracle} {s s' : State} {act : Act} {acts others : List Act}

private theorem seats_allocated (allocated : Allocated s (act :: others))
    (next : act.next oracle s = some (s', acts)) {p : PeerRef}
    (seated : s'.Seated p) : p < s.allocated := by
  obtain ⟨ref, b, slot, q, found, occupied, stored⟩ := seated
  rcases act.conn_origin next found occupied stored with
    ⟨b', q', found', occupied', stored'⟩ | returned
  · exact allocated.seats p ⟨ref, b', slot, q', found', occupied', stored'⟩
  · cases returned with
    | @join req existed p' call =>
        rw [allocated.joining req existed p' call List.mem_cons_self]
        exact allocated.working _ List.mem_cons_self p' rfl

theorem upgrade_allocated {req : Request} {existed : Bool}
    (next : (Act.handleConn (.upgrade req existed)).next oracle s =
      some (s', acts)) :
    s' = { s with
        peers := Function.update s.peers s.allocated
          { Peer.zero with
            bucket := req.bucketID, token := req.token, ip := req.ip }
        allocated := s.allocated + 1 } ∧
      acts = [.handleConn (.join req existed s.allocated
        (.enter (req.joinArgs s.allocated)))] ∨
    s' = s ∧ acts = refuse req existed := by
  simp only [Act.next, HandleConn.next] at next
  split at next <;> cases next
  · exact .inl ⟨rfl, rfl⟩
  · exact .inr ⟨rfl, rfl⟩

theorem refuse_peer? {req : Request} {existed : Bool}
    (started : act ∈ refuse req existed) : act.peer? = none := by
  unfold refuse at started
  split at started
  · cases started
  · obtain rfl := List.mem_singleton.mp started
    rfl

/-- A peer that a started activation works for has been allocated. -/
theorem Allocated.started (allocated : Allocated s (act :: others))
    (next : act.next oracle s = some (s', acts)) {act' : Act} {p : PeerRef}
    (started : act' ∈ acts) (works : act'.peer? = some p) :
    p < s'.allocated := by
  have grows := act.next_allocated_le next
  cases act.next_peer next started works with
  | own same => exact (allocated.working act (by simp) p same).trans_le grows
  | seated seated => exact (allocated.seats p seated).trans_le grows
  | listed listed => exact (allocated.live p listed).trans_le grows
  | allocated req existed isUpgrade same =>
      subst isUpgrade same
      rcases upgrade_allocated next with ⟨rfl, -⟩ | ⟨-, rfl⟩
      · exact Nat.lt_succ_self _
      · rw [refuse_peer? started] at works
        cases works

/-- Only an upgrade and the sections of a join start a section of a join. -/
private theorem joins_from (next : act.next oracle s = some (s', acts))
    {req : Request} {existed : Bool} {p : PeerRef} {call : JoinCall PeerRef}
    (started : .handleConn (.join req existed p call) ∈ acts) :
    (∃ req existed, act = .handleConn (.upgrade req existed)) ∨
      ∃ req existed p call, act = .handleConn (.join req existed p call) := by
  cases act with
  | handleConn call' =>
      cases call' with
      | upgrade => exact .inl ⟨_, _, rfl⟩
      | join => exact .inr ⟨_, _, _, _, rfl⟩
      | _ =>
          exfalso
          grind [Act.next, HandleConn.next]
  | dropPeer call' => cases call'.next_joining next _ started
  | readPeer call' => cases call'.next_joining next _ started
  | writeLoop call' => cases call'.next_joining next _ started
  | _ =>
      exfalso
      grind [Act.next]

/-- A join is made for the peer it was called for. -/
theorem Act.next_conn
    (own : ∀ req existed p call, act = .handleConn (.join req existed p call) →
      call.args.conn = p)
    (next : act.next oracle s = some (s', acts)) {req : Request}
    {existed : Bool} {p : PeerRef} {call : JoinCall PeerRef}
    (started : .handleConn (.join req existed p call) ∈ acts) :
    call.args.conn = p := by
  rcases joins_from next started with
    ⟨req', existed', rfl⟩ | ⟨req', existed', p', call', rfl⟩
  · rcases upgrade_allocated next with ⟨-, rfl⟩ | ⟨-, rfl⟩
    · cases List.mem_singleton.mp started
      rfl
    · cases refuse_peer? started
  · have same := own req' existed' p' call' rfl
    simp only [Act.next, HandleConn.next] at next
    split at next
    · cases next
    · split at next <;> cases next
      · cases refuse_peer? started
      · cases List.mem_singleton.mp started
    · rename_i taken
      cases next
      cases List.mem_singleton.mp started
      rw [call'.next_args taken, same]

theorem Allocated.step (allocated : Allocated s (act :: others))
    (next : act.next oracle s = some (s', acts)) :
    Allocated s' (acts ++ (act.forks oracle s ++ others)) := by
  have grows := act.next_allocated_le next
  have known : ∀ p, (s.peers p).polled = true → p < s.allocated := by
    intro p polled
    by_contra unallocated
    rw [allocated.zero p (not_lt.mp unallocated)] at polled
    cases polled
  refine ⟨?_, ?_, ?_, ?_, ?_⟩
  · intro act' member p works
    rcases List.mem_append.mp member with started | rest
    · exact allocated.started next started works
    · rcases List.mem_append.mp rest with forked | waiting
      · rcases Act.forks_peer next forked works with own | polled
        · exact (allocated.working act (by simp) p own).trans_le grows
        · exact (known p polled).trans_le grows
      · exact (allocated.working act' (by simp [waiting]) p works).trans_le grows
  · intro req existed p call member
    rcases List.mem_append.mp member with started | rest
    · refine act.next_conn (fun req existed p call same => ?_) next started
      exact allocated.joining req existed p call (by simp [same])
    · rcases List.mem_append.mp rest with forked | waiting
      · rcases Act.forks_cases forked with ⟨_, same⟩ | ⟨_, same⟩ | ⟨_, same⟩ <;>
          cases same
      · exact allocated.joining req existed p call (by simp [waiting])
  · exact fun p seated => (seats_allocated allocated next seated).trans_le grows
  · intro p listed
    rcases act.next_live next listed with before | ⟨b, slot, rfl⟩
    · exact (allocated.live p before).trans_le grows
    · exact (allocated.working _ List.mem_cons_self p rfl).trans_le grows
  · intro p unallocated
    have before := allocated.zero p (grows.trans unallocated)
    by_cases isUpgrade : ∃ req existed, act = .handleConn (.upgrade req existed)
    · obtain ⟨req, existed, rfl⟩ := isUpgrade
      rcases upgrade_allocated next with ⟨rfl, -⟩ | ⟨rfl, -⟩
      · have later : p ≠ s.allocated := Nat.ne_of_gt unallocated
        exact (Function.update_of_ne later _ _).trans before
      · exact before
    · cases act.next_write next with
      | none same => rw [same, before]
      | @one q peer change written =>
          have different : p ≠ q := by
            rintro rfl
            rcases change.peer? with own | ⟨-, upgrade⟩
            · exact absurd (allocated.working act (by simp) p own)
                (not_lt.mpr (grows.trans unallocated))
            · exact isUpgrade upgrade
          rw [written, Function.update_of_ne different, before]

end Step

theorem allocated_started (cfg : Limits) (buckets : Config)
    (createPerMin maxBuckets : Int) :
    Allocated (New cfg buckets createPerMin maxBuckets) [] where
  working := by simp
  joining := by simp
  seats := by simp [State.Seated, State.bucket?, New, newRegistry]
  live := by simp [New]
  zero := by simp [New]

theorem Allocated.pool {pool pool' : Pool State Act}
    {label : PoolLabel Act Oracle}
    (allocated : Allocated pool.shared pool.acts)
    (step : relay.Step pool label pool') :
    Allocated pool'.shared pool'.acts := by
  cases label with
  | spawn act =>
      obtain ⟨entry, same, perm⟩ := Program.Step.spawn_inv step
      rw [same]
      exact (allocated.spawn entry).perm perm.symm
  | run act oracle =>
      obtain ⟨acts, others, next, before, after⟩ := Program.Step.run_inv step
      exact ((allocated.perm before).step next).perm after.symm

end Byteln.Server.Relay

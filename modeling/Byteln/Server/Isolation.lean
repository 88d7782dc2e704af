import Byteln.Server.FrameMoves
import Byteln.Server.Occupancy

/-!
# Frames stay in their room

Whatever joins, leaves, reclaims and sweeps happen, and however they
interleave, a frame only gets to peers that have asked for the bucket its
sender has asked for.
-/

namespace Byteln.Server.Relay

open Byteln.Library

/-- The peer works in the bucket behind the reference. -/
def State.InRoom (s : State) (p : PeerRef) (ref : Ref) : Prop :=
  ∃ b, s.bucket? ref = some b ∧ b.id = (s.peers p).bucket

/-- The frame is for a peer of the bucket it was read in. -/
def Outbound.Stays (s : State) (q : PeerRef) : Outbound → Prop
  | .data frame _ => (s.peers frame.sender).slot.isSome ∧
      (s.peers q).slot.isSome ∧
      (s.peers frame.sender).bucket = (s.peers q).bucket
  | .control _ | .pong _ => True

/-- The bucket an activation works in, and the peer it works for. -/
def Act.worksIn : Act → Option (PeerRef × Ref)
  | .handleConn (.list p ref _) | .handleConn (.drain p ref)
  | .readPeer (.record p ref _ _ _) | .readPeer (.age p ref _ _ _)
  | .readPeer (.bufferIfAlone p ref _ _)
  | .readPeer (.otherConn p ref _ _) => some (p, ref)
  | _ => none

/-- Everybody in a bucket, and every frame in it, belongs there. -/
structure Housed (s : State) (acts : List Act) : Prop where
  wired : ∀ id ref, s.calls.reg.m.get? id = some ref →
    ∃ b, s.bucket? ref = some b ∧ b.id = id
  informed : ∀ act ∈ acts, act.Informed s
  seats : ∀ ref b slot q conn, s.bucket? ref = some b →
    b.peers slot = some q → q.connected = true → q.conn = some conn →
    (s.peers conn).bucket = b.id
  buffers : ∀ ref b f, s.bucket? ref = some b → f ∈ b.buffer →
    (s.peers f.data.sender).slot.isSome ∧
      (s.peers f.data.sender).bucket = b.id
  queued : ∀ q out, out ∈ (s.peers q).queued → out.Stays s q
  works : ∀ act ∈ acts, ∀ p ref, act.worksIn = some (p, ref) → s.InRoom p ref
  queues : ∀ act ∈ acts, ∀ q out, act.queues = some (q, out) → out.Stays s q

theorem Act.joined_of_worksIn {act : Act} {p : PeerRef} {ref : Ref}
    (works : act.worksIn = some (p, ref)) : act.joined = some p := by
  unfold Act.worksIn at works
  split at works
  case h_7 => cases works
  all_goals
    obtain ⟨rfl, -⟩ := Prod.mk.inj (Option.some.inj works)
    rfl

section Step

variable {oracle : Oracle} {s s' : State} {act : Act}
  {acts others : List Act} {p q : PeerRef} {ref : Ref}

/-! ## What a step keeps -/

/-- A peer with a slot stays in its bucket. -/
theorem bucket_kept (seating : Seating s (act :: others))
    (next : act.next oracle s = some (s', acts))
    (assigned : (s.peers p).slot.isSome) :
    (s'.peers p).bucket = (s.peers p).bucket := by
  have old : p ≠ s.allocated := by
    rintro rfl
    rw [seating.fresh s.allocated le_rfl] at assigned
    cases assigned
  exact (act.next_lasting next old).1

theorem Outbound.Stays.mono (seating : Seating s (act :: others))
    (next : act.next oracle s = some (s', acts)) {out : Outbound}
    (stays : out.Stays s q) : out.Stays s' q := by
  cases out with
  | control | pong => trivial
  | data frame binary =>
      obtain ⟨sender, receiver, same⟩ := stays
      have kept := seating.slotsKept next
      refine ⟨kept.isSome sender, kept.isSome receiver, ?_⟩
      rw [bucket_kept seating next sender, bucket_kept seating next receiver,
        same]

theorem State.InRoom.mono (seating : Seating s (act :: others))
    (next : act.next oracle s = some (s', acts))
    (assigned : (s.peers p).slot.isSome) (inRoom : s.InRoom p ref) :
    s'.InRoom p ref := by
  obtain ⟨b, found, same⟩ := inRoom
  obtain ⟨b', found', kept, -⟩ := act.next_extends next ref b found
  refine ⟨b', found', ?_⟩
  rw [kept, same, bucket_kept seating next assigned]

/-- The bucket a join has attached to is the one it was after. -/
theorem target_of_returned {shared shared' : Shared PeerRef Frame}
    {oracle : Server.Oracle} {call : Call PeerRef} {args : JoinArgs PeerRef}
    {result : JoinResult}
    (step : CallStep oracle shared call shared'
      (.join (.returned args result))) :
    call.target = some (args.id, result.bucket) := by
  cases step with
  | joinCreate => rfl
  | @joinAttach _ now target =>
      rw [Registry.joinAttach_bucket]
      rfl

/-- A peer found in a seat belongs there. -/
theorem seats_housed_step (seating : Seating s (act :: others))
    (housed : Housed s (act :: others))
    (next : act.next oracle s = some (s', acts)) :
    ∀ ref b slot q conn, s'.bucket? ref = some b → b.peers slot = some q →
      q.connected = true → q.conn = some conn →
      (s'.peers conn).bucket = b.id := by
  intro ref b slot q conn found occupied connected stored
  have old : ∀ {c : Bucket PeerRef Frame} {q' : Server.Peer PeerRef},
      s.bucket? ref = some c → c.peers slot = some q' →
      q'.connected = true → q'.conn = some conn →
      (s'.peers conn).bucket = b.id := by
    intro c q' cFound before connected' stored'
    obtain ⟨b', found', kept, -⟩ := act.next_extends next ref c cFound
    obtain rfl := Option.some.inj (found.symm.trans found')
    have seated := seating.seats ref c slot q' conn cFound before stored'
    rw [kept, bucket_kept seating next (by rw [seated]; rfl)]
    exact housed.seats ref c slot q' conn cFound before connected' stored'
  rcases act.connected_origin next found occupied connected with
    ⟨c, q', cFound, before, connected', sameConn⟩ | ⟨p, fresh, returned⟩
  · exact old cFound before connected' (sameConn.trans stored)
  · obtain rfl := Option.some.inj (fresh.symm.trans stored)
    cases returned with
    | @join req existed p call result step accepted told =>
        obtain ⟨conn, sameId, young, targeted⟩ :=
          housed.informed _ List.mem_cons_self
        obtain ⟨c, cFound, cId⟩ := targeted _ _ (target_of_returned step)
        obtain ⟨b', found', kept, -⟩ :=
          (Act.handleConn (.join req existed p call)).next_extends next
            _ c cFound
        obtain rfl := Option.some.inj (found.symm.trans found')
        have lasting := (Act.next_lasting next (p := p)
          (Nat.ne_of_lt young)).1
        rw [kept, cId, conn, sameId, lasting]

/-- A frame found in a buffer belongs there. -/
theorem housed_buffers_step (seating : Seating s (act :: others))
    (housed : Housed s (act :: others))
    (next : act.next oracle s = some (s', acts)) :
    ∀ ref b f, s'.bucket? ref = some b → f ∈ b.buffer →
      (s'.peers f.data.sender).slot.isSome ∧
        (s'.peers f.data.sender).bucket = b.id := by
  intro ref b f found member
  have kept := seating.slotsKept next
  have old : ∀ {c : Bucket PeerRef Frame}, s.bucket? ref = some c →
      f ∈ c.buffer → (s'.peers f.data.sender).slot.isSome ∧
        (s'.peers f.data.sender).bucket = b.id := by
    intro c cFound before
    obtain ⟨b', found', keptId, -⟩ := act.next_extends next ref c cFound
    obtain rfl := Option.some.inj (found.symm.trans found')
    obtain ⟨assigned, same⟩ := housed.buffers ref c f cFound before
    refine ⟨kept.isSome assigned, ?_⟩
    rw [keptId, bucket_kept seating next assigned, same]
  rcases act.buffer_origin next found member with
    ⟨c, cFound, before⟩ | ⟨data, binary, rfl⟩
  · exact old cFound before
  · have assigned := seating.joined _ List.mem_cons_self f.data.sender rfl
    obtain ⟨b', found', same⟩ := (housed.works _ List.mem_cons_self
      f.data.sender ref rfl).mono seating next assigned
    obtain rfl := Option.some.inj (found.symm.trans found')
    exact ⟨kept.isSome assigned, same.symm⟩

/-- What a peer has got was for it. -/
theorem housed_queued_step (seating : Seating s (act :: others))
    (housed : Housed s (act :: others))
    (next : act.next oracle s = some (s', acts)) :
    ∀ q out, out ∈ (s'.peers q).queued → out.Stays s' q := by
  intro q out member
  have old : out ∈ (s.peers q).queued → out.Stays s' q :=
    fun before => (housed.queued q out before).mono seating next
  cases act.next_write next with
  | none same =>
      rw [same] at member
      exact old member
  | @one p peer change written =>
      rw [written] at member
      by_cases same : q = p
      · subst same
        rw [Function.update_self] at member
        cases change with
        | allocated => cases member
        | queued sent room =>
            rcases List.mem_append.mp member with earlier | last
            · exact old earlier
            · obtain rfl := List.mem_singleton.mp last
              exact (housed.queues _ List.mem_cons_self _ _ rfl).mono
                seating next
        | _ => exact old member
      · rw [Function.update_of_ne same] at member
        exact old member

theorem closeBucketPeers_worksIn {b : Ref} {act' : Act}
    (started : act' ∈ closeBucketPeers p b) : act'.worksIn = none := by
  simp only [closeBucketPeers, List.mem_cons, List.not_mem_nil,
    or_false] at started
  rcases started with rfl | rfl | rfl <;> rfl

/-- An activation comes to work in a bucket by its join, by a lookup under its
peer's bucket, or from the one it was in. -/
theorem worksIn_from (next : act.next oracle s = some (s', acts))
    {act' : Act} (started : act' ∈ acts)
    (works : act'.worksIn = some (p, ref)) :
    act.worksIn = some (p, ref) ∨
      (act.joined = some p ∧
        s.calls.reg.m.get? (s.peers p).bucket = some ref) ∨
      ∃ req existed call calls args result,
        act = .handleConn (.join req existed p call) ∧
        call.next oracle.toOracle s.calls =
          some (calls, .returned args result) ∧
        result.rejected = false ∧ result.bucket = ref := by
  cases act with
  | handleConn call =>
      cases call with
      | join req existed q call =>
          right
          right
          simp only [Act.next, HandleConn.next] at next
          split at next
          · cases next
          · rename_i calls args result taken
            split at next <;> cases next
            · unfold refuse at started
              split at started
              · cases started
              · cases List.mem_singleton.mp started
                cases works
            · rename_i accepted
              cases List.mem_singleton.mp started
              obtain ⟨rfl, rfl⟩ := Prod.mk.inj (Option.some.inj works)
              exact ⟨req, existed, call, calls, args, result, rfl, taken,
                Bool.eq_false_iff.mpr accepted, rfl⟩
          · cases next
            cases List.mem_singleton.mp started
            cases works
      | list q b slot =>
          left
          cases next
          simp only [List.mem_cons, List.not_mem_nil, or_false] at started
          rcases started with rfl | rfl | rfl
          · cases works
          · cases works
          · exact works
      | drain q b =>
          simp only [Act.next, HandleConn.next] at next
          split at next
          · cases next
          · cases next
            rcases List.mem_append.mp started with handed | last
            · obtain ⟨f, -, rfl⟩ := List.mem_map.mp handed
              cases works
            · cases List.mem_singleton.mp last
              cases works
      | _ => grind [Act.next, HandleConn.next, Act.worksIn, refuse]
  | readPeer call =>
      cases call with
      | get q data binary now =>
          right
          left
          simp only [Act.next, ReadPeer.next] at next
          split at next
          · cases next
          · split at next
            · cases next
              simp only [List.mem_cons, List.not_mem_nil, or_false] at started
              rcases started with rfl | rfl <;> cases works
            · rename_i b registered
              cases next
              simp only [List.mem_cons, List.not_mem_nil, or_false] at started
              rcases started with rfl | rfl
              · cases works
              · obtain ⟨rfl, rfl⟩ := Prod.mk.inj (Option.some.inj works)
                exact ⟨rfl, registered⟩
      | loop q =>
          cases next
          cases List.mem_singleton.mp started
          split at works <;> cases works
      | record q b data binary now =>
          left
          simp only [Act.next, ReadPeer.next] at next
          split at next
          · split at next
            · cases next
            · cases next
              split at started
              · rw [closeBucketPeers_worksIn started] at works
                cases works
              · cases List.mem_singleton.mp started
                exact works
          · cases next
            cases List.mem_singleton.mp started
            exact works
      | age q b data binary now =>
          left
          simp only [Act.next, ReadPeer.next] at next
          split at next
          · cases next
          · cases next
            split at started
            · rw [closeBucketPeers_worksIn started] at works
              cases works
            · cases List.mem_singleton.mp started
              exact works
      | bufferIfAlone q b data binary =>
          left
          simp only [Act.next, ReadPeer.next] at next
          split at next
          · cases next
          · cases next
            cases List.mem_singleton.mp started
            split at works
            · cases works
            · exact works
      | idle q =>
          cases next
          cases List.mem_singleton.mp started
          split at works <;> cases works
      | _ => grind [Act.next, ReadPeer.next, Act.worksIn]
  | dropPeer call =>
      cases call <;> grind [Act.next, DropPeer.next, Act.worksIn, afterLeave]
  | writeLoop call =>
      cases call <;> grind [Act.next, WriteLoop.next, Act.worksIn]
  | _ => grind [Act.next, Act.worksIn]

/-- An activation that comes to work in a bucket belongs there. -/
theorem works_step (seating : Seating s (act :: others))
    (housed : Housed s (act :: others))
    (next : act.next oracle s = some (s', acts)) {act' : Act}
    (started : act' ∈ acts) (works : act'.worksIn = some (p, ref)) :
    s'.InRoom p ref := by
  rcases worksIn_from next started works with
    old | ⟨joined, registered⟩ |
    ⟨req, existed, call, calls, args, result, rfl, taken, accepted, rfl⟩
  · have assigned := seating.joined act List.mem_cons_self p
      (Act.joined_of_worksIn old)
    exact (housed.works act List.mem_cons_self p ref old).mono seating next
      assigned
  · have assigned := seating.joined act List.mem_cons_self p joined
    have inRoom : s.InRoom p ref := housed.wired _ ref registered
    exact inRoom.mono seating next assigned
  · obtain ⟨conn, sameId, young, targeted⟩ :=
      housed.informed _ List.mem_cons_self
    obtain rfl := call.next_args taken
    obtain ⟨b, found, bucketId⟩ :=
      targeted _ _ (target_of_returned (call.next_step taken))
    obtain ⟨b', found', kept, -⟩ :=
      (Act.handleConn (.join req existed p call)).next_extends next _ b found
    have lasting := (Act.next_lasting next (Nat.ne_of_lt young)).1
    exact ⟨b', found', by rw [kept, bucketId, sameId, lasting]⟩

/-- The lookup of a reader finds a peer of its own bucket. -/
theorem receiver_stays_in (seating : Seating s (act :: others))
    (housed : Housed s (act :: others)) {frame : Frame} {binary : Bool}
    (running : act = .readPeer
      (.otherConn frame.sender ref frame.data binary))
    (receives : s.receiver? frame.sender ref = some q) :
    (Outbound.data frame binary).Stays s q := by
  subst running
  obtain ⟨b, seat, found, occupied, connected, stored⟩ :=
    State.receiver?_eq_some.mp receives
  obtain ⟨c, cFound, own⟩ :=
    housed.works _ List.mem_cons_self frame.sender ref rfl
  obtain rfl := Option.some.inj (found.symm.trans cFound)
  have seated := seating.seats ref b _ seat q found occupied stored
  have sender := seating.joined _ List.mem_cons_self frame.sender rfl
  refine ⟨sender, by rw [seated]; rfl, ?_⟩
  rw [← own, housed.seats ref b _ seat q found occupied connected stored]

/-- What a drain hands to its peer was read in the bucket of that peer. -/
theorem drained_stays
    (seating : Seating s (.handleConn (.drain q ref) :: others))
    (housed : Housed s (.handleConn (.drain q ref) :: others))
    (next : (Act.handleConn (.drain q ref)).next oracle s = some (s', acts))
    {out : Outbound} (handed : .enqueue q out ∈ acts) : out.Stays s q := by
  simp only [Act.next, HandleConn.next] at next
  split at next
  · cases next
  · rename_i b found
    cases next
    simp only [List.mem_append, List.mem_map, Act.enqueue.injEq,
      List.mem_singleton, reduceCtorEq, or_false] at handed
    obtain ⟨f, drained, -, rfl⟩ := handed
    have buffered : f ∈ b.buffer := List.mem_of_mem_filter drained
    obtain ⟨sender, here⟩ := housed.buffers ref b f found buffered
    obtain ⟨c, cFound, own⟩ := housed.works _ List.mem_cons_self q ref rfl
    obtain rfl := Option.some.inj (found.symm.trans cFound)
    exact ⟨sender, seating.joined _ List.mem_cons_self q rfl, here.trans own⟩

/-- What comes to be queued for a peer is for it. -/
theorem queues_housed_step (seating : Seating s (act :: others))
    (housed : Housed s (act :: others))
    (next : act.next oracle s = some (s', acts)) {act' : Act}
    (started : act' ∈ acts) {out : Outbound}
    (queues : act'.queues = some (q, out)) : out.Stays s' q := by
  cases out with
  | control | pong => trivial
  | data frame binary =>
      unfold Act.queues at queues
      split at queues
      · obtain ⟨rfl, rfl⟩ := Prod.mk.inj (Option.some.inj queues)
        rcases frame_from next started with
          ⟨ref, running, receives⟩ | ⟨ref, rfl⟩ | rfl
        · exact (receiver_stays_in seating housed running receives).mono
            seating next
        · exact (drained_stays seating housed next started).mono seating next
        · exact (housed.queues _ List.mem_cons_self _ _ rfl).mono seating next
      · obtain ⟨rfl, rfl⟩ := Prod.mk.inj (Option.some.inj queues)
        obtain ⟨rfl, -, -, -⟩ := send_from next started
        exact (housed.queues _ List.mem_cons_self _ _ rfl).mono seating next
      · obtain ⟨rfl, rfl⟩ := Prod.mk.inj (Option.some.inj queues)
        exact absurd rfl (ping_from next started frame binary)
      · cases queues

theorem Housed.step (housed : Housed s (act :: others))
    (seating : Seating s (act :: others))
    (next : act.next oracle s = some (s', acts)) :
    Housed s' (acts ++ (act.forks oracle s ++ others)) where
  wired := wired_step next housed.wired
  informed := by
    intro act' member
    rcases List.mem_append.mp member with started | rest
    · exact act.next_informed housed.wired
        (housed.informed act List.mem_cons_self) next act' started
    · rcases List.mem_append.mp rest with forked | waits
      · exact Act.informed_of_not_joining
          (act.forks_joining oracle s act' forked)
      · exact (housed.informed act' (List.mem_cons_of_mem _ waits)).mono next
  seats := seats_housed_step seating housed next
  buffers := housed_buffers_step seating housed next
  queued := housed_queued_step seating housed next
  works := by
    intro act' member p ref works
    rcases List.mem_append.mp member with started | rest
    · exact works_step seating housed next started works
    · rcases List.mem_append.mp rest with forked | waits
      · rcases Act.forks_cases forked with
          ⟨_, rfl⟩ | ⟨_, rfl⟩ | ⟨_, rfl⟩ <;> cases works
      · have later := List.mem_cons_of_mem act waits
        exact (housed.works act' later p ref works).mono seating next
          (seating.joined act' later p (Act.joined_of_worksIn works))
  queues := by
    intro act' member q out queues
    rcases List.mem_append.mp member with started | rest
    · exact queues_housed_step seating housed next started queues
    · rcases List.mem_append.mp rest with forked | waits
      · rcases Act.forks_cases forked with
          ⟨_, rfl⟩ | ⟨_, rfl⟩ | ⟨_, rfl⟩ <;> cases queues
      · exact (housed.queues act' (List.mem_cons_of_mem act waits) q out
          queues).mono seating next

end Step

/-! ## Runs -/

theorem housed_started (cfg : Limits) (buckets : Config)
    (createPerMin maxBuckets : Int) :
    Housed (New cfg buckets createPerMin maxBuckets) [] where
  wired := by simp [New, newRegistry]
  informed := by simp
  seats := by simp [State.bucket?, New, newRegistry]
  buffers := by simp [State.bucket?, New, newRegistry]
  queued := by simp [New, Peer.zero]
  works := by simp
  queues := by simp

theorem Housed.perm {s : State} {acts acts' : List Act}
    (housed : Housed s acts) (same : acts.Perm acts') : Housed s acts' where
  wired := housed.wired
  informed := fun act member => housed.informed act (same.mem_iff.mpr member)
  seats := housed.seats
  buffers := housed.buffers
  queued := housed.queued
  works := fun act member => housed.works act (same.mem_iff.mpr member)
  queues := fun act member => housed.queues act (same.mem_iff.mpr member)

theorem Housed.spawn {s : State} {act : Act} {acts : List Act}
    (housed : Housed s acts) (entry : act.Entry) :
    Housed s (act :: acts) where
  wired := housed.wired
  informed := by
    intro other member
    rcases List.mem_cons.mp member with rfl | member
    · exact Act.informed_of_not_joining entry.idle.2.2
    · exact housed.informed other member
  seats := housed.seats
  buffers := housed.buffers
  queued := housed.queued
  works := by
    intro other member p ref works
    rcases List.mem_cons.mp member with rfl | member
    · have joined := Act.joined_of_worksIn works
      rw [entry.idle.1] at joined
      cases joined
    · exact housed.works other member p ref works
  queues := by
    intro other member q out queues
    rcases List.mem_cons.mp member with rfl | member
    · rw [entry.idle.2.1] at queues
      cases queues
    · exact housed.queues other member q out queues

/-- In every reachable state, whatever has interleaved, each frame that a peer
has got was read from a peer that asked for the same bucket, and so was each
frame that waits in the offline buffer of a bucket. -/
theorem rooms_isolated (cfg : Limits) (buckets : Config)
    (createPerMin maxBuckets : Int) {pool : Pool State Act}
    (reachable : (relay.system
      (Started cfg buckets createPerMin maxBuckets)).Reachable pool) :
    (∀ q frame binary, .data frame binary ∈ (pool.shared.peers q).queued →
      (pool.shared.peers frame.sender).bucket =
        (pool.shared.peers q).bucket) ∧
    ∀ ref b f, pool.shared.bucket? ref = some b → f ∈ b.buffer →
      (pool.shared.peers f.data.sender).bucket = b.id := by
  have both : Seating pool.shared pool.acts ∧
      Housed pool.shared pool.acts := by
    refine Program.invariant (fun s acts => Seating s acts ∧ Housed s acts)
      ?perm ?initially ?spawned ?preserved
      (Program.reachable_unrestricted reachable)
    case perm =>
      exact fun same both => ⟨both.1.perm same, both.2.perm same⟩
    case initially =>
      rintro _ rfl
      exact ⟨seating_started cfg buckets createPerMin maxBuckets,
        housed_started cfg buckets createPerMin maxBuckets⟩
    case spawned =>
      exact fun entry both => ⟨both.1.spawn entry, both.2.spawn entry⟩
    case preserved =>
      exact fun both next _ =>
        ⟨both.1.step next, both.2.step both.1 next⟩
  obtain ⟨-, housed⟩ := both
  constructor
  · intro q frame binary member
    exact (housed.queued q _ member).2.2
  · intro ref b f found member
    exact (housed.buffers ref b f found member).2

/-- Alice and Bob talk in one room, and Carol sends a frame in another one. -/
private def roomsMoves : List (Program.Move Act Oracle) :=
  conversationMoves ++
    .spawn (.handleConn (.get ⟨"attic", "carol", "", "192.0.2.3"⟩)) ::
    runs 6 14 ++ [polls 2 false] ++ runs 8 1 ++ runs 9 4 ++ reads 9 [3] ++
    runs 9 6

/-- Alice's frames have got to Bob, and Carol's waits in the buffer of her
room. -/
theorem rooms_isolated_conversation :
    ∃ pool, (relay.system (Started roomLimits roomConfig 10 10)).Reachable
        pool ∧
      (pool.shared.peers 1).queued.drop 2 =
        [.data ⟨[1], 0⟩ true, .data ⟨[2], 0⟩ true] ∧
      (∃ b, pool.shared.bucket? 1 = some b ∧ b.id = "attic" ∧
        b.buffer.map (fun f => f.data) = [⟨[3], 2⟩]) ∧
      (∀ q frame binary, .data frame binary ∈ (pool.shared.peers q).queued →
        (pool.shared.peers frame.sender).bucket =
          (pool.shared.peers q).bucket) ∧
      ∀ ref b f, pool.shared.bucket? ref = some b → f ∈ b.buffer →
        (pool.shared.peers f.data.sender).bucket = b.id := by
  have talking : (relay.play ⟨New roomLimits roomConfig 10 10, []⟩
      roomsMoves).any (fun played =>
        ((played.2.shared.peers 1).queued.drop 2 =
          [.data ⟨[1], 0⟩ true, .data ⟨[2], 0⟩ true] : Bool) &&
        (played.2.shared.bucket? 1).any fun b => b.id = "attic" &&
          (b.buffer.map (fun f => f.data) = [⟨[3], 2⟩] : Bool)) = true := by
    decide +kernel
  obtain ⟨⟨trace, pool⟩, played, check⟩ :=
    (Option.any_eq_true _ _).mp talking
  simp only [Bool.and_eq_true, decide_eq_true_eq, Option.any_eq_true] at check
  obtain ⟨queued, buffered⟩ := check
  have reachable := (Lts.Reachable.start rfl).run (played_run played rfl)
  exact ⟨pool, reachable, queued, buffered,
    rooms_isolated roomLimits roomConfig 10 10 reachable⟩

end Byteln.Server.Relay

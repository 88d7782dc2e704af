import Byteln.Server.Seating

/-!
# Frames cross to the other seat

A frame read from the peer in one seat should only reach a peer in the other.
Live forwarding looks the receiver up in the other seat.  The offline buffer
does not record the seat a frame came from, and the next connection to join
drains it, whichever seat it takes: `DrainsOther` excludes that one step.
-/

namespace Byteln.Server.Relay

open Byteln.Library

/-! ## The invariant is kept -/

section Step

variable {oracle : Oracle} {s s' : State} {act : Act}
  {acts others : List Act}

private theorem buffers_step (origins : Origins s (act :: others))
    (next : act.next oracle s = some (s', acts)) :
    ∀ ref b f, s'.bucket? ref = some b → f ∈ b.buffer →
      (s'.peers f.data.sender).slot.isSome := by
  have kept := origins.slotsKept next
  intro ref b f found member
  rcases act.buffer_origin next found member with
    ⟨b', found', member'⟩ | ⟨data, binary, rfl⟩
  · exact kept.isSome (origins.buffers ref b' f found' member')
  · exact kept.isSome ((origins.placed _
      List.mem_cons_self).joined f.data.sender rfl)

private theorem queued_step (origins : Origins s (act :: others))
    (next : act.next oracle s = some (s', acts)) :
    ∀ q out, out ∈ (s'.peers q).queued → out.Crosses s' q := by
  have kept := origins.slotsKept next
  intro q out member
  have old : out ∈ (s.peers q).queued → out.Crosses s' q :=
    fun member => (origins.queued q out member).mono kept
  cases act.next_peers next with
  | tame same => exact old ((same q).queued ▸ member)
  | allocated _ noFrames _ sameElsewhere =>
      by_cases new : q = s.allocated
      · subst q
        simp [noFrames] at member
      · exact old (sameElsewhere q new ▸ member)
  | @seated _ _ p _ _ peers | @started p _ peers =>
      rw [peers] at member
      by_cases same : q = p
      · subst q
        rw [State.modifyPeer_self] at member
        exact old member
      · rw [State.modifyPeer_of_ne _ _ same] at member
        exact old member
  | @queued p sent peers =>
      rw [peers] at member
      by_cases same : q = p
      · subst q
        rw [State.modifyPeer_self] at member
        rcases List.mem_append.mp member with earlier | last
        · exact old earlier
        · obtain rfl := List.mem_singleton.mp last
          exact ((origins.placed _ (List.mem_cons_self ..)).queues _ out
            rfl).mono kept
      · rw [State.modifyPeer_of_ne _ _ same] at member
        exact old member

theorem Origins.step (origins : Origins s (act :: others))
    (drains : DrainsOther s act oracle)
    (next : act.next oracle s = some (s', acts)) :
    Origins s' (acts ++ (act.forks oracle s ++ others)) := by
  have seating := origins.seating.step next
  refine ⟨seating.seats, buffers_step origins next, queued_step origins next,
    seating.polled, seating.fresh, seating.joining, seating.unseated, ?_⟩
  intro other member
  rcases List.mem_append.mp member with left | rest
  · exact act.next_placed origins drains next other left
  · rcases List.mem_append.mp rest with forked | waits
    · exact act.forks_placed origins next other forked
    · exact (origins.placed other (by simp [waits])).mono
        (origins.slotsKept next)

end Step

/-! ## Runs -/

theorem origins_started (cfg : Limits) (buckets : Config)
    (createPerMin maxBuckets : Int) :
    Origins (New cfg buckets createPerMin maxBuckets) [] where
  seats := by simp [State.bucket?, New, newRegistry]
  buffers := by simp [State.bucket?, New, newRegistry]
  queued := by simp [New, Peer.zero]
  polled := by simp [New, Peer.zero]
  fresh := by simp [New, Peer.zero]
  joining := by simp
  unseated := by simp
  placed := by simp

theorem Origins.perm {s : State} {acts acts' : List Act}
    (origins : Origins s acts) (same : acts.Perm acts') :
    Origins s acts' where
  seats := origins.seats
  buffers := origins.buffers
  queued := origins.queued
  polled := origins.polled
  fresh := origins.fresh
  joining := (same.filterMap _).nodup_iff.mp origins.joining
  unseated := fun p member =>
    origins.unseated p ((same.filterMap _).mem_iff.mpr member)
  placed := fun act member => origins.placed act (same.mem_iff.mpr member)

theorem Origins.spawn {s : State} {act : Act} {acts : List Act}
    (origins : Origins s acts) (entry : act.Entry) :
    Origins s (act :: acts) where
  seats := origins.seats
  buffers := origins.buffers
  queued := origins.queued
  polled := origins.polled
  fresh := origins.fresh
  joining := by
    rw [List.filterMap_cons_none entry.idle.2.2]
    exact origins.joining
  unseated := by
    rw [List.filterMap_cons_none entry.idle.2.2]
    exact origins.unseated
  placed := by
    intro other member
    rcases List.mem_cons.mp member with rfl | member
    · exact entry.idle.placed s
    · exact origins.placed other member

/-- Every frame handed to `Enqueue` goes to a peer in the other slot. -/
def HandsAcross (s : State) (acts : List Act) : Prop :=
  ∀ q frame binary, .enqueue q (.data frame binary) ∈ acts → frame.Crosses s q

/-- Along every run in which no connection drains a frame of its own seat, no
peer ever gets a frame that was read in its own slot.  From every state such a
run reaches, a step hands frames to the other slot only, exactly when it meets
the condition. -/
theorem forwarded_crosses (cfg : Limits) (buckets : Config)
    (createPerMin maxBuckets : Int) {pool : Pool State Act}
    (reachable : ((relay.system
      (Started cfg buckets createPerMin maxBuckets)).restrict
      (Program.OnRun DrainsOther)).Reachable pool) :
    (∀ q frame binary, .data frame binary ∈ (pool.shared.peers q).queued →
      frame.Crosses pool.shared q) ∧
    ∀ act ∈ pool.acts, ∀ oracle s' acts,
      relay.next oracle act pool.shared = some (s', acts) →
      (DrainsOther pool.shared act oracle ↔ HandsAcross s' acts) := by
  have origins : Origins pool.shared pool.acts := by
    refine Program.invariant Origins ?perm ?initially ?spawned ?preserved
      reachable
    case perm => exact fun same origins => origins.perm same
    case initially =>
      rintro _ rfl
      exact origins_started cfg buckets createPerMin maxBuckets
    case spawned => exact fun entry origins => origins.spawn entry
    case preserved => exact fun origins next drains => origins.step drains next
  refine ⟨fun q frame binary member => origins.queued q _ member, ?_⟩
  intro act member oracle s' acts next
  constructor
  · intro drains q frame binary handed
    obtain ⟨before, after, split⟩ := List.append_of_mem member
    have running : Origins pool.shared (act :: (before ++ after)) :=
      origins.perm (split ▸ List.perm_middle)
    exact (act.next_placed running drains next _ handed).queues q _ rfl
  · intro across
    unfold DrainsOther
    split
    · rename_i p ref
      intro b found f buffered unexpired same
      simp only [relay, Act.next, HandleConn.next, found,
        Bucket.drainBuffer, Option.some.injEq, Prod.mk.injEq] at next
      obtain ⟨rfl, rfl⟩ := next
      have drained : f ∈ pruneBuffer oracle.now b.buffer :=
        List.mem_filter.mpr ⟨buffered, decide_eq_true unexpired⟩
      obtain ⟨a, c, sender, receiver, different⟩ :=
        across p f.data f.binary
          (List.mem_append_left _ (List.mem_map.mpr ⟨f, drained, rfl⟩))
      simp only [State.setBucket] at sender receiver
      rw [sender, receiver] at same
      exact different (Option.some.inj same)
    · trivial

/-- Alice sends a frame while she is alone and another one after Bob has
joined. -/
def conversationMoves : List (Program.Move Act Oracle) :=
  [connects "alice" "192.0.2.1"] ++ runs 0 14 ++ [polls 0 false] ++ runs 2 1 ++
    runs 3 4 ++ reads 3 [1] ++ runs 3 6 ++ [connects "bob" "192.0.2.2"] ++
    runs 4 23 ++ reads 3 [2] ++ runs 3 9

/-- The condition, as a test. -/
private def drainsOther (step : Pool State Act × PoolLabel Act Oracle) : Bool :=
  match step.2 with
  | .run (.handleConn (.drain p ref)) oracle =>
      (step.1.shared.bucket? ref).all fun b => b.buffer.all fun f =>
        decide (f.expiresAt ≤ oracle.now) ||
          (step.1.shared.peers f.data.sender).slot !=
            (step.1.shared.peers p).slot
  | _ => true

private theorem drainsOther_sound (pool : Pool State Act)
    (label : PoolLabel Act Oracle)
    (tested : drainsOther (pool, label) = true) :
    Program.OnRun DrainsOther pool label := by
  cases label with
  | spawn => trivial
  | run act oracle =>
      change DrainsOther pool.shared act oracle
      unfold DrainsOther
      split
      · intro b found f buffered unexpired
        simp only [drainsOther, found, Option.all_some, List.all_eq_true]
          at tested
        rcases (Bool.or_eq_true _ _).mp (tested f buffered) with old | other
        · exact absurd (of_decide_eq_true old) (not_le.mpr unexpired)
        · exact bne_iff_ne.mp other
      · trivial

/-- The frame Alice sends while she is alone is drained to Bob, and the next
one is forwarded to him, after the two control messages about his join. -/
theorem forwarded_crosses_conversation :
    ∃ pool, ((relay.system (Started roomLimits roomConfig 10 10)).restrict
        (Program.OnRun DrainsOther)).Reachable pool ∧
      (pool.shared.peers 1).queued.drop 2 =
        [.data ⟨[1], 0⟩ true, .data ⟨[2], 0⟩ true] ∧
      Frame.Crosses pool.shared ⟨[1], 0⟩ 1 ∧
      Frame.Crosses pool.shared ⟨[2], 0⟩ 1 ∧
      ∀ act ∈ pool.acts, ∀ oracle s' acts,
        relay.next oracle act pool.shared = some (s', acts) →
        (DrainsOther pool.shared act oracle ↔ HandsAcross s' acts) := by
  have conversation : (relay.play ⟨New roomLimits roomConfig 10 10, []⟩
      conversationMoves).any (fun played => played.1.all drainsOther &&
        (played.2.shared.peers 1).queued.drop 2 =
          [.data ⟨[1], 0⟩ true, .data ⟨[2], 0⟩ true]) = true := by
    decide +kernel
  obtain ⟨⟨trace, pool⟩, played, check⟩ :=
    (Option.any_eq_true _ _).mp conversation
  simp only [Bool.and_eq_true, decide_eq_true_eq] at check
  obtain ⟨tested, queued⟩ := check
  have reachable := (Lts.Reachable.start rfl).run
    (played_restrict drainsOther_sound played rfl tested)
  obtain ⟨crosses, across⟩ :=
    forwarded_crosses roomLimits roomConfig 10 10 reachable
  exact ⟨pool, reachable, queued,
    crosses 1 _ true (List.mem_of_mem_drop (by rw [queued]; simp)),
    crosses 1 _ true (List.mem_of_mem_drop (by rw [queued]; simp)), across⟩

/-- Alice connects, sends a frame while she is alone, and connects again. -/
private def rejoinRun : Option (Pool State Act) :=
  relay.execAll
    (busy [.handleConn (.get (roomRequest "alice" "192.0.2.1")),
      .handleConn (.get (roomRequest "alice" "192.0.2.1")), .event 0 false])
    (List.replicate 14 (0, fine 0) ++ [(2, fine 0)] ++
      List.replicate 4 (4, fine 0) ++ [(4, arriving [1])] ++
      List.replicate 6 (4, fine 0) ++ List.replicate 12 (1, fine 0))

/-- The second connection gets the frame the first one sent from the same
seat. -/
theorem own_frame_returned :
    ∃ pool, (relay.system (Started roomLimits roomConfig 10 10)).Reachable
        pool ∧
      .data ⟨[1], 0⟩ true ∈ (pool.shared.peers 1).queued ∧
      (pool.shared.peers 0).slot = some 0 ∧
      (pool.shared.peers 1).slot = some 0 ∧
      ¬ Frame.Crosses pool.shared ⟨[1], 0⟩ 1 := by
  have returned : rejoinRun.any (fun pool =>
      (.data ⟨[1], 0⟩ true ∈ (pool.shared.peers 1).queued : Bool) &&
        (pool.shared.peers 0).slot = some 0 &&
        (pool.shared.peers 1).slot = some 0) = true := by decide
  obtain ⟨pool, ran, check⟩ := (Option.any_eq_true _ _).mp returned
  simp only [Bool.and_eq_true, decide_eq_true_eq] at check
  obtain ⟨⟨queued, sender⟩, receiver⟩ := check
  refine ⟨pool, Program.execAll_run (busy_reachable (by simp [Act.Entry])) ran,
    queued, sender, receiver, ?_⟩
  rintro ⟨a, b, here, there, different⟩
  rw [sender] at here
  rw [receiver] at there
  exact different (Option.some.inj (here.symm.trans there))

end Byteln.Server.Relay

import Byteln.Server.Allocation

/-!
# Slots and joins

In every reachable state a peer has no slot until its one join has returned,
and a connection found in a seat is a peer of that slot.
-/

namespace Byteln.Server.Relay

open Byteln.Library

section Step

variable {oracle : Oracle} {s s' : State} {act : Act}
  {acts others : List Act}

/-! ## The invariant is kept -/

private theorem seats_step (seating : Seating s (act :: others))
    (next : act.next oracle s = some (s', acts)) :
    ∀ ref b slot q conn, s'.bucket? ref = some b → b.peers slot = some q →
      q.conn = some conn → (s'.peers conn).slot = some slot := by
  have kept := seating.slotsKept next
  intro ref b slot q conn found occupied stored
  rcases act.conn_origin next found occupied stored with
    ⟨b', q', found', occupied', stored'⟩ | returned
  · exact kept _ _ (seating.seats ref b' slot q' conn found' occupied' stored')
  · cases returned with
    | join _ _ told =>
        rw [seating.conn _ List.mem_cons_self _ _ _ _ rfl]
        exact told

private theorem polled_step (seating : Seating s (act :: others))
    (next : act.next oracle s = some (s', acts)) :
    ∀ p, (s'.peers p).polled = true → (s'.peers p).slot.isSome := by
  have kept := seating.slotsKept next
  intro p polled
  have old : (s.peers p).polled = true → (s'.peers p).slot.isSome :=
    fun polled => kept.isSome (seating.polled p polled)
  cases act.next_peers next with
  | tame same => exact old ((same p).polled polled)
  | allocated _ _ notPolled sameElsewhere =>
      by_cases new : p = s.allocated
      · subst p
        simp [notPolled] at polled
      · exact old (sameElsewhere p new ▸ polled)
  | @seated _ _ joiner _ _ peers =>
      rw [peers] at polled ⊢
      by_cases same : p = joiner
      · subst p
        rw [State.modifyPeer_self]
        rfl
      · rw [State.modifyPeer_of_ne _ _ same] at polled ⊢
        exact seating.polled p polled
  | @started starting _ _ =>
      by_cases same : p = starting
      · subst p
        exact kept.isSome (seating.joined _ (List.mem_cons_self ..) _ rfl)
      · rename_i peers _
        rw [peers, State.modifyPeer_of_ne _ _ same] at polled
        exact old polled
  | @queued receiver _ peers =>
      rw [peers] at polled
      by_cases same : p = receiver
      · subst p
        rw [State.modifyPeer_self] at polled
        exact old polled
      · rw [State.modifyPeer_of_ne _ _ same] at polled
        exact old polled

/-- A peer without a slot that is not in the running join gets none. -/
theorem slot_none_step (next : act.next oracle s = some (s', acts))
    {p : PeerRef} (unassigned : (s.peers p).slot = none)
    (other : act.joining ≠ some p) : (s'.peers p).slot = none := by
  cases act.next_peers next with
  | tame same => rw [(same p).slot, unassigned]
  | allocated slotless _ _ sameElsewhere =>
      by_cases new : p = s.allocated
      · exact new ▸ slotless
      · rw [sameElsewhere p new, unassigned]
  | @seated _ _ joiner _ _ peers =>
      have different : p ≠ joiner := by
        rintro rfl
        exact other rfl
      rw [peers, State.modifyPeer_of_ne _ _ different, unassigned]
  | @started started _ peers =>
      rw [peers]
      by_cases same : p = started
      · subst p
        rw [State.modifyPeer_self]
        exact unassigned
      · rw [State.modifyPeer_of_ne _ _ same, unassigned]
  | @queued receiver _ peers =>
      rw [peers]
      by_cases same : p = receiver
      · subst p
        rw [State.modifyPeer_self]
        exact unassigned
      · rw [State.modifyPeer_of_ne _ _ same, unassigned]

theorem closeBucketPeers_joined {p q : PeerRef} {b : Ref}
    (started : act ∈ closeBucketPeers p b) (works : act.joined = some q) :
    q = p := by
  simp only [closeBucketPeers, List.mem_cons, List.not_mem_nil, or_false]
    at started
  rcases started with rfl | rfl | rfl
  · cases works
  · cases works
  · exact (Option.some.inj works).symm

/-- A started activation works for the joined peer of the running one, or for
one whose join has just returned. -/
theorem Act.next_joined (next : act.next oracle s = some (s', acts))
    {act' : Act} (started : act' ∈ acts) {p : PeerRef}
    (works : act'.joined = some p) :
    act.joined = some p ∨ (s'.peers p).slot.isSome := by
  cases act with
  | handleConn call =>
      cases call with
      | join req existed q call =>
          simp only [Act.next, HandleConn.next] at next
          split at next
          · cases next
          · split at next <;> cases next
            · unfold refuse at started
              split at started
              · cases started
              · cases List.mem_singleton.mp started
                cases works
            · cases List.mem_singleton.mp started
              cases works
              right
              rw [State.modifyPeer_self]
              rfl
          · cases next
            cases List.mem_singleton.mp started
            cases works
      | _ =>
          left
          grind [Act.next, HandleConn.next, Act.joined, refuse]
  | readPeer call =>
      left
      cases call <;>
        grind [Act.next, ReadPeer.next, Act.joined, closeBucketPeers_joined]
  | dropPeer call =>
      left
      cases call <;> grind [Act.next, DropPeer.next, Act.joined, afterLeave]
  | writeLoop call =>
      left
      cases call <;> grind [Act.next, WriteLoop.next, Act.joined]
  | _ =>
      left
      grind [Act.next, Act.joined]

theorem Act.forks_joined (next : act.next oracle s = some (s', acts))
    {act' : Act} (forked : act' ∈ act.forks oracle s) {p : PeerRef}
    (works : act'.joined = some p) : (s.peers p).polled = true := by
  cases act with
  | event q hup =>
      simp only [Act.next] at next
      split at next
      · rename_i delivers
        simp only [Act.forks] at forked
        split_ifs at forked
        · cases forked
        · cases List.mem_singleton.mp forked
          cases works
        · cases List.mem_singleton.mp forked
          cases works
          exact delivers.1
      · cases next
  | ensureWriter q =>
      simp only [Act.forks] at forked
      split at forked
      · cases forked
      · cases List.mem_singleton.mp forked
        cases works
  | _ => cases forked

theorem Seating.step (seating : Seating s (act :: others))
    (next : act.next oracle s = some (s', acts)) :
    Seating s' (acts ++ (act.forks oracle s ++ others)) := by
  have forked := (act.forks_joining oracle s).filterMap
  have kept := seating.slotsKept next
  have later : (others.filterMap Act.joining).Nodup :=
    seating.joining.sublist ((List.sublist_cons_self _ _).filterMap _)
  have waiting : ∀ p ∈ others.filterMap Act.joining,
      p < s'.allocated ∧ (s'.peers p).slot = none ∧ p < s.allocated := by
    intro p member
    obtain ⟨old, unassigned⟩ := seating.unseated p (by
      simp only [List.mem_filterMap] at member ⊢
      obtain ⟨other, otherMember, joining⟩ := member
      exact ⟨other, List.mem_cons_of_mem act otherMember, joining⟩)
    refine ⟨old.trans_le (act.next_allocated_le next),
      slot_none_step next unassigned fun running => ?_, old⟩
    have distinct := seating.joining
    rw [List.filterMap_cons_some running, List.nodup_cons] at distinct
    exact distinct.1 member
  refine ⟨seats_step seating next, polled_step seating next, ?_, ?_, ?_, ?_,
    ?_⟩
  · intro p unallocated
    have fresh :=
      seating.fresh p ((act.next_allocated_le next).trans unallocated)
    refine slot_none_step next fresh fun running => ?_
    have old := (seating.unseated p (by simp [running])).1
    exact absurd ((act.next_allocated_le next).trans unallocated)
      (not_le_of_gt old)
  · rw [List.filterMap_append, List.filterMap_append, forked, List.nil_append]
    rcases act.next_joining next with
      none | ⟨p, running, left, -, -⟩ | ⟨-, left, -, -⟩
    · rwa [none.filterMap, List.nil_append]
    · have distinct := seating.joining
      rw [List.filterMap_cons_some running] at distinct
      rwa [left]
    · rw [left, List.singleton_append, List.nodup_cons]
      exact ⟨fun member => absurd (waiting _ member).2.2 (lt_irrefl _), later⟩
  · intro p member
    rw [List.filterMap_append, List.filterMap_append, forked, List.nil_append,
      List.mem_append] at member
    rcases member with new | waits
    · rcases act.next_joining next with
        none | ⟨p', running, left, samePeers, sameCount⟩ |
        ⟨-, left, slotless, counted⟩
      · simp [none.filterMap] at new
      · rw [left, List.mem_singleton] at new
        subst p'
        rw [samePeers, sameCount]
        exact seating.unseated p (by simp [running])
      · rw [left, List.mem_singleton] at new
        subst p
        exact ⟨(Nat.lt_succ_self _).trans_le counted.ge, slotless⟩
    · exact ⟨(waiting p waits).1, (waiting p waits).2.1⟩
  · intro act' member p works
    rcases List.mem_append.mp member with started | rest
    · rcases act.next_joined next started works with own | assigned
      · exact kept.isSome (seating.joined act (by simp) p own)
      · exact assigned
    · rcases List.mem_append.mp rest with forkedAct | waits
      · exact kept.isSome
          (seating.polled p (act.forks_joined next forkedAct works))
      · exact kept.isSome (seating.joined act' (by simp [waits]) p works)
  · intro act' member req existed p call isJoin
    subst isJoin
    rcases List.mem_append.mp member with started | rest
    · exact act.next_conn (seating.conn act (by simp)) next started
    · rcases List.mem_append.mp rest with forkedAct | waits
      · rcases Act.forks_cases forkedAct with
          ⟨_, same⟩ | ⟨_, same⟩ | ⟨_, same⟩ <;> cases same
      · exact seating.conn _ (by simp [waits]) req existed p call rfl

/-! ## Only joined peers are closed -/

/-- Whoever is worked for outside its join, or listed by the server, has a
slot, and only such a peer is ever closed. -/
structure Settled (s : State) (acts : List Act) : Prop where
  working : ∀ act ∈ acts, act.joining = none →
    ∀ p, act.peer? = some p → (s.peers p).slot.isSome
  live : ∀ p ∈ s.live, (s.peers p).slot.isSome
  unclosed : ∀ p, (s.peers p).slot = none → (s.peers p).closed = false

theorem Seating.slot_of_seated (seating : Seating s acts) {p : PeerRef}
    (seated : s.Seated p) : (s.peers p).slot.isSome := by
  obtain ⟨ref, b, slot, q, found, occupied, stored⟩ := seated
  rw [seating.seats ref b slot q p found occupied stored]
  rfl

/-- What a join leaves behind works for its peer, which has a slot then. -/
private theorem join_working {req : Request} {existed : Bool} {p q : PeerRef}
    {call : JoinCall PeerRef}
    (next : (Act.handleConn (.join req existed p call)).next oracle s =
      some (s', acts)) {act' : Act} (started : act' ∈ acts)
    (outside : act'.joining = none) (works : act'.peer? = some q) :
    (s'.peers q).slot.isSome := by
  simp only [Act.next, HandleConn.next] at next
  split at next
  · cases next
  · split at next <;> cases next
    · rw [refuse_peer? started] at works
      cases works
    · cases List.mem_singleton.mp started
      cases works
      rw [State.modifyPeer_self]
      rfl
  · cases next
    cases List.mem_singleton.mp started
    cases outside

private theorem working_next (seating : Seating s (act :: others))
    (settled : Settled s (act :: others))
    (next : act.next oracle s = some (s', acts)) {act' : Act}
    (started : act' ∈ acts) (outside : act'.joining = none) {p : PeerRef}
    (works : act'.peer? = some p) : (s'.peers p).slot.isSome := by
  have kept := seating.slotsKept next
  cases act.next_peer next started works with
  | own same =>
      by_cases idle : act.joining = none
      · exact kept.isSome (settled.working act (by simp) idle p same)
      · cases act with
        | handleConn call =>
            cases call with
            | join => exact join_working next started outside works
            | _ => exact absurd rfl idle
        | _ => exact absurd rfl idle
  | allocated req existed isUpgrade _ =>
      subst isUpgrade
      rcases upgrade_allocated next with ⟨-, rfl⟩ | ⟨-, rfl⟩
      · cases List.mem_singleton.mp started
        cases outside
      · rw [refuse_peer? started] at works
        cases works
  | seated seated => exact kept.isSome (seating.slot_of_seated seated)
  | listed listed => exact kept.isSome (settled.live p listed)

private theorem unclosed_step (seating : Seating s (act :: others))
    (settled : Settled s (act :: others))
    (next : act.next oracle s = some (s', acts)) {p : PeerRef}
    (unassigned : (s'.peers p).slot = none) :
    (s'.peers p).closed = false := by
  have before : (s.peers p).slot = none := by
    cases assigned : (s.peers p).slot with
    | none => rfl
    | some slot =>
        rw [seating.slotsKept next p slot assigned] at unassigned
        cases unassigned
  have isOpen := settled.unclosed p before
  cases act.next_write next with
  | none same => rwa [same]
  | @one q peer change written =>
      rw [written]
      by_cases same : p = q
      · subst same
        rw [Function.update_self]
        cases change with
        | allocated => rfl
        | closed =>
            have assigned := settled.working _ List.mem_cons_self rfl p rfl
            rw [before] at assigned
            cases assigned
        | _ => exact isOpen
      · rwa [Function.update_of_ne same]

theorem Settled.step (settled : Settled s (act :: others))
    (seating : Seating s (act :: others))
    (next : act.next oracle s = some (s', acts)) :
    Settled s' (acts ++ (act.forks oracle s ++ others)) := by
  have kept := seating.slotsKept next
  refine ⟨?_, ?_, fun p => unclosed_step seating settled next⟩
  · intro act' member outside p works
    rcases List.mem_append.mp member with started | rest
    · exact working_next seating settled next started outside works
    · rcases List.mem_append.mp rest with forked | waits
      · rcases Act.forks_peer next forked works with own | polled
        · have idle : act.joining = none := by
            cases act with
            | handleConn => cases forked
            | _ => rfl
          exact kept.isSome (settled.working act (by simp) idle p own)
        · exact kept.isSome (seating.polled p polled)
      · exact kept.isSome
          (settled.working act' (by simp [waits]) outside p works)
  · intro p listed
    rcases act.next_live next listed with before | ⟨b, slot, rfl⟩
    · exact kept.isSome (settled.live p before)
    · exact kept.isSome (seating.joined _ List.mem_cons_self p rfl)

/-! ## Connected seats store a connection -/

def Stocked (s : State) : Prop :=
  ∀ ref b slot q, s.bucket? ref = some b → b.peers slot = some q →
    q.connected = true → q.conn.isSome

theorem Stocked.step (stocked : Stocked s)
    (next : act.next oracle s = some (s', acts)) : Stocked s' := by
  intro ref b slot q found occupied connected
  rcases act.connected_origin next found occupied connected with
    ⟨b', q', found', occupied', connected', sameConn⟩ | ⟨conn, stored, -⟩
  · rw [← sameConn]
    exact stocked ref b' slot q' found' occupied' connected'
  · rw [stored]
    rfl

end Step

/-! ## Runs -/

theorem Seating.perm {s : State} {acts acts' : List Act}
    (seating : Seating s acts) (same : acts.Perm acts') :
    Seating s acts' where
  seats := seating.seats
  polled := seating.polled
  fresh := seating.fresh
  joining := (same.filterMap _).nodup_iff.mp seating.joining
  unseated := fun p member =>
    seating.unseated p ((same.filterMap _).mem_iff.mpr member)
  joined := fun act member => seating.joined act (same.mem_iff.mpr member)
  conn := fun act member => seating.conn act (same.mem_iff.mpr member)

theorem Seating.spawn {s : State} {act : Act} {acts : List Act}
    (seating : Seating s acts) (entry : act.Entry) :
    Seating s (act :: acts) where
  seats := seating.seats
  polled := seating.polled
  fresh := seating.fresh
  joining := by
    rw [List.filterMap_cons_none entry.idle.2.2]
    exact seating.joining
  unseated := by
    rw [List.filterMap_cons_none entry.idle.2.2]
    exact seating.unseated
  joined := by
    intro other member p works
    rcases List.mem_cons.mp member with rfl | member
    · rw [entry.idle.1] at works
      cases works
    · exact seating.joined other member p works
  conn := by
    intro other member req existed p call isJoin
    rcases List.mem_cons.mp member with rfl | member
    · subst isJoin
      exact entry.elim
    · exact seating.conn other member req existed p call isJoin

theorem seating_started (cfg : Limits) (buckets : Config)
    (createPerMin maxBuckets : Int) :
    Seating (New cfg buckets createPerMin maxBuckets) [] where
  seats := by simp [State.bucket?, New, newRegistry]
  polled := by simp [New, Peer.zero]
  fresh := by simp [New, Peer.zero]
  joining := by simp
  unseated := by simp
  joined := by simp
  conn := by simp

theorem Settled.perm {s : State} {acts acts' : List Act}
    (settled : Settled s acts) (same : acts.Perm acts') :
    Settled s acts' where
  working := fun act member => settled.working act (same.mem_iff.mpr member)
  live := settled.live
  unclosed := settled.unclosed

theorem Settled.spawn {s : State} {act : Act} {acts : List Act}
    (settled : Settled s acts) (entry : act.Entry) :
    Settled s (act :: acts) where
  working := by
    intro other member outside p works
    rcases List.mem_cons.mp member with rfl | member
    · rw [entry.peer?] at works
      cases works
    · exact settled.working other member outside p works
  live := settled.live
  unclosed := settled.unclosed

/-- The invariants of slots and seats, which hold in every reachable state. -/
structure WellSeated (pool : Pool State Act) : Prop where
  allocated : Allocated pool.shared pool.acts
  seating : Seating pool.shared pool.acts
  settled : Settled pool.shared pool.acts
  stocked : Stocked pool.shared

theorem WellSeated.started {cfg : Limits} {buckets : Config}
    {createPerMin maxBuckets : Int} {pool : Pool State Act}
    (started : Started cfg buckets createPerMin maxBuckets pool) :
    WellSeated pool := by
  rw [started]
  refine ⟨allocated_started cfg buckets createPerMin maxBuckets,
    seating_started cfg buckets createPerMin maxBuckets, ⟨?_, ?_, ?_⟩, ?_⟩
  · intro act member
    cases member
  · intro p listed
    cases listed
  · intro p _
    rfl
  · intro ref b slot q found
    cases found

theorem WellSeated.step {pool pool' : Pool State Act}
    {label : PoolLabel Act Oracle} (seated : WellSeated pool)
    (step : relay.Step pool label pool') : WellSeated pool' := by
  have allocated := seated.allocated.pool step
  cases label with
  | spawn act =>
      obtain ⟨entry, same, perm⟩ := Program.Step.spawn_inv step
      refine ⟨allocated, ?_, ?_, ?_⟩
      · rw [same]
        exact (seated.seating.spawn entry).perm perm.symm
      · rw [same]
        exact (seated.settled.spawn entry).perm perm.symm
      · rw [same]
        exact seated.stocked
  | run act oracle =>
      obtain ⟨acts, others, next, before, after⟩ := Program.Step.run_inv step
      have seating := seated.seating.perm before
      have settled := seated.settled.perm before
      exact ⟨allocated, (seating.step next).perm after.symm,
        (settled.step seating next).perm after.symm,
        seated.stocked.step next⟩

end Byteln.Server.Relay

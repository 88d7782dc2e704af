import Byteln.Library.Threads
import Byteln.Server.Forwarding

/-!
# Closed peers and the server's list

A peer can be dropped from its `Join` on, before `handleConn` has put it on the
server's list.  Listed after its teardown, it stays on the list for good; listed
after `Shutdown` has taken its snapshot, it is closed only if the poller, which
`Shutdown` closes last, refuses its descriptor.
-/

namespace Byteln.Server.Relay

open Byteln.Library

/-- The peer that a `dropPeer` has closed and not yet taken off the list. -/
def Act.tearing : Act → Option PeerRef
  | .dropPeer (.creatorIP p) | .dropPeer (.teardown p _)
  | .dropPeer (.unlist p _) => some p
  | _ => none

/-- The peer is off the list, and its descriptor is gone. -/
structure State.Torn (s : State) (p : PeerRef) : Prop where
  unlisted : p ∉ s.live
  noDesc : (s.peers p).desc = false
  notPolled : (s.peers p).polled = false

/-- Every closed peer whose teardown is done is torn down. -/
def Tidy (pool : Pool State Act) : Prop :=
  ∀ p, (pool.shared.peers p).closed = true →
    (∀ act ∈ pool.acts, act.tearing ≠ some p) → pool.shared.Torn p

/-- A condition on the steps: a peer that is listed is not closed, or has yet to be
taken off the list. -/
def ListsInTime : Pool State Act → PoolLabel Act Oracle → Prop
  | pool, .run (.handleConn (.list p _ _)) _ =>
      (pool.shared.peers p).closed = true →
        ∃ act ∈ pool.acts, act.tearing = some p
  | _, _ => True

/-- No open peer that the snapshot misses is registered: it is closed, or its
descriptor is refused, since the poller is being closed or for another
reason. -/
def RegistersKnown (snapshot : List PeerRef) :
    Pool State Act → PoolLabel Act Oracle → Prop
  | pool, .run (.handleConn (.start p)) oracle =>
      p ∈ snapshot ∨ (pool.shared.peers p).closed = true ∨
        oracle.ok = false ∨ pool.shared.poller ≠ .running
  | _, _ => True

/-- A condition on the trace: after the snapshot of a `Shutdown` no open peer
that it misses is registered. -/
def RegistersBeforeShutdown
    (trace : List (Pool State Act × PoolLabel Act Oracle)) : Prop :=
  ∀ earlier pool oracle later,
    trace = earlier ++ (pool, .run .shutdown oracle) :: later →
    Lts.AllMeet (RegistersKnown pool.shared.live) later

/-! ## Teardown -/

section Step

variable {oracle : Oracle} {s s' : State} {act : Act}
  {acts others : List Act} {p : PeerRef}

/-- Nobody is taken off the list but by a drop. -/
theorem live_stays (next : act.next oracle s = some (s', acts))
    (listed : p ∈ s.live) :
    p ∈ s'.live ∨ ∃ ip, act = .dropPeer (.unlist p ip) := by
  cases act with
  | handleConn call =>
      left
      cases call <;>
        grind [Act.next, HandleConn.next, State.modifyPeer, State.setBucket]
  | dropPeer call =>
      cases call with
      | unlist q ip =>
          cases next
          by_cases same : p = q
          · exact .inr ⟨ip, by rw [same]⟩
          · left
            exact List.mem_filter.mpr ⟨listed, by simpa using same⟩
      | _ =>
          left
          grind [Act.next, DropPeer.next, State.modifyPeer]
  | readPeer call =>
      left
      cases call <;>
        grind [Act.next, ReadPeer.next, State.modifyPeer, State.setBucket]
  | writeLoop call =>
      left
      cases call <;> grind [Act.next, WriteLoop.next, State.modifyPeer]
  | _ =>
      left
      grind [Act.next, State.modifyPeer, State.setBucket]

/-- A teardown goes on, or has taken the peer off the list. -/
theorem tearing_next (next : act.next oracle s = some (s', acts))
    (tears : act.tearing = some p) :
    (∃ act' ∈ acts, act'.tearing = some p) ∨ p ∉ s'.live := by
  cases act with
  | dropPeer call =>
      cases call with
      | creatorIP q =>
          cases tears
          left
          simp only [Act.next, DropPeer.next] at next
          split at next
          · cases next
          · cases next
            exact ⟨_, List.mem_singleton_self _, rfl⟩
      | teardown q ip =>
          cases tears
          cases next
          exact .inl ⟨_, List.mem_singleton_self _, rfl⟩
      | unlist q ip =>
          cases tears
          cases next
          exact .inr (by simp)
      | swap | leave => cases tears
  | _ => cases tears

theorem closeBucketPeers_tearing {q : PeerRef} {b : Ref}
    (started : act ∈ closeBucketPeers q b) : act.tearing = none := by
  simp only [closeBucketPeers, List.mem_cons, List.not_mem_nil, or_false]
    at started
  rcases started with rfl | rfl | rfl <;> rfl

/-- A teardown is started by the drop that closes the peer. -/
theorem tearing_from (next : act.next oracle s = some (s', acts))
    {act' : Act} (started : act' ∈ acts) (tears : act'.tearing = some p) :
    act.tearing = some p ∨ (s'.peers p).closed = true := by
  cases act with
  | dropPeer call =>
      cases call with
      | swap q =>
          simp only [Act.next, DropPeer.next] at next
          split at next
          · cases next
            cases started
          · cases next
            cases List.mem_singleton.mp started
            cases tears
            right
            rw [State.modifyPeer_self]
      | creatorIP q =>
          left
          simp only [Act.next, DropPeer.next] at next
          split at next
          · cases next
          · cases next
            cases List.mem_singleton.mp started
            exact tears
      | teardown q ip =>
          cases next
          cases List.mem_singleton.mp started
          exact .inl tears
      | unlist q ip =>
          cases next
          cases List.mem_singleton.mp started
          cases tears
      | leave q ip call =>
          exfalso
          grind [Act.next, DropPeer.next, afterLeave, Act.tearing]
  | handleConn call =>
      exfalso
      cases call with
      | list q b slot =>
          cases next
          simp only [List.mem_cons, List.not_mem_nil, or_false] at started
          rcases started with rfl | rfl | rfl <;> cases tears
      | _ => grind [Act.next, HandleConn.next, refuse, Act.tearing]
  | readPeer call =>
      exfalso
      cases call <;>
        grind [Act.next, ReadPeer.next, closeBucketPeers_tearing, Act.tearing]
  | writeLoop call =>
      exfalso
      cases call <;> grind [Act.next, WriteLoop.next, Act.tearing]
  | _ =>
      exfalso
      grind [Act.next, Act.tearing]

/-- A peer gets its slot when its join returns, and is then to be listed. -/
theorem slot_from (next : act.next oracle s = some (s', acts))
    (unassigned : (s.peers p).slot = none)
    (assigned : (s'.peers p).slot.isSome) :
    ∃ b slot, .handleConn (.list p b slot) ∈ acts := by
  have same : ∀ {s' : State}, s'.peers = s.peers →
      ¬ (s'.peers p).slot.isSome = true := by
    intro s' peers assigned
    rw [peers, unassigned] at assigned
    cases assigned
  cases act.next_write next with
  | none peers => exact absurd assigned (same peers)
  | @one q peer change written =>
      by_cases here : p = q
      · subst here
        have gained := assigned
        rw [written, Function.update_self] at gained
        cases change with
        | allocated => cases gained
        | seated req existed p call slot =>
            simp only [Act.next, HandleConn.next] at next
            split at next
            · cases next
            · split at next <;> cases next
              · exact absurd assigned (same rfl)
              · exact ⟨_, _, List.mem_singleton_self _⟩
            · cases next
              exact absurd assigned (same rfl)
        | _ =>
            rw [unassigned] at gained
            cases gained
      · rw [written, Function.update_of_ne here, unassigned] at assigned
        cases assigned

/-! ## The list -/

/-- A teardown has closed its peer, and every peer that has joined is closed,
listed, or to be listed. -/
structure Listing (s : State) (acts : List Act) : Prop where
  tearing : ∀ act ∈ acts, ∀ p, act.tearing = some p →
    (s.peers p).closed = true
  joined : ∀ p, (s.peers p).slot.isSome →
    (s.peers p).closed = true ∨ p ∈ s.live ∨
      ∃ b slot, .handleConn (.list p b slot) ∈ acts

/-- What is left of closed peers is being torn down. -/
structure Leftovers (s : State) (acts : List Act) : Prop where
  live : ∀ p ∈ s.live, (s.peers p).closed = true →
    ∃ act ∈ acts, act.tearing = some p
  desc : ∀ p, (s.peers p).closed = true →
    (s.peers p).desc = true ∨ (s.peers p).polled = true →
    .dropPeer (.creatorIP p) ∈ acts ∨ ∃ ip, .dropPeer (.teardown p ip) ∈ acts

theorem Act.forks_tearing {act' : Act} (forked : act' ∈ act.forks oracle s) :
    act'.tearing = none := by
  rcases Act.forks_cases forked with ⟨_, rfl⟩ | ⟨_, rfl⟩ | ⟨_, rfl⟩ <;> rfl

theorem Listing.step (listing : Listing s (act :: others))
    (fresh : (s.peers s.allocated).closed = false)
    (next : act.next oracle s = some (s', acts)) :
    Listing s' (acts ++ (act.forks oracle s ++ others)) := by
  constructor
  · intro act' member p tears
    rcases List.mem_append.mp member with started | rest
    · rcases tearing_from next started tears with own | closed
      · exact closed_stays next fresh
          (listing.tearing act List.mem_cons_self p own)
      · exact closed
    · rcases List.mem_append.mp rest with forked | waits
      · rw [Act.forks_tearing forked] at tears
        cases tears
      · exact closed_stays next fresh
          (listing.tearing act' (List.mem_cons_of_mem _ waits) p tears)
  · intro p assigned
    cases before : (s.peers p).slot with
    | none =>
        obtain ⟨b, slot, waits⟩ := slot_from next before assigned
        exact .inr (.inr ⟨b, slot, List.mem_append_left _ waits⟩)
    | some slot =>
        rcases listing.joined p (by rw [before]; rfl) with
          closed | listed | ⟨b, slot, waits⟩
        · exact .inl (closed_stays next fresh closed)
        · rcases live_stays next listed with still | ⟨ip, rfl⟩
          · exact .inr (.inl still)
          · exact .inl (closed_stays next fresh
              (listing.tearing _ List.mem_cons_self p rfl))
        · rcases List.mem_cons.mp waits with running | waiting
          · subst running
            cases next
            exact .inr (.inl List.mem_cons_self)
          · exact .inr (.inr ⟨b, slot, List.mem_append_right _
              (List.mem_append_right _ waiting)⟩)

/-- What waits for its turn does so after the step as well. -/
private theorem waits_after {property : Act → Prop}
    (waits : ∃ act' ∈ act :: others, property act')
    (running : property act → ∃ act' ∈ acts, property act') :
    ∃ act' ∈ acts ++ (act.forks oracle s ++ others), property act' := by
  obtain ⟨act', member, holds⟩ := waits
  rcases List.mem_cons.mp member with rfl | waiting
  · obtain ⟨later, started, holds⟩ := running holds
    exact ⟨later, List.mem_append_left _ started, holds⟩
  · exact ⟨act', List.mem_append_right _ (List.mem_append_right _ waiting),
      holds⟩

/-- A peer is closed by the drop that goes on to tear it down. -/
theorem closed_from (next : act.next oracle s = some (s', acts))
    (isOpen : (s.peers p).closed = false)
    (closed : (s'.peers p).closed = true) :
    act = .dropPeer (.swap p) ∧ acts = [.dropPeer (.creatorIP p)] := by
  by_cases drops : act = .dropPeer (.swap p)
  · subst drops
    simp only [Act.next, DropPeer.next] at next
    split at next
    · rename_i already
      rw [isOpen] at already
      cases already
    · cases next
      exact ⟨rfl, rfl⟩
  · cases act.next_write next with
    | none same =>
        rw [same, isOpen] at closed
        cases closed
    | @one q peer change written =>
        by_cases here : p = q
        · subst here
          rw [written, Function.update_self] at closed
          cases change with
          | allocated => cases closed
          | closed => exact absurd rfl drops
          | _ =>
              rw [isOpen] at closed
              cases closed
        · rw [written, Function.update_of_ne here, isOpen] at closed
          cases closed

/-- Whatever has a descriptor after the step had one before, or is open. -/
theorem desc_from (next : act.next oracle s = some (s', acts))
    (closed : (s'.peers p).closed = true)
    (registered : (s'.peers p).desc = true ∨ (s'.peers p).polled = true) :
    ((s.peers p).desc = true ∨ (s.peers p).polled = true) ∧
      ∀ ip, act ≠ .dropPeer (.teardown p ip) := by
  have torn : ∀ ip, act ≠ .dropPeer (.teardown p ip) := by
    rintro ip rfl
    cases next
    rw [State.modifyPeer_self] at registered
    rcases registered with desc | polled
    · cases desc
    · cases polled
  refine ⟨?_, torn⟩
  cases act.next_write next with
  | none same => rwa [same] at registered
  | @one q peer change written =>
      by_cases here : p = q
      · subst here
        rw [written, Function.update_self] at registered closed
        cases change with
        | allocated => cases closed
        | started ok isOpen =>
            rw [isOpen] at closed
            cases closed
        | torn p ip => exact absurd rfl (torn ip)
        | _ => exact registered
      · rwa [written, Function.update_of_ne here] at registered

theorem Leftovers.step (leftovers : Leftovers s (act :: others))
    (inTime : ∀ p b slot, act = .handleConn (.list p b slot) →
      (s.peers p).closed = true →
      ∃ act' ∈ act :: others, act'.tearing = some p)
    (next : act.next oracle s = some (s', acts)) :
    Leftovers s' (acts ++ (act.forks oracle s ++ others)) := by
  constructor
  · intro p listed closed
    cases before : (s.peers p).closed with
    | false =>
        obtain ⟨-, rfl⟩ := closed_from next before closed
        exact ⟨.dropPeer (.creatorIP p), List.mem_append_left _
          (List.mem_singleton_self _), rfl⟩
    | true =>
        have waits : ∃ act' ∈ act :: others, act'.tearing = some p := by
          rcases act.next_live next listed with old | ⟨b, slot, rfl⟩
          · exact leftovers.live p old before
          · exact inTime p b slot rfl before
        exact waits_after waits fun own =>
          (tearing_next next own).resolve_right (fun gone => gone listed)
  · intro p closed registered
    cases before : (s.peers p).closed with
    | false =>
        obtain ⟨-, rfl⟩ := closed_from next before closed
        exact .inl (List.mem_append_left _ (List.mem_singleton_self _))
    | true =>
        obtain ⟨old, notTorn⟩ := desc_from next closed registered
        rcases leftovers.desc p before old with starts | ⟨ip, tears⟩
        · rcases List.mem_cons.mp starts with running | waiting
          · subst running
            simp only [Act.next, DropPeer.next] at next
            split at next
            · cases next
            · cases next
              exact .inr ⟨_, List.mem_append_left _
                (List.mem_singleton_self _)⟩
          · exact .inl (List.mem_append_right _
              (List.mem_append_right _ waiting))
        · rcases List.mem_cons.mp tears with running | waiting
          · exact absurd running.symm (notTorn ip)
          · exact .inr ⟨ip, List.mem_append_right _
              (List.mem_append_right _ waiting)⟩

end Step

/-! ## Runs -/

theorem Listing.perm {s : State} {acts acts' : List Act}
    (listing : Listing s acts) (same : acts.Perm acts') : Listing s acts' where
  tearing := fun act member => listing.tearing act (same.mem_iff.mpr member)
  joined := by
    intro p assigned
    rcases listing.joined p assigned with
      closed | listed | ⟨b, slot, waits⟩
    · exact .inl closed
    · exact .inr (.inl listed)
    · exact .inr (.inr ⟨b, slot, same.mem_iff.mp waits⟩)

theorem Leftovers.perm {s : State} {acts acts' : List Act}
    (leftovers : Leftovers s acts) (same : acts.Perm acts') :
    Leftovers s acts' where
  live := by
    intro p listed closed
    obtain ⟨act, member, tears⟩ := leftovers.live p listed closed
    exact ⟨act, same.mem_iff.mp member, tears⟩
  desc := by
    intro p closed registered
    rcases leftovers.desc p closed registered with starts | ⟨ip, tears⟩
    · exact .inl (same.mem_iff.mp starts)
    · exact .inr ⟨ip, same.mem_iff.mp tears⟩

theorem Act.Entry.tearing {act : Act} (entry : act.Entry) :
    act.tearing = none := by
  cases act with
  | handleConn | event | sweep | shutdown => rfl
  | _ => exact entry.elim

theorem Listing.spawn {s : State} {act : Act} {acts : List Act}
    (listing : Listing s acts) (entry : act.Entry) :
    Listing s (act :: acts) where
  tearing := by
    intro other member p tears
    rcases List.mem_cons.mp member with rfl | old
    · rw [entry.tearing] at tears
      cases tears
    · exact listing.tearing other old p tears
  joined := by
    intro p assigned
    rcases listing.joined p assigned with
      closed | listed | ⟨b, slot, waits⟩
    · exact .inl closed
    · exact .inr (.inl listed)
    · exact .inr (.inr ⟨b, slot, List.mem_cons_of_mem _ waits⟩)

theorem Leftovers.spawn {s : State} {acts : List Act}
    (leftovers : Leftovers s acts) (act : Act) :
    Leftovers s (act :: acts) where
  live := by
    intro p listed closed
    obtain ⟨other, member, tears⟩ := leftovers.live p listed closed
    exact ⟨other, List.mem_cons_of_mem _ member, tears⟩
  desc := by
    intro p closed registered
    rcases leftovers.desc p closed registered with starts | ⟨ip, tears⟩
    · exact .inl (List.mem_cons_of_mem _ starts)
    · exact .inr ⟨ip, List.mem_cons_of_mem _ tears⟩

/-- What holds of every pool, whenever peers are listed. -/
structure Managed (pool : Pool State Act) : Prop where
  allocated : Allocated pool.shared pool.acts
  listing : Listing pool.shared pool.acts

theorem Managed.fresh {pool : Pool State Act} (managed : Managed pool) :
    (pool.shared.peers pool.shared.allocated).closed = false := by
  rw [managed.allocated.zero _ le_rfl]
  rfl

theorem Managed.step {pool pool' : Pool State Act}
    {label : PoolLabel Act Oracle} (managed : Managed pool)
    (step : relay.Step pool label pool') : Managed pool' := by
  refine ⟨managed.allocated.pool step, ?_⟩
  cases label with
  | spawn act =>
      obtain ⟨entry, same, perm⟩ := Program.Step.spawn_inv step
      rw [same]
      exact (managed.listing.spawn entry).perm perm.symm
  | run act oracle =>
      obtain ⟨acts, others, next, before, after⟩ := Program.Step.run_inv step
      exact ((managed.listing.perm before).step managed.fresh next).perm
        after.symm

theorem Managed.started {cfg : Limits} {buckets : Config}
    {createPerMin maxBuckets : Int} {pool : Pool State Act}
    (started : Started cfg buckets createPerMin maxBuckets pool) :
    Managed pool := by
  rw [started]
  refine ⟨allocated_started cfg buckets createPerMin maxBuckets, ?_, ?_⟩
  · intro act member
    cases member
  · intro p assigned
    cases assigned

theorem Leftovers.pool {pool pool' : Pool State Act}
    {label : PoolLabel Act Oracle}
    (leftovers : Leftovers pool.shared pool.acts)
    (step : relay.Step pool label pool') (inTime : ListsInTime pool label) :
    Leftovers pool'.shared pool'.acts := by
  cases label with
  | spawn act =>
      obtain ⟨-, same, perm⟩ := Program.Step.spawn_inv step
      rw [same]
      exact (leftovers.spawn act).perm perm.symm
  | run act oracle =>
      obtain ⟨acts, others, next, before, after⟩ := Program.Step.run_inv step
      refine ((leftovers.perm before).step ?_ next).perm after.symm
      rintro p b slot rfl closed
      obtain ⟨other, member, tears⟩ := inTime closed
      exact ⟨other, before.mem_iff.mp member, tears⟩

/-- What is left of a closed peer is gone when its teardown is done. -/
theorem Leftovers.tidy {pool : Pool State Act}
    (leftovers : Leftovers pool.shared pool.acts) : Tidy pool := by
  intro p closed done
  have undone : ¬ ((pool.shared.peers p).desc = true ∨
      (pool.shared.peers p).polled = true) := by
    intro registered
    rcases leftovers.desc p closed registered with starts | ⟨ip, tears⟩
    · exact done _ starts rfl
    · exact done _ tears rfl
  refine ⟨?_, ?_, ?_⟩
  · intro listed
    obtain ⟨act, member, tears⟩ := leftovers.live p listed closed
    exact done act member tears
  · exact Bool.eq_false_iff.mpr fun desc => undone (.inl desc)
  · exact Bool.eq_false_iff.mpr fun polled => undone (.inr polled)

/-! ## Shutdown -/

/-- The peer that a `handleConn` has yet to register. -/
def Act.admitting : Act → Option PeerRef
  | .handleConn (.list p _ _) | .handleConn (.drain p _)
  | .handleConn (.handleRead p) | .handleConn (.start p) => some p
  | _ => none

/-- The stack is that of the peer's `handleConn`, which has yet to register the
peer or drops it before it returns. -/
def Admits (p : PeerRef) (stack : List Act) : Prop :=
  (∃ act ∈ stack, act.admitting = some p) ∨
    [.dropPeer (.swap p), .handleConn (.done p)].Sublist stack

/-- A snapshot has been taken.  The thread at the position has closed its peers
or is to drop them; every other peer that has joined is closed or in the hands
of its `handleConn`. -/
structure Covered (position : Nat) (snapshot : List PeerRef)
    (pool : Pool State Act) : Prop where
  thread : ∃ stack, pool.threads[position]? = some stack ∧
    ∀ p ∈ snapshot, (pool.shared.peers p).closed = true ∨
      .dropPeer (.swap p) ∈ stack
  joined : ∀ p, (pool.shared.peers p).slot.isSome →
    (pool.shared.peers p).closed = true ∨ p ∈ snapshot ∨
      ∃ stack ∈ pool.threads, Admits p stack

section Following

variable {pool pool' last : Pool State Act} {position i : Nat}
  {oracle : Oracle} {act : Act} {rest acts : List Act}
  {snapshot : List PeerRef}

theorem swap_closes {s s' : State} {p : PeerRef}
    (next : (Act.dropPeer (.swap p)).next oracle s = some (s', acts)) :
    (s'.peers p).closed = true := by
  simp only [Act.next, DropPeer.next] at next
  split at next
  · rename_i closed
    cases next
    exact closed
  · cases next
    rw [State.modifyPeer_self]

/-- A `handleConn` goes on, drops the peer, finds it closed, or registers
it. -/
theorem admitting_next {s s' : State} {p : PeerRef}
    (next : act.next oracle s = some (s', acts))
    (admits : act.admitting = some p) :
    Admits p acts ∨ (s'.peers p).closed = true ∨
      act = .handleConn (.start p) ∧ (s.peers p).closed = false ∧
        oracle.ok = true ∧ s.poller = .running := by
  unfold Act.admitting at admits
  split at admits <;> cases admits
  · cases next
    exact .inl (.inl ⟨_, List.mem_cons_of_mem _ (List.mem_cons_of_mem _
      (List.mem_singleton_self _)), rfl⟩)
  · simp only [Act.next, HandleConn.next] at next
    split at next <;> cases next
    exact .inl (.inl ⟨_, List.mem_append_right _
      (List.mem_singleton_self _), rfl⟩)
  · cases next
    left
    split
    · exact .inl ⟨_, List.mem_singleton_self _, rfl⟩
    · exact .inr (List.Sublist.refl _)
  · simp only [Act.next, HandleConn.next] at next
    split at next <;> cases next
    · rename_i closed
      exact .inr (.inl closed)
    · rename_i isOpen
      split
      · rename_i registered
        simp only [Bool.and_eq_true, decide_eq_true_eq] at registered
        exact .inr (.inr ⟨rfl, Bool.eq_false_iff.mpr isOpen, registered⟩)
      · exact .inl (.inr (List.Sublist.refl _))

theorem Admits.call {p : PeerRef} {stack : List Act}
    (admits : Admits p stack) : ∃ call, .handleConn call ∈ stack := by
  rcases admits with ⟨act, member, admitting⟩ | drops
  · cases act with
    | handleConn call => exact ⟨call, member⟩
    | _ => cases admitting
  · exact ⟨.done p, drops.subset (by simp)⟩

theorem Admits.append_left {p : PeerRef} {stack : List Act}
    (admits : Admits p stack) (above : List Act) :
    Admits p (above ++ stack) := by
  rcases admits with ⟨act, member, admitting⟩ | drops
  · exact .inl ⟨act, List.mem_append_right _ member, admitting⟩
  · exact .inr (drops.trans (List.sublist_append_right _ _))

theorem Admits.append_right {p : PeerRef} {stack : List Act}
    (admits : Admits p stack) (below : List Act) :
    Admits p (stack ++ below) := by
  rcases admits with ⟨act, member, admitting⟩ | drops
  · exact .inl ⟨act, List.mem_append_left _ member, admitting⟩
  · exact .inr (drops.trans (List.sublist_append_left _ _))

/-- What the running stack has in hand stays in its hands, or is closed. -/
theorem admits_next {s s' : State} {p : PeerRef}
    (next : act.next oracle s = some (s', acts))
    (known : act = .handleConn (.start p) → p ∈ snapshot ∨
      (s.peers p).closed = true ∨ oracle.ok = false ∨ s.poller ≠ .running)
    (admits : Admits p (act :: rest)) :
    (s'.peers p).closed = true ∨ p ∈ snapshot ∨ Admits p (acts ++ rest) := by
  rcases admits with ⟨act', member, admitting⟩ | drops
  · rcases List.mem_cons.mp member with rfl | below
    · rcases admitting_next next admitting with
        still | closed | ⟨rfl, isOpen, ok, running⟩
      · exact .inr (.inr (still.append_right rest))
      · exact .inl closed
      · rcases known rfl with listed | closed | failed | closing
        · exact .inr (.inl listed)
        · rw [isOpen] at closed
          cases closed
        · rw [ok] at failed
          cases failed
        · exact absurd running closing
    · exact .inr (.inr (Admits.append_left (.inl ⟨act', below, admitting⟩) acts))
  · rcases List.sublist_cons_iff.mp drops with below | ⟨after, same, -⟩
    · exact .inr (.inr (Admits.append_left (.inr below) acts))
    · obtain ⟨rfl, -⟩ := List.cons.inj same
      exact .inl (swap_closes next)

/-- Once a snapshot has been taken, what it covers is covered to the end. -/
theorem Covered.step
    (step : Program.ExecStep relay pool pool' position oracle act rest acts)
    (known : RegistersKnown snapshot pool (.run act oracle))
    (managed : Managed pool) (covered : Covered i snapshot pool) :
    Covered i snapshot pool' := by
  have next : act.next oracle pool.shared = some (pool'.shared, acts) :=
    step.next
  have stays : ∀ p, (pool.shared.peers p).closed = true →
      (pool'.shared.peers p).closed = true :=
    fun p => closed_stays next managed.fresh
  have running : (acts ++ rest) ∈ pool'.threads :=
    List.mem_of_getElem? step.after
  constructor
  · obtain ⟨stack, here, covers⟩ := covered.thread
    by_cases same : i = position
    · subst same
      obtain rfl := Option.some.inj (here.symm.trans step.before)
      refine ⟨acts ++ rest, step.after, ?_⟩
      intro p listed
      rcases covers p listed with closed | member
      · exact .inl (stays p closed)
      · rcases List.mem_cons.mp member with rfl | below
        · exact .inl (swap_closes next)
        · exact .inr (List.mem_append_right _ below)
    · exact ⟨stack, step.elsewhere same here, fun p listed =>
        (covers p listed).imp_left (stays p)⟩
  · intro p assigned
    cases was : (pool.shared.peers p).slot with
    | none =>
        obtain ⟨b, slot, waits⟩ := slot_from next was assigned
        exact .inr (.inr ⟨_, running,
          .inl ⟨_, List.mem_append_left _ waits, rfl⟩⟩)
    | some slot =>
        rcases covered.joined p (by rw [was]; rfl) with
          closed | listed | ⟨stack, member, admits⟩
        · exact .inl (stays p closed)
        · exact .inr (.inl listed)
        · obtain ⟨j, here⟩ := List.getElem?_of_mem member
          by_cases same : j = position
          · subst same
            obtain rfl := Option.some.inj (here.symm.trans step.before)
            rcases admits_next next (by rintro rfl; exact known) admits with
              closed | listed | still
            · exact .inl closed
            · exact .inr (.inl listed)
            · exact .inr (.inr ⟨_, running, still⟩)
          · exact .inr (.inr ⟨stack,
              List.mem_of_getElem? (step.elsewhere same here), admits⟩)

theorem Covered.spawn {s : State} {threads : List (List Act)}
    (covered : Covered i snapshot ⟨s, threads⟩) (act : Act) :
    Covered i snapshot ⟨s, threads ++ [[act]]⟩ where
  thread := by
    obtain ⟨stack, here, covers⟩ := covered.thread
    obtain ⟨bound, -⟩ := List.getElem?_eq_some_iff.mp here
    exact ⟨stack, (List.getElem?_append_left bound).trans here, covers⟩
  joined := by
    intro p assigned
    refine (covered.joined p assigned).imp_right (Or.imp_right ?_)
    rintro ⟨stack, member, admits⟩
    exact ⟨stack, List.mem_append_left _ member, admits⟩

/-- The snapshot covers every peer that has joined. -/
theorem shutdown_covers (managed : Managed pool)
    (step : Program.ExecStep relay pool pool' i oracle .shutdown [] acts) :
    Covered i pool.shared.live pool' := by
  have next : (Act.shutdown).next oracle pool.shared =
      some (pool'.shared, acts) := step.next
  simp only [Act.next, Option.some.injEq, Prod.mk.injEq] at next
  obtain ⟨same, rfl⟩ := next
  constructor
  · refine ⟨_, step.after, ?_⟩
    intro p listed
    exact .inr (List.mem_append_left _ (List.mem_append_left _
      (List.mem_map.mpr ⟨p, listed, rfl⟩)))
  · intro p assigned
    rw [← same] at assigned ⊢
    rcases managed.listing.joined p assigned with
      closed | listed | ⟨b, slot, waits⟩
    · exact .inl closed
    · exact .inr (.inl listed)
    · obtain ⟨stack, member, inStack⟩ := List.mem_flatten.mp waits
      obtain ⟨j, here⟩ := List.getElem?_of_mem member
      have elsewhere : j ≠ i := by
        rintro rfl
        obtain rfl := Option.some.inj (here.symm.trans step.before)
        cases List.mem_singleton.mp inStack
      exact .inr (.inr ⟨stack,
        List.mem_of_getElem? (step.elsewhere elsewhere here),
        .inl ⟨_, inStack, rfl⟩⟩)

theorem RegistersBeforeShutdown.tail
    {trace : List (Pool State Act × PoolLabel Act Oracle)}
    {entry : Pool State Act × PoolLabel Act Oracle}
    (before : RegistersBeforeShutdown (entry :: trace)) :
    RegistersBeforeShutdown trace := by
  intro earlier pool oracle later split
  exact before (entry :: earlier) pool oracle later (by rw [split]; rfl)

/-- A thread that is to shut the server down has yet to begin, or covers all
peers that have joined. -/
theorem shutdown_followed {moves : List (Program.Move Act Oracle)}
    {trace : List (Pool State Act × PoolLabel Act Oracle)}
    (managed : Managed pool)
    (entries : ∀ act, .spawn act ∈ moves → act.Entry)
    (played : relay.play pool moves = some (trace, last))
    (before : RegistersBeforeShutdown trace)
    (here : pool.threads[i]? = some [.shutdown]) :
    last.threads[i]? = some [.shutdown] ∨
      ∃ snapshot, Covered i snapshot last := by
  induction moves generalizing pool trace with
  | nil =>
      obtain ⟨-, rfl⟩ := Prod.mk.inj (Option.some.inj played)
      exact .inl here
  | cons move moves induction =>
      have further : ∀ act, .spawn act ∈ moves → act.Entry :=
        fun act member => entries act (List.mem_cons_of_mem _ member)
      cases move with
      | spawn act =>
          obtain ⟨later, playedLater, rfl⟩ := Program.play_spawn_inv played
          have step : relay.Step pool (.spawn act)
              ⟨pool.shared, pool.threads ++ [[act]]⟩ :=
            .spawn pool.threads (entries act List.mem_cons_self)
          obtain ⟨bound, -⟩ := List.getElem?_eq_some_iff.mp here
          exact induction (managed.step step) further playedLater before.tail
            ((List.getElem?_append_left bound).trans here)
      | run position oracle =>
          obtain ⟨next, act, rest, acts, later, step, playedLater, rfl⟩ :=
            Program.play_run_inv played
          by_cases same : i = position
          · subst same
            obtain ⟨rfl, rfl⟩ :=
              List.cons.inj (Option.some.inj (here.symm.trans step.before))
            have kept : Managed last ∧ Covered i pool.shared.live last := by
              apply @Program.play_preserves _ _ _ relay
                (fun pool' => Managed pool' ∧ Covered i pool.shared.live pool')
                (RegistersKnown pool.shared.live) ?_ ?_ _ _ _ _ further
                playedLater
                (before [] pool oracle later rfl)
                ⟨managed.step step.step, shutdown_covers managed step⟩
              · rintro pool act entry ⟨managed, covered⟩
                exact ⟨managed.step (.spawn pool.threads entry),
                  covered.spawn act⟩
              · rintro pool pool' position oracle act rest acts step known
                  ⟨managed, covered⟩
                exact ⟨managed.step step.step,
                  covered.step step known managed⟩
            exact .inr ⟨_, kept.2⟩
          · exact induction (managed.step step.step) further playedLater
              before.tail (step.elsewhere same here)

end Following

/-- The thread at the position was started to shut the server down. -/
def ShutsDown (start : Pool State Act)
    (moves : List (Program.Move Act Oracle)) (i : Nat) : Prop :=
  ∃ earlier later trace pool, moves = earlier ++ .spawn .shutdown :: later ∧
    relay.play start earlier = some (trace, pool) ∧ pool.threads.length = i

/-- Along every run in which no peer is listed after its teardown, and after
the snapshot of a `Shutdown` no open peer is registered that it misses, closed
peers leave nothing behind, and once a `Shutdown` and all calls of `handleConn`
have returned every peer that has joined is closed. -/
theorem peers_torn_down {cfg : Limits} {buckets : Config}
    {createPerMin maxBuckets : Int} {start last : Pool State Act}
    {moves : List (Program.Move Act Oracle)}
    {trace : List (Pool State Act × PoolLabel Act Oracle)}
    (started : Started cfg buckets createPerMin maxBuckets start)
    (entries : ∀ act, .spawn act ∈ moves → act.Entry)
    (played : relay.play start moves = some (trace, last))
    (inTime : Lts.AllMeet ListsInTime trace)
    (before : RegistersBeforeShutdown trace) :
    Tidy last ∧ ∀ i, ShutsDown start moves i →
      last.threads[i]? = some [] →
      (∀ call, .handleConn call ∉ last.acts) →
      ∀ p, (last.shared.peers p).slot.isSome →
        (last.shared.peers p).closed = true := by
  constructor
  · have reachable : ((relay.system (Started cfg buckets createPerMin
        maxBuckets)).restrict ListsInTime).Reachable last :=
      ⟨start, trace, started, Lts.run_restrict_iff.mpr
        ⟨Program.play_run entries played, inTime⟩⟩
    apply Leftovers.tidy
    refine reachable.invariant (fun pool =>
      Leftovers pool.shared pool.acts) ?_ ?_
    · rintro pool rfl
      constructor
      · intro p listed
        cases listed
      · intro p closed
        cases closed
    · rintro pool label pool' leftovers ⟨step, lists⟩
      exact leftovers.pool step lists
  · rintro i ⟨earlier, later, first, pool, rfl, playedFirst, rfl⟩ returned none
      p assigned
    obtain ⟨first', middle, second, playedFirst', playedSecond, rfl⟩ :=
      Program.play_append played
    obtain ⟨rfl, rfl⟩ :=
      Prod.mk.inj (Option.some.inj (playedFirst.symm.trans playedFirst'))
    have firstEntries : ∀ act, .spawn act ∈ earlier → act.Entry :=
      fun act member => entries act (List.mem_append_left _ member)
    have managed : Managed pool := by
      have reachable : (relay.system (Started cfg buckets createPerMin
          maxBuckets)).Reachable pool :=
        ⟨start, _, started, Program.play_run firstEntries playedFirst⟩
      exact reachable.invariant Managed (fun pool => Managed.started)
        fun pool label pool' managed step => managed.step step
    obtain ⟨rest, playedRest, rfl⟩ := Program.play_spawn_inv playedSecond
    have spawned : relay.Step pool (.spawn .shutdown)
        ⟨pool.shared, pool.threads ++ [[.shutdown]]⟩ :=
      .spawn pool.threads trivial
    have afterwards : RegistersBeforeShutdown rest := by
      intro earlier' pool' oracle later' split
      apply before (first ++ (pool, .spawn .shutdown) :: earlier') pool' oracle
      rw [split, List.append_assoc, List.cons_append]
    have here : (pool.threads ++ [[Act.shutdown]])[pool.threads.length]? =
        some [.shutdown] := by
      rw [List.getElem?_append_right le_rfl, Nat.sub_self]
      rfl
    rcases shutdown_followed (managed.step spawned)
        (fun act member => entries act (List.mem_append_right _
          (List.mem_cons_of_mem _ member))) playedRest afterwards here with
      waiting | ⟨snapshot, covered⟩
    · cases returned.symm.trans waiting
    · obtain ⟨stack, found, covers⟩ := covered.thread
      obtain rfl := Option.some.inj (returned.symm.trans found)
      rcases covered.joined p assigned with
        closed | listed | ⟨stack, member, admits⟩
      · exact closed
      · exact (covers p listed).resolve_right List.not_mem_nil
      · obtain ⟨call, inStack⟩ := admits.call
        exact absurd (List.mem_flatten.mpr ⟨stack, member, inStack⟩) (none call)

/-- Alice connects.  The server is shut down while Bob's connection is between
its `Join` and the list; the poller is closed before it is registered. -/
private def shutdownMoves : List (Program.Move Act Oracle) :=
  [connects "alice" "192.0.2.1"] ++ runs 0 14 ++
    [connects "bob" "192.0.2.2"] ++ runs 2 4 ++ [.spawn .shutdown] ++
    runs 3 12 ++ runs 2 15

/-- A peer is open when it is listed. -/
private def listsOpen : Pool State Act × PoolLabel Act Oracle → Bool
  | (pool, .run (.handleConn (.list p _ _)) _) => !(pool.shared.peers p).closed
  | _ => true

private theorem listsInTime_of_listsOpen (pool : Pool State Act)
    (label : PoolLabel Act Oracle) (isOpen : listsOpen (pool, label) = true) :
    ListsInTime pool label := by
  revert isOpen
  unfold ListsInTime
  split <;> intro isOpen
  · intro closed
    simp [listsOpen, closed] at isOpen
  · trivial

/-- The poller is not running when a peer is registered. -/
private def refuses : Pool State Act × PoolLabel Act Oracle → Bool
  | (pool, .run (.handleConn (.start _)) _) => pool.shared.poller ≠ .running
  | _ => true

private theorem registersKnown_of_refuses (snapshot : List PeerRef)
    (pool : Pool State Act) (label : PoolLabel Act Oracle)
    (refused : refuses (pool, label) = true) :
    RegistersKnown snapshot pool label := by
  revert refused
  unfold RegistersKnown
  split <;> intro refused
  · exact .inr (.inr (.inr (of_decide_eq_true refused)))
  · trivial

private def admits : Act → Bool
  | .handleConn _ => true
  | _ => false

private theorem not_admitted {acts : List Act}
    (none : acts.all (fun act => !admits act) = true) (call : HandleConn) :
    .handleConn call ∉ acts := by
  intro member
  have refused := List.all_eq_true.mp none _ member
  cases refused

private def refusesLate :
    List (Pool State Act × PoolLabel Act Oracle) → Bool
  | [] => true
  | (_, .run .shutdown _) :: later => later.all refuses && refusesLate later
  | _ :: later => refusesLate later

private theorem registersBeforeShutdown_of_refusesLate
    {trace : List (Pool State Act × PoolLabel Act Oracle)}
    (tested : refusesLate trace = true) : RegistersBeforeShutdown trace := by
  induction trace with
  | nil =>
      intro earlier pool oracle later split
      cases earlier <;> cases split
  | cons entry trace induction =>
      intro earlier pool oracle later split
      cases earlier with
      | nil =>
          obtain ⟨rfl, rfl⟩ := List.cons.inj split
          simp only [refusesLate, Bool.and_eq_true] at tested
          exact fun entry member => registersKnown_of_refuses _ _ _
            (List.all_eq_true.mp tested.1 entry member)
      | cons first earlier =>
          obtain ⟨rfl, rfl⟩ := List.cons.inj split
          refine induction ?_ earlier pool oracle later rfl
          unfold refusesLate at tested
          split at tested
          · rename_i empty
            cases empty
          · rename_i same
            cases same
            exact (Bool.and_eq_true _ _ ▸ tested).2
          · rename_i same
            cases same
            exact tested

/-- Both connections are closed when the shutdown and their handlers have
returned, and leave nothing behind. -/
theorem peers_torn_down_shutdown :
    ∃ trace last, relay.play ⟨New roomLimits roomConfig 10 10, []⟩
        shutdownMoves = some (trace, last) ∧
      (last.shared.peers 0).slot = some 0 ∧
      (last.shared.peers 1).slot = some 1 ∧
      last.shared.Torn 0 ∧ last.shared.Torn 1 ∧
      ∀ p, (last.shared.peers p).slot.isSome →
        (last.shared.peers p).closed = true := by
  obtain ⟨trace, last, played, listed, refused, returned, done, torn, slots⟩ :
      ∃ trace last, relay.play ⟨New roomLimits roomConfig 10 10, []⟩
        shutdownMoves = some (trace, last) ∧
      trace.all listsOpen = true ∧ refusesLate trace = true ∧
      last.threads[3]? = some [] ∧
      last.acts.all (fun act => !admits act) = true ∧
      last.acts.all (fun act => act.tearing = none) = true ∧
      (last.shared.peers 0).slot = some 0 ∧
      (last.shared.peers 1).slot = some 1 :=
    ⟨_, _, rfl, rfl, rfl, rfl, rfl, rfl, rfl, rfl⟩
  have entries : ∀ act, .spawn act ∈ shutdownMoves → act.Entry :=
    entry_of_fromOutside rfl
  have inTime : Lts.AllMeet ListsInTime trace := fun entry member =>
    listsInTime_of_listsOpen _ _ (List.all_eq_true.mp listed entry member)
  obtain ⟨tidy, down⟩ := peers_torn_down rfl entries played inTime
    (registersBeforeShutdown_of_refusesLate refused)
  have shuts : ShutsDown ⟨New roomLimits roomConfig 10 10, []⟩ shutdownMoves
      3 :=
    ⟨shutdownMoves.take 20, shutdownMoves.drop 21, _, _, rfl, rfl, rfl⟩
  have closed := down 3 shuts returned (not_admitted done)
  have settled : ∀ p, ∀ act ∈ last.acts, act.tearing ≠ some p := by
    intro p act member tears
    have free := of_decide_eq_true (List.all_eq_true.mp torn act member)
    rw [free] at tears
    cases tears
  refine ⟨trace, last, played, slots.1, slots.2, ?_, ?_, closed⟩
  · exact tidy 0 (closed 0 (by rw [slots.1]; rfl)) (settled 0)
  · exact tidy 1 (closed 1 (by rw [slots.2]; rfl)) (settled 1)

/-- Alice connects; while Bob's connection is between its `Join` and the list,
a frame of Alice's finds the bucket too old and both peers are dropped; then
Bob's `handleConn` goes on to its end. -/
private def churnRun : Option (Pool State Act) :=
  relay.execAll
    (busy [.handleConn (.get (roomRequest "alice" "192.0.2.1")),
      .handleConn (.get (roomRequest "bob" "192.0.2.2")), .event 0 false])
    (List.replicate 14 (0, fine 0) ++ List.replicate 4 (1, fine 0) ++
      [(2, fine 0)] ++ List.replicate 4 (4, fine 0) ++
      [(4, arriving [1]), (4, fine 4000)] ++
      List.replicate 22 (4, fine 0) ++ List.replicate 6 (1, fine 0))

/-- The server is shut down while Alice's connection is between its `Join` and
the list; it is registered before the poller is closed. -/
private def lateMoves : List (Program.Move Act Oracle) :=
  [connects "alice" "192.0.2.1", .spawn .shutdown] ++ runs 0 6 ++ runs 1 1 ++
    runs 0 8 ++ runs 1 2

/-- A closed peer stays on the server's list for good, and a `Shutdown` leaves
a peer open. -/
theorem closed_peer_listed :
    (∃ pool, (relay.system (Started roomLimits roomConfig 10 10)).Reachable
        pool ∧
      (∀ call, .handleConn call ∉ pool.acts) ∧
      (∀ act ∈ pool.acts, act.tearing = none) ∧
      (pool.shared.peers 1).closed = true ∧ 1 ∈ pool.shared.live) ∧
    ∃ trace pool, relay.play ⟨New roomLimits roomConfig 10 10, []⟩ lateMoves =
        some (trace, pool) ∧
      ShutsDown ⟨New roomLimits roomConfig 10 10, []⟩ lateMoves 1 ∧
      pool.threads[1]? = some [] ∧
      (∀ call, .handleConn call ∉ pool.acts) ∧
      (pool.shared.peers 0).slot = some 0 ∧
      (pool.shared.peers 0).closed = false := by
  constructor
  · have leaked : churnRun.any (fun pool =>
        pool.acts.all (fun act => !admits act) &&
          pool.acts.all (fun act => act.tearing = none) &&
          (pool.shared.peers 1).closed && pool.shared.live.contains 1) =
        true := by decide
    obtain ⟨pool, ran, check⟩ := (Option.any_eq_true _ _).mp leaked
    simp only [Bool.and_eq_true] at check
    obtain ⟨⟨⟨returned, torn⟩, closed⟩, listed⟩ := check
    refine ⟨pool, Program.execAll_run
      (busy_reachable (by simp [Act.Entry])) ran, not_admitted returned, ?_,
      closed, List.contains_iff_mem.mp listed⟩
    intro act member
    exact of_decide_eq_true (List.all_eq_true.mp torn act member)
  · have late : (relay.play ⟨New roomLimits roomConfig 10 10, []⟩
        lateMoves).any (fun played =>
          played.2.acts.all (fun act => !admits act) &&
            (played.2.threads[1]?.any fun stack => stack.isEmpty) &&
            (played.2.shared.peers 0).slot = some 0 &&
            !(played.2.shared.peers 0).closed) = true := by decide
    obtain ⟨⟨trace, pool⟩, played, check⟩ := (Option.any_eq_true _ _).mp late
    simp only [Bool.and_eq_true, decide_eq_true_eq, Option.any_eq_true,
      Bool.not_eq_true'] at check
    obtain ⟨⟨⟨returned, stack, found, empty⟩, slot⟩, isOpen⟩ := check
    rw [List.isEmpty_iff] at empty
    subst empty
    refine ⟨trace, pool, played, ?_, found, not_admitted returned, slot,
      isOpen⟩
    exact ⟨[connects "alice" "192.0.2.1"], _, _, _, rfl, rfl, rfl⟩

end Byteln.Server.Relay

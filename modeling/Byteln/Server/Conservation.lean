import Byteln.Server.FrameMoves
import Byteln.Server.Quota
import Mathlib.Algebra.Order.BigOperators.Group.Finset
import Mathlib.Algebra.Order.Group.Multiset

/-!
# No frame is made up or handed over twice

Each frame that is read from a peer is in one place at a time: in the hands of
an activation, in one offline buffer, or in the channel of one peer.  It may
get lost on the way, but it never becomes two.
-/

namespace Byteln.Server.Relay

open Byteln.Library

/-- The frames of a sender that an activation has in hand or is about to
queue. -/
def Act.underway (p : PeerRef) (act : Act) : List (List UInt8 × Bool) :=
  (act.held p).toList ++
    (act.queues.bind fun queued => queued.2.from? p).toList

/-- The frames of a sender that have got into the channels of some peers, and
those in some offline buffers. -/
def State.keeps (s : State) (p : PeerRef) (qs : Finset PeerRef)
    (refs : Finset Ref) : Multiset (List UInt8 × Bool) :=
  ∑ q ∈ qs, (s.received p q : Multiset (List UInt8 × Bool)) +
    ∑ ref ∈ refs, (s.stored p ref : Multiset (List UInt8 × Bool))

/-- All frames of a sender that the relay has. -/
def State.has (s : State) (acts : List Act) (p : PeerRef)
    (qs : Finset PeerRef) (refs : Finset Ref) :
    Multiset (List UInt8 × Bool) :=
  s.keeps p qs refs +
    (acts.flatMap (Act.underway p) : Multiset (List UInt8 × Bool))

/-- If at most one of the summands grows, the sum grows by no more. -/
theorem sum_le_sum_add {ι M : Type*} [AddCommMonoid M] [PartialOrder M]
    [IsOrderedAddMonoid M] [CanonicallyOrderedAdd M] (indices : Finset ι)
    {f g : ι → M} {d : M} (a : ι) (here : f a ≤ g a + d)
    (others : ∀ i, i ≠ a → f i ≤ g i) :
    ∑ i ∈ indices, f i ≤ ∑ i ∈ indices, g i + d := by
  classical
  by_cases member : a ∈ indices
  · rw [← Finset.add_sum_erase _ f member, ← Finset.add_sum_erase _ g member,
      add_right_comm]
    refine add_le_add here (Finset.sum_le_sum fun i inside => ?_)
    exact others i (Finset.ne_of_mem_erase inside)
  · refine (Finset.sum_le_sum fun i inside => ?_).trans le_self_add
    exact others i fun same => member (same ▸ inside)

section Step

variable {oracle : Oracle} {s s' : State} {act : Act}
  {acts others : List Act} {p : PeerRef}

theorem forks_underway :
    (act.forks oracle s).flatMap (Act.underway p) = [] := by
  apply List.flatMap_eq_nil_iff.mpr
  intro act' forked
  rcases Act.forks_cases forked with ⟨_, rfl⟩ | ⟨_, rfl⟩ | ⟨_, rfl⟩ <;> rfl

theorem flatMap_underway_held
    (quiet : ∀ act' ∈ acts,
      (act'.queues.bind fun queued => queued.2.from? p) = none) :
    acts.flatMap (Act.underway p) = acts.filterMap (Act.held p) := by
  induction acts with
  | nil => rfl
  | cons act' acts induction =>
      have rest := induction fun other member =>
        quiet other (List.mem_cons_of_mem _ member)
      rw [List.flatMap_cons, rest, Act.underway, quiet act' List.mem_cons_self]
      cases inHand : act'.held p with
      | none => simp [inHand]
      | some frame => simp [inHand]

/-- A drain apart, what is on the way goes on, ends there, or has just been
read. -/
theorem underway_next (next : act.next oracle s = some (s', acts)) :
    (acts.flatMap (Act.underway p)).Sublist
        (act.underway p ++ framesRead p (.run act oracle)) ∨
      ∃ q ref, act = .handleConn (.drain q ref) := by
  by_cases quiet : ∀ act' ∈ acts,
      (act'.queues.bind fun queued => queued.2.from? p) = none
  · left
    rw [flatMap_underway_held quiet]
    rcases held_next (p := p) next with
      goes | ⟨data, binary, rfl, read, -, rfl⟩
    · exact goes.trans ((List.sublist_append_left _ _).trans
        (List.sublist_append_left _ _))
    · simp [Act.held, Act.underway, Act.queues, framesRead, read,
        ReadOutcome.frame?]
  · push Not at quiet
    obtain ⟨act', started, some⟩ := quiet
    obtain ⟨content, queued⟩ := Option.ne_none_iff_exists'.mp some
    obtain ⟨⟨q, out⟩, queues, sender⟩ := Option.bind_eq_some_iff.mp queued
    have isData := Outbound.eq_of_from? sender
    dsimp only at isData
    subst isData
    unfold Act.queues at queues
    split at queues
    · obtain ⟨rfl, rfl⟩ := Prod.mk.inj (Option.some.inj queues)
      rcases frame_from next started with
        ⟨ref, rfl, receives⟩ | ⟨ref, rfl⟩ | rfl
      · left
        unfold State.receiver? at receives
        obtain ⟨b, found, lookup⟩ := Option.bind_eq_some_iff.mp receives
        simp only [Act.next, ReadPeer.next, found, lookup] at next
        obtain ⟨rfl, rfl⟩ := Prod.mk.inj (Option.some.inj next)
        simp [Act.underway, Act.held, Act.queues, Outbound.from?]
      · exact .inr ⟨_, ref, rfl⟩
      · left
        simp only [Act.next, ReadPeer.next] at next
        split at next
        · cases next
        · cases next
          split <;>
            simp [Act.underway, Act.held, Act.queues, Outbound.from?]
    · obtain ⟨rfl, rfl⟩ := Prod.mk.inj (Option.some.inj queues)
      obtain ⟨rfl, -, -, rfl⟩ := send_from next started
      left
      simp [Act.underway, Act.held, Act.queues]
    · obtain ⟨rfl, rfl⟩ := Prod.mk.inj (Option.some.inj queues)
      exact absurd rfl (ping_from next started _ _)
    · cases queues

/-- The channels of all peers stay as they are, or one grows by what is
sent. -/
theorem received_all (fresh : (s.peers s.allocated).queued = [])
    (next : act.next oracle s = some (s', acts)) :
    (∀ q, s'.received p q = s.received p q) ∨
      ∃ q out, act = .send q out ∧ acts = [.ensureWriter q] ∧
        s'.calls = s.calls ∧
        s'.received p q = s.received p q ++ (out.from? p).toList ∧
        ∀ other, other ≠ q → s'.received p other = s.received p other := by
  by_cases sends : ∃ q out, act = .send q out ∧ acts = [.ensureWriter q] ∧
      s'.calls = s.calls ∧
      s'.received p q = s.received p q ++ (out.from? p).toList
  · obtain ⟨q, out, rfl, only, calls, grows⟩ := sends
    refine .inr ⟨q, out, rfl, only, calls, grows, ?_⟩
    intro other different
    rcases received_step (p := p) (q := other) fresh next with
      same | ⟨_, running, -⟩
    · exact same
    · exact absurd (Act.send.inj running).1.symm different
  · left
    intro q
    rcases received_step (p := p) (q := q) fresh next with
      same | ⟨out, running, only, calls, -, grows⟩
    · exact same
    · exact absurd ⟨q, out, running, only, calls, grows⟩ sends

/-- A drain empties the buffer of the frames it hands out. -/
theorem drain_stored {q : PeerRef} {ref : Ref}
    (next : (Act.handleConn (.drain q ref)).next oracle s = some (s', acts)) :
    (∃ b, s.bucket? ref = some b) ∧ s'.peers = s.peers ∧
      s'.stored p ref = [] ∧
      (∀ other, other ≠ ref → s'.stored p other = s.stored p other) ∧
      (acts.flatMap (Act.underway p)).Sublist (s.stored p ref) := by
  simp only [Act.next, HandleConn.next] at next
  split at next
  · cases next
  · rename_i b found
    cases next
    refine ⟨⟨b, found⟩, rfl, ?_, ?_, ?_⟩
    · unfold State.stored
      rw [State.setBucket, Registry.frames_setBucket_self found]
      rfl
    · intro other different
      unfold State.stored
      rw [State.setBucket, Registry.frames_setBucket_of_ne _ _ different]
    · have stored : s.stored p ref = b.buffer.filterMap (storedFrom p) := by
        unfold State.stored
        rw [Registry.frames_of_found found]
      have handed : ∀ frames : List (BufferedFrame Frame),
          (frames.map fun f => Act.enqueue q (.data f.data f.binary)).flatMap
            (Act.underway p) = frames.filterMap (storedFrom p) := by
        intro frames
        induction frames with
        | nil => rfl
        | cons f frames induction =>
            rw [List.map_cons, List.flatMap_cons, induction]
            cases own : storedFrom p f with
            | none =>
                rw [List.filterMap_cons_none own]
                simp only [storedFrom] at own
                simp [Act.underway, Act.held, Act.queues, own]
            | some frame =>
                rw [List.filterMap_cons_some own]
                simp only [storedFrom] at own
                simp [Act.underway, Act.held, Act.queues, own]
      have drained : (b.drainBuffer oracle.now).2.Sublist b.buffer :=
        List.filter_sublist
      rw [stored, List.flatMap_append, handed]
      simpa [Act.underway, Act.held, Act.queues] using
        drained.filterMap (storedFrom p)

/-- What a step does to the frames of a sender that are kept, and to those on
the way. -/
theorem keeps_step (qs : Finset PeerRef) {refs : Finset Ref}
    (fresh : (s.peers s.allocated).queued = [])
    (covers : ∀ ref b, s.bucket? ref = some b → ref ∈ refs)
    (next : act.next oracle s = some (s', acts)) :
    s'.keeps p qs refs +
        (acts.flatMap (Act.underway p) : Multiset (List UInt8 × Bool)) ≤
      s.keeps p qs refs +
        ((act.underway p : Multiset (List UInt8 × Bool)) +
          (framesRead p (.run act oracle) :
            Multiset (List UInt8 × Bool))) := by
  unfold State.keeps
  rcases received_all (p := p) fresh next with
    same | ⟨q, out, rfl, rfl, calls, grows, others⟩
  · have received : ∑ q ∈ qs,
        (s'.received p q : Multiset (List UInt8 × Bool)) =
          ∑ q ∈ qs, (s.received p q : Multiset (List UInt8 × Bool)) :=
      Finset.sum_congr rfl fun q _ => by rw [same q]
    rw [received, add_assoc, add_assoc]
    refine add_le_add le_rfl ?_
    by_cases drains : ∃ q ref, act = .handleConn (.drain q ref)
    · obtain ⟨q, ref, rfl⟩ := drains
      obtain ⟨⟨b, found⟩, -, emptied, kept, handed⟩ :=
        drain_stored (p := p) next
      have member := covers ref b found
      rw [← Finset.add_sum_erase _ _ member, ← Finset.add_sum_erase _
        (fun ref => (s.stored p ref : Multiset (List UInt8 × Bool))) member,
        emptied, Multiset.coe_nil, zero_add, add_comm]
      refine (add_le_add (Multiset.coe_le.mpr handed.subperm)
        (Finset.sum_le_sum fun other inside => ?_)).trans le_self_add
      rw [kept other (Finset.ne_of_mem_erase inside)]
    · have goes := (underway_next (p := p) next).resolve_right drains
      rcases stored_step (p := p) next with
        shrinks | ⟨ref, data, binary, rfl, rfl, -, grows, shrinks⟩
      · rw [Multiset.coe_add]
        exact add_le_add
          (Finset.sum_le_sum fun ref _ =>
            Multiset.coe_le.mpr (shrinks ref).subperm)
          (Multiset.coe_le.mpr goes.subperm)
      · have own : Act.underway p
            (.readPeer (.bufferIfAlone p ref data binary)) =
              [(data, binary)] := by
          simp [Act.underway, Act.held, Act.queues]
        have left : [Act.readPeer (.readFrame p)].flatMap (Act.underway p) =
            [] := rfl
        rw [own, left, Multiset.coe_nil, add_zero, ← add_assoc]
        refine (sum_le_sum_add refs ref ?_ fun other different => ?_).trans
          le_self_add
        · rw [Multiset.coe_add]
          exact Multiset.coe_le.mpr grows.subperm
        · exact Multiset.coe_le.mpr (shrinks other different).subperm
  · have own : Act.underway p (.send q out) = (out.from? p).toList := by
      simp [Act.underway, Act.held, Act.queues]
    have left : [Act.ensureWriter q].flatMap (Act.underway p) = [] := rfl
    have stored : ∀ ref, s'.stored p ref = s.stored p ref := by
      intro ref
      unfold State.stored
      rw [calls]
    have received : ∑ q ∈ qs,
        (s'.received p q : Multiset (List UInt8 × Bool)) ≤
          ∑ q ∈ qs, (s.received p q : Multiset (List UInt8 × Bool)) +
            ((out.from? p).toList : Multiset (List UInt8 × Bool)) := by
      refine sum_le_sum_add qs q ?_ fun other different => ?_
      · rw [Multiset.coe_add, grows]
      · rw [others other different]
    rw [own, left, Multiset.coe_nil, add_zero]
    simp only [stored]
    refine (add_le_add received le_rfl).trans ?_
    rw [add_right_comm, ← add_assoc]
    exact le_self_add

/-- Whatever a step does, the relay has no more frames of a sender than it had
before and has read. -/
theorem has_step {qs : Finset PeerRef} {refs : Finset Ref}
    (fresh : (s.peers s.allocated).queued = [])
    (covers : ∀ ref b, s.bucket? ref = some b → ref ∈ refs)
    (next : act.next oracle s = some (s', acts)) :
    s'.has (acts ++ (act.forks oracle s ++ others)) p qs refs ≤
      s.has (act :: others) p qs refs +
        (framesRead p (.run act oracle) : Multiset (List UInt8 × Bool)) := by
  have moved := keeps_step (p := p) qs fresh covers next
  unfold State.has
  rw [List.flatMap_append, List.flatMap_append, forks_underway,
    List.nil_append, List.flatMap_cons, ← Multiset.coe_add, ← Multiset.coe_add,
    ← add_assoc]
  refine (add_le_add moved le_rfl).trans (le_of_eq ?_)
  simp only [add_assoc]
  rw [add_comm (framesRead p (.run act oracle) :
    Multiset (List UInt8 × Bool))]

end Step

/-! ## Runs -/

theorem has_perm {s : State} {acts acts' : List Act} {p : PeerRef}
    {qs : Finset PeerRef} {refs : Finset Ref} (same : acts.Perm acts') :
    s.has acts' p qs refs = s.has acts p qs refs := by
  unfold State.has
  rw [Multiset.coe_eq_coe.mpr (same.flatMap_right (Act.underway p))]

theorem underway_entry {act : Act} {p : PeerRef} (entry : act.Entry) :
    act.underway p = [] := by
  have quiet := entry.idle.2.1
  have idle : act.held p = none := by
    cases act with
    | readPeer => exact entry.elim
    | _ => rfl
  rw [Act.underway, quiet, idle]
  rfl

/-- In every run, whatever interleaves, what the relay has of the frames of a
sender is among what it has read from it, each as often as it was read: no
frame gets to two peers, or twice to one, none is kept for later when it has
been forwarded, and none is made up. -/
theorem frames_conserved (cfg : Limits) (buckets : Config)
    (createPerMin maxBuckets : Int) {start pool : Pool State Act}
    {trace : List (Pool State Act × PoolLabel Act Oracle)}
    (started : Started cfg buckets createPerMin maxBuckets start)
    (run : (relay.system
      (Started cfg buckets createPerMin maxBuckets)).Run start trace pool)
    (p : PeerRef) (qs : Finset PeerRef) :
    pool.shared.has pool.acts p qs
        (Finset.range pool.shared.calls.reg.heap.length) ≤
      (trace.flatMap fun taken => framesRead p taken.2 :
        Multiset (List UInt8 × Bool)) := by
  have kept : WellSeated pool ∧ ∀ refs : Finset Ref,
      (∀ ref b, pool.shared.bucket? ref = some b → ref ∈ refs) →
      pool.shared.has pool.acts p qs refs ≤
        (trace.flatMap fun taken => framesRead p taken.2 :
          Multiset (List UInt8 × Bool)) := by
    induction run with
    | refl =>
        refine ⟨.started started, fun refs _ => ?_⟩
        rw [started]
        simp [State.has, State.keeps, State.received, State.stored, New,
          newRegistry, Registry.frames, Peer.zero, Pool.acts]
    | @snoc middle finish trace label _ taken induction =>
        obtain ⟨seated, bounded⟩ := induction
        refine ⟨seated.step taken, fun refs covers => ?_⟩
        rw [List.flatMap_append, ← Multiset.coe_add]
        cases label with
        | spawn act =>
            obtain ⟨entry, same, perm⟩ := Program.Step.spawn_inv taken
            rw [same] at covers ⊢
            rw [has_perm perm.symm, State.has, List.flatMap_cons,
              underway_entry entry, List.nil_append]
            exact (bounded refs covers).trans le_self_add
        | run act oracle =>
            obtain ⟨acts, others, next, before, after⟩ :=
              Program.Step.run_inv taken
            have fresh : (middle.shared.peers
                middle.shared.allocated).queued = [] := by
              rw [seated.allocated.zero _ le_rfl]
              rfl
            have earlier : ∀ ref b, middle.shared.bucket? ref = some b →
                ref ∈ refs := by
              intro ref b found
              obtain ⟨b', found', -, -⟩ := act.next_extends next ref b found
              exact covers ref b' found'
            rw [has_perm after.symm]
            refine (has_step fresh earlier next).trans (add_le_add ?_ ?_)
            · rw [has_perm before]
              exact bounded refs earlier
            · simp
  refine kept.2 _ fun ref b found => ?_
  obtain ⟨inBounds, -⟩ := List.getElem?_eq_some_iff.mp found
  exact Finset.mem_range.mpr inBounds

/-- The relay has read two frames from Alice: the first was buffered and then
drained to Bob, the second forwarded to him. -/
theorem frames_conserved_conversation :
    ∃ trace pool, (relay.system (Started roomLimits roomConfig 10 10)).Run
        ⟨New roomLimits roomConfig 10 10, []⟩ trace pool ∧
      pool.shared.received 0 1 = [([1], true), ([2], true)] ∧
      (trace.flatMap fun taken => framesRead 0 taken.2) =
        [([1], true), ([2], true)] ∧
      pool.shared.has pool.acts 0 {1}
          (Finset.range pool.shared.calls.reg.heap.length) ≤
        (trace.flatMap fun taken => framesRead 0 taken.2 :
          Multiset (List UInt8 × Bool)) := by
  have conversation : (relay.play ⟨New roomLimits roomConfig 10 10, []⟩
      conversationMoves).any (fun played =>
        played.2.shared.received 0 1 = [([1], true), ([2], true)] &&
          (played.1.flatMap fun taken => framesRead 0 taken.2) =
            [([1], true), ([2], true)]) = true := by
    decide +kernel
  obtain ⟨⟨trace, pool⟩, played, check⟩ :=
    (Option.any_eq_true _ _).mp conversation
  simp only [Bool.and_eq_true, decide_eq_true_eq] at check
  obtain ⟨received, read⟩ := check
  have run := played_run played rfl
  exact ⟨trace, pool, run, received, read,
    frames_conserved roomLimits roomConfig 10 10 rfl run 0 {1}⟩

end Byteln.Server.Relay

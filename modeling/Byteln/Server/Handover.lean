import Byteln.Server.Contention
import Byteln.Server.Forwarding
import Byteln.Server.Quota
import Byteln.Server.Seats

/-!
# Frames between the check and the send

`BufferIfAlone`, `OtherConn` and `Enqueue` are three sections.  When the other
seat leaves between them, the lookup finds nobody or the peer it found is
closed, and the frame is lost.  `KeepsReceiver` excludes these leaves, unless a
reconnect takes the seat before the lookup.
-/

namespace Byteln.Server.Relay

open Byteln.Library

/-- Whom the peer's frames are forwarded to. -/
def State.receiver? (s : State) (p : PeerRef) (ref : Ref) : Option PeerRef :=
  (s.bucket? ref).bind fun b => b.otherConn (s.peers p).slotIndex

/-- What a forwarding does once it has found the receiver. -/
def handover (p q : PeerRef) (data : List UInt8) (binary : Bool) : List Act :=
  [.enqueue q (.data ⟨data, p⟩ binary), .enqueue p (.control .peerJoin)]

/-- The step leaves the seat: it closes the connection that sits there, or
marks the seat as left. -/
def Vacates (ref : Ref) (slot : Slot) (pool : Pool State Act) :
    PoolLabel Act Oracle → Prop
  | .run (.dropPeer (.swap q)) _ =>
      ∃ b seat, pool.shared.bucket? ref = some b ∧ b.peers slot = some seat ∧
        seat.conn = some q
  | .run (.dropPeer (.leave _ _ (.marking _ slot' ref'))) _ =>
      ref' = ref ∧ slot' = slot
  | _ => False

/-- The seat has been left, and nobody has joined into it since. -/
def Vacated (ref : Ref) (slot : Slot)
    (trace : List (Pool State Act × PoolLabel Act Oracle)) : Prop :=
  ∃ earlier entry later, trace = earlier ++ entry :: later ∧
    Vacates ref slot entry.1 entry.2 ∧
    ∀ other ∈ later, taker ref slot other.1 other.2 = none

/-- The frame is in the offline buffer of the bucket, or exceeds its cap. -/
def State.Buffers (s : State) (ref : Ref) (frame : Frame) : Prop :=
  ∃ b, s.bucket? ref = some b ∧ (frame ∈ b.buffer.map BufferedFrame.data ∨
    s.calls.reg.cfg.maxBufferBytes < frame.data.length)

/-- The condition on a step and what came before it.  When a frame looks for
the other seat, that seat has not been left, or somebody has joined into it
since; and the peer found is not closed before the frame is handed to it. -/
def KeepsReceiver (earlier : List (Pool State Act × PoolLabel Act Oracle))
    (pool : Pool State Act) : PoolLabel Act Oracle → Prop
  | .run (.readPeer (.otherConn p ref _ _)) _ =>
      ¬ Vacated ref (pool.shared.peers p).slotIndex.other earlier
  | .run (.dropPeer (.swap q)) _ =>
      ∀ stack ∈ pool.threads, ∀ p data binary,
        ¬ handover p q data binary <:+: stack
  | _ => True

/-- What should become of a frame that has passed the checks: it is buffered,
or exceeds the buffer's cap, or is looked up a receiver, and then handed to
it. -/
def HandsOver (pool : Pool State Act) : PoolLabel Act Oracle → Prop
  | .run (.readPeer (.bufferIfAlone p ref data binary)) oracle =>
      ∀ s' acts, ReadPeer.next oracle pool.shared
          (.bufferIfAlone p ref data binary) = some (s', acts) →
        s'.Buffers ref ⟨data, p⟩ ∨
          acts = [.readPeer (.otherConn p ref data binary)]
  | .run (.readPeer (.otherConn p ref data binary)) oracle =>
      ∃ q, (pool.shared.peers q).closed = false ∧
        ∀ s' acts, ReadPeer.next oracle pool.shared
          (.otherConn p ref data binary) = some (s', acts) →
        acts = handover p q data binary ++ [.readPeer (.readFrame p)]
  | _ => True

/-- Every frame that is being handed over goes to an open peer. -/
def Reaches (pool : Pool State Act) : Prop :=
  ∀ stack ∈ pool.threads, ∀ p q data binary,
    handover p q data binary <:+: stack → (pool.shared.peers q).closed = false

/-! ## Receivers stay -/

theorem State.receiver?_eq_some {s : State} {p q : PeerRef} {ref : Ref} :
    s.receiver? p ref = some q ↔ ∃ b seat, s.bucket? ref = some b ∧
      b.peers (s.peers p).slotIndex.other = some seat ∧
      seat.connected = true ∧ seat.conn = some q := by
  unfold State.receiver? Bucket.otherConn Bucket.peerConn
  constructor
  · intro found
    obtain ⟨b, bucket, conn⟩ := Option.bind_eq_some_iff.mp found
    cases occupied : b.peers (s.peers p).slotIndex.other with
    | none =>
        rw [occupied] at conn
        cases conn
    | some seat =>
        rw [occupied] at conn
        dsimp only at conn
        split at conn
        · rename_i connected
          exact ⟨b, seat, bucket, occupied, connected, conn⟩
        · cases conn
  · rintro ⟨b, seat, bucket, occupied, connected, conn⟩
    rw [bucket, Option.bind_some, occupied]
    exact (if_pos connected).trans conn

section Step

variable {oracle : Oracle} {s s' : State} {act : Act}
  {acts others : List Act}

/-- Only a drop closes a peer. -/
theorem open_stays (next : act.next oracle s = some (s', acts))
    {q : PeerRef} (isOpen : (s.peers q).closed = false)
    (noDrop : act ≠ .dropPeer (.swap q)) : (s'.peers q).closed = false := by
  cases act.next_write next with
  | none same => rwa [same]
  | @one q' peer change written =>
      rw [written]
      by_cases same : q = q'
      · subst same
        rw [Function.update_self]
        cases change with
        | allocated => rfl
        | closed => exact absurd rfl noDrop
        | _ => exact isOpen
      · rwa [Function.update_of_ne same]

/-- A connection found in a seat was there before, or belongs to a peer that
has just joined and is open. -/
theorem conn_open (seating : Seating s (act :: others))
    (settled : Settled s (act :: others))
    (next : act.next oracle s = some (s', acts)) {ref : Ref}
    {b' : Bucket PeerRef Frame} {slot : Slot} {seat' : Server.Peer PeerRef}
    {q : PeerRef} (found : s'.bucket? ref = some b')
    (occupied : b'.peers slot = some seat') (stored : seat'.conn = some q) :
    (∃ b seat, s.bucket? ref = some b ∧ b.peers slot = some seat ∧
      seat.conn = some q) ∨ (s'.peers q).closed = false := by
  refine (act.conn_origin next found occupied stored).imp_right ?_
  rintro returned
  cases returned with
  | @join req existed p call =>
      rw [seating.conn _ List.mem_cons_self req existed p call rfl]
      have unseated := (seating.unseated p (by simp [Act.joining])).2
      refine open_stays next (settled.unclosed p unseated) ?_
      intro same
      cases same

theorem taker_unclosed {pool : Pool State Act}
    (seating : Seating pool.shared (act :: others))
    (settled : Settled pool.shared (act :: others))
    (next : act.next oracle pool.shared = some (s', acts)) {ref : Ref}
    {slot : Slot} {q : PeerRef}
    (takes : taker ref slot pool (.run act oracle) = some q) :
    (s'.peers q).closed = false := by
  have joins := taker_joining takes
  have unseated := (seating.unseated q
    (List.mem_filterMap.mpr ⟨act, List.mem_cons_self, joins⟩)).2
  refine open_stays next (settled.unclosed q unseated) ?_
  rintro rfl
  cases joins

/-- A join that takes a seat leaves an open connection in it. -/
theorem taker_open {pool : Pool State Act}
    (seating : Seating pool.shared (act :: others))
    (settled : Settled pool.shared (act :: others))
    (next : act.next oracle pool.shared = some (s', acts)) {ref : Ref}
    {slot : Slot} {q : PeerRef}
    (takes : taker ref slot pool (.run act oracle) = some q)
    {b : Bucket PeerRef Frame} (found : pool.shared.bucket? ref = some b) :
    ∃ b' seat, s'.bucket? ref = some b' ∧ b'.peers slot = some seat ∧
      seat.connected = true ∧ seat.conn = some q ∧
      (s'.peers q).closed = false := by
  obtain ⟨b', seat, found', occupied, connected, stored⟩ :=
    taker_stores seating next takes found
  exact ⟨b', seat, found', occupied, connected, stored,
    taker_unclosed seating settled next takes⟩

/-! ## Forwardings that start -/

/-- A frame is forwarded only if the other seat is connected, and then the
bucket stays as it is. -/
theorem bufferIfAlone_forwards {cfg : Config} {now : Time}
    {b : Bucket PeerRef Frame} {slot : Slot} {frame : Frame} {binary : Bool}
    (forwards : (b.bufferIfAlone cfg now slot frame binary).2 = false) :
    (b.bufferIfAlone cfg now slot frame binary).1 = b ∧
      ∃ seat, b.peers slot.other = some seat ∧ seat.connected = true := by
  unfold Bucket.bufferIfAlone at forwards ⊢
  by_cases connected : ((b.peers slot.other).any fun p => p.connected) = true
  · rw [if_pos connected]
    exact ⟨rfl, Option.any_eq_true _ _ |>.mp connected⟩
  · rw [if_neg connected] at forwards
    dsimp only at forwards
    split at forwards <;> cases forwards

theorem otherConn_not_mem_close {p q : PeerRef} {ref b : Ref}
    {data : List UInt8} {binary : Bool} :
    .readPeer (.otherConn p ref data binary) ∉ closeBucketPeers q b := by
  simp [closeBucketPeers]

/-- A lookup follows a check that found the other seat connected. -/
theorem otherConn_from (next : act.next oracle s = some (s', acts))
    {p : PeerRef} {ref : Ref} {data : List UInt8} {binary : Bool}
    (started : .readPeer (.otherConn p ref data binary) ∈ acts) :
    act = .readPeer (.bufferIfAlone p ref data binary) := by
  cases act with
  | handleConn call =>
      cases call with
      | list q b slot =>
          cases next
          simp at started
      | _ => grind [Act.next, HandleConn.next, refuse]
  | dropPeer call =>
      cases call <;> grind [Act.next, DropPeer.next, afterLeave]
  | readPeer call =>
      cases call <;> grind [Act.next, ReadPeer.next, otherConn_not_mem_close]
  | writeLoop call =>
      cases call <;> grind [Act.next, WriteLoop.next]
  | _ => grind [Act.next]

theorem enqueue_not_mem_close {p q : PeerRef} {b : Ref} {out : Outbound} :
    .enqueue q out ∉ closeBucketPeers p b := by
  simp [closeBucketPeers]

/-- A frame and a note to its sender are queued by the lookup alone. -/
theorem handover_from (next : act.next oracle s = some (s', acts))
    {p q : PeerRef} {frame : Frame} {binary : Bool}
    (handed : .enqueue q (.data frame binary) ∈ acts)
    (noted : .enqueue p (.control .peerJoin) ∈ acts) :
    ∃ p' ref data' binary',
      act = .readPeer (.otherConn p' ref data' binary') ∧
        s.receiver? p' ref = some q := by
  cases act with
  | handleConn call =>
      cases call with
      | list q' b slot =>
          cases next
          simp at handed
      | _ => grind [Act.next, HandleConn.next, refuse]
  | dropPeer call =>
      cases call <;> grind [Act.next, DropPeer.next, afterLeave]
  | readPeer call =>
      cases call with
      | otherConn p' ref data' binary' =>
          refine ⟨p', ref, data', binary', rfl, ?_⟩
          unfold State.receiver?
          simp only [Act.next, ReadPeer.next] at next
          split at next
          · cases next
          · rename_i b found
            rw [found, Option.bind_some]
            cases next
            split at handed
            · rename_i other lookup
              simp only [List.mem_append, List.mem_cons, Act.enqueue.injEq,
                List.not_mem_nil, reduceCtorEq, and_false, or_false] at handed
              rw [handed.1, lookup]
            · simp at handed
      | _ => grind [Act.next, ReadPeer.next, enqueue_not_mem_close]
  | writeLoop call =>
      cases call <;> grind [Act.next, WriteLoop.next]
  | _ => grind [Act.next]

theorem closeBucketPeers_last (p : PeerRef) (b : Ref) :
    (closeBucketPeers p b).getLast? = some (.readPeer (.done p)) := rfl

/-- No step leaves the queueing of a frame as its last activation. -/
theorem last_not_frame (next : act.next oracle s = some (s', acts))
    {q : PeerRef} {frame : Frame} {binary : Bool} :
    acts.getLast? ≠ some (.enqueue q (.data frame binary)) := by
  intro last
  cases act with
  | handleConn call =>
      cases call <;>
        grind [Act.next, HandleConn.next, refuse, List.getLast?_append]
  | dropPeer call =>
      cases call <;>
        grind [Act.next, DropPeer.next, afterLeave, List.getLast?_append]
  | readPeer call =>
      cases call <;>
        grind [Act.next, ReadPeer.next, closeBucketPeers_last,
          List.getLast?_append]
  | writeLoop call =>
      cases call <;> grind [Act.next, WriteLoop.next]
  | _ => grind [Act.next, List.getLast?_map]

end Step

/-- A frame that is not forwarded is buffered, or exceeds the cap. -/
theorem bufferIfAlone_buffers {cfg : Config} {now : Time}
    {b : Bucket PeerRef Frame} {slot : Slot} {frame : Frame} {binary : Bool}
    (buffered : (b.bufferIfAlone cfg now slot frame binary).2 = true) :
    frame ∈ (b.bufferIfAlone cfg now slot frame binary).1.buffer.map
        BufferedFrame.data ∨ cfg.maxBufferBytes < frame.data.length := by
  unfold Bucket.bufferIfAlone at buffered ⊢
  by_cases connected : ((b.peers slot.other).any fun p => p.connected) = true
  · rw [if_pos connected] at buffered
    cases buffered
  · rw [if_neg connected]
    dsimp only
    by_cases oversized :
        ((Payload.len frame : ℕ) : Int) > cfg.maxBufferBytes
    · exact .inr oversized
    · rw [if_neg oversized]
      exact .inl (by simp)

/-! ## Runs -/

theorem pair_infix_append {α : Type*} {x y : α} {l₁ l₂ : List α}
    (inside : [x, y] <:+: l₁ ++ l₂) :
    [x, y] <:+: l₁ ∨ [x, y] <:+: l₂ ∨ l₁.getLast? = some x := by
  rcases List.infix_append_iff_ne_nil.mp inside with
    first | second | ⟨l, l', some_, some_', split, suffix, -⟩
  · exact .inl first
  · exact .inr (.inl second)
  · right
    right
    obtain ⟨a, rest, rfl⟩ := List.exists_cons_of_ne_nil some_
    obtain ⟨rfl, tail⟩ := List.cons.inj split
    have alone : rest = [] := by
      have lengths := congrArg List.length
        (show [y] = rest ++ l' from tail)
      rw [List.length_append] at lengths
      have later := List.length_pos_of_ne_nil some_'
      rw [List.length_cons, List.length_nil] at lengths
      exact List.length_eq_zero_iff.mp (by omega)
    subst alone
    obtain ⟨before, rfl⟩ := suffix
    rw [List.getLast?_append]
    rfl

section Pools

variable {trace : List (Pool State Act × PoolLabel Act Oracle)}
  {pool pool' : Pool State Act} {act : Act} {oracle : Oracle}
  {acts others : List Act} {label : PoolLabel Act Oracle} {ref : Ref}
  {slot : Slot}

theorem Vacated.now (vacates : Vacates ref slot pool label) :
    Vacated ref slot (trace ++ [(pool, label)]) :=
  ⟨trace, (pool, label), [], rfl, vacates, by simp⟩

theorem Vacated.later (vacated : Vacated ref slot trace)
    (stays : taker ref slot pool label = none) :
    Vacated ref slot (trace ++ [(pool, label)]) := by
  obtain ⟨earlier, entry, later, rfl, vacates, untaken⟩ := vacated
  refine ⟨earlier, entry, later ++ [(pool, label)], by simp, vacates, ?_⟩
  intro other member
  rcases List.mem_append.mp member with old | last
  · exact untaken other old
  · rw [List.mem_singleton.mp last]
    exact stays

/-- A stored connection is open, a forwarding finds somebody, and a frame is
handed to an open peer, unless the seat has been left. -/
structure Manned (trace : List (Pool State Act × PoolLabel Act Oracle))
    (pool : Pool State Act) : Prop where
  seats : ∀ ref b slot seat q, pool.shared.bucket? ref = some b →
    b.peers slot = some seat → seat.conn = some q →
    (pool.shared.peers q).closed = false ∨ Vacated ref slot trace
  lookups : ∀ p ref data binary,
    .readPeer (.otherConn p ref data binary) ∈ pool.acts →
    (∃ b, pool.shared.bucket? ref = some b) ∧
      ((∃ q, pool.shared.receiver? p ref = some q) ∨
        Vacated ref (pool.shared.peers p).slotIndex.other trace)
  handed : Reaches pool

/-- A seat that has been left stays so, or is taken by an open connection. -/
private theorem vacated_step (seating : Seating pool.shared (act :: others))
    (settled : Settled pool.shared (act :: others))
    (next : act.next oracle pool.shared = some (pool'.shared, acts))
    (vacated : Vacated ref slot trace) {b : Bucket PeerRef Frame}
    (found : pool.shared.bucket? ref = some b) :
    (∃ b' seat q, pool'.shared.bucket? ref = some b' ∧
      b'.peers slot = some seat ∧ seat.connected = true ∧
      seat.conn = some q ∧ (pool'.shared.peers q).closed = false) ∨
    Vacated ref slot (trace ++ [(pool, .run act oracle)]) := by
  cases takes : taker ref slot pool (.run act oracle) with
  | none => exact .inr (vacated.later takes)
  | some q =>
      obtain ⟨b', seat, found'⟩ := taker_open seating settled next takes found
      exact .inl ⟨b', seat, q, found'⟩

private theorem manned_seats_step (manned : Manned trace pool)
    (seating : Seating pool.shared (act :: others))
    (settled : Settled pool.shared (act :: others))
    (next : act.next oracle pool.shared = some (pool'.shared, acts))
    {b' : Bucket PeerRef Frame} {seat' : Server.Peer PeerRef} {q : PeerRef}
    (found : pool'.shared.bucket? ref = some b')
    (occupied : b'.peers slot = some seat') (stored : seat'.conn = some q) :
    (pool'.shared.peers q).closed = false ∨
      Vacated ref slot (trace ++ [(pool, .run act oracle)]) := by
  rcases conn_open seating settled next found occupied stored with
    ⟨b, seat, found₀, occupied₀, stored₀⟩ | opened
  · rcases manned.seats ref b slot seat q found₀ occupied₀ stored₀ with
      isOpen | vacated
    · by_cases drops : act = .dropPeer (.swap q)
      · subst drops
        exact .inr (.now ⟨b, seat, found₀, occupied₀, stored₀⟩)
      · exact .inl (open_stays next isOpen drops)
    · rcases vacated_step seating settled next vacated found₀ with
        ⟨c, taken, q', found', occupied', -, stored', isOpen⟩ | still
      · obtain rfl := Option.some.inj (found.symm.trans found')
        obtain rfl := Option.some.inj (occupied.symm.trans occupied')
        obtain rfl := Option.some.inj (stored.symm.trans stored')
        exact .inl isOpen
      · exact .inr still
  · exact .inl opened

/-- A check that goes on to the lookup has found the other seat connected. -/
private theorem check_receives (stocked : Stocked pool.shared) {p : PeerRef}
    {data : List UInt8} {binary : Bool}
    (next : (Act.readPeer (.bufferIfAlone p ref data binary)).next oracle
      pool.shared = some (pool'.shared, acts))
    (started : .readPeer (.otherConn p ref data binary) ∈ acts) :
    (∃ b, pool'.shared.bucket? ref = some b) ∧
      ∃ q, pool'.shared.receiver? p ref = some q := by
  simp only [Act.next, ReadPeer.next] at next
  split at next
  · cases next
  · rename_i b found
    simp only [Option.some.injEq, Prod.mk.injEq] at next
    obtain ⟨shared, rfl⟩ := next
    have forwards : (b.bufferIfAlone pool.shared.calls.reg.cfg oracle.now
        (pool.shared.peers p).slotIndex ⟨data, p⟩ binary).2 = false := by
      cases buffered : (b.bufferIfAlone pool.shared.calls.reg.cfg oracle.now
        (pool.shared.peers p).slotIndex ⟨data, p⟩ binary).2 with
      | false => rfl
      | true =>
          rw [buffered] at started
          simp at started
    obtain ⟨same, seat, occupied, connected⟩ := bufferIfAlone_forwards forwards
    rw [same] at shared
    obtain ⟨q, stored⟩ := Option.isSome_iff_exists.mp
      (stocked ref b _ seat found occupied connected)
    obtain ⟨inBounds, -⟩ := List.getElem?_eq_some_iff.mp found
    have found' : (pool.shared.setBucket ref b).bucket? ref = some b := by
      simp [State.setBucket, Registry.setBucket, State.bucket?, inBounds]
    rw [← shared]
    exact ⟨⟨b, found'⟩, q, State.receiver?_eq_some.mpr
      ⟨b, seat, found', occupied, connected, stored⟩⟩

private theorem lookup_step (seated : WellSeated pool)
    (manned : Manned trace pool)
    (step : relay.Step pool (.run act oracle) pool') {p : PeerRef}
    {data : List UInt8} {binary : Bool}
    (looks : .readPeer (.otherConn p ref data binary) ∈ pool'.acts) :
    (∃ b, pool'.shared.bucket? ref = some b) ∧
      ((∃ q, pool'.shared.receiver? p ref = some q) ∨
        Vacated ref (pool'.shared.peers p).slotIndex.other
          (trace ++ [(pool, .run act oracle)])) := by
  obtain ⟨acts, others, next, before, after⟩ := Program.Step.run_inv step
  have seating := seated.seating.perm before
  have settled := seated.settled.perm before
  rcases List.mem_append.mp (after.mem_iff.mp looks) with started | rest
  · have check := otherConn_from next started
    subst check
    exact (check_receives seated.stocked next started).imp_right .inl
  rcases List.mem_append.mp rest with forked | waiting
  · rcases Act.forks_cases forked with
      ⟨_, same⟩ | ⟨_, same⟩ | ⟨_, same⟩ <;> cases same
  have waited : .readPeer (.otherConn p ref data binary) ∈ pool.acts :=
    before.mem_iff.mpr (List.mem_cons_of_mem act waiting)
  obtain ⟨⟨b, found⟩, lookup⟩ := manned.lookups p ref data binary waited
  obtain ⟨b', found', -⟩ := act.next_extends next ref b found
  refine ⟨⟨b', found'⟩, ?_⟩
  have sameSlot : (pool'.shared.peers p).slotIndex =
      (pool.shared.peers p).slotIndex := by
    obtain ⟨slot, assigned⟩ := Option.isSome_iff_exists.mp
      (seated.seating.joined _ waited p rfl)
    unfold Peer.slotIndex
    rw [assigned, seating.slotsKept next p slot assigned]
  rw [sameSlot]
  have receives : ∀ {c seat q}, pool'.shared.bucket? ref = some c →
      c.peers (pool.shared.peers p).slotIndex.other = some seat →
      seat.connected = true → seat.conn = some q →
      pool'.shared.receiver? p ref = some q := by
    intro c seat q bucket occupied connected stored
    rw [State.receiver?_eq_some, sameSlot]
    exact ⟨c, seat, bucket, occupied, connected, stored⟩
  rcases lookup with ⟨q, received⟩ | vacated
  · obtain ⟨c, seat, cFound, occupied, connected, stored⟩ :=
      State.receiver?_eq_some.mp received
    rcases act.seat_stays next cFound occupied connected with
      ⟨c', seat', cFound', occupied', connected', -⟩ | ⟨p', ip, id, rfl⟩
    · obtain ⟨q', stored'⟩ := Option.isSome_iff_exists.mp
        (seated.stocked.step next ref c' _ seat' cFound' occupied' connected')
      exact .inl ⟨q', receives cFound' occupied' connected' stored'⟩
    · exact .inr (.now ⟨rfl, rfl⟩)
  · refine (vacated_step seating settled next vacated found).imp_left ?_
    rintro ⟨c, seat, q, cFound, occupied, connected, stored, -⟩
    exact ⟨q, receives cFound occupied connected stored⟩

/-- A forwarding that has its receiver finds it open. -/
theorem Manned.receiver (manned : Manned trace pool) {p : PeerRef}
    {data : List UInt8} {binary : Bool}
    (looks : .readPeer (.otherConn p ref data binary) ∈ pool.acts)
    (kept : ¬ Vacated ref (pool.shared.peers p).slotIndex.other trace) :
    ∃ q, pool.shared.receiver? p ref = some q ∧
      (pool.shared.peers q).closed = false := by
  obtain ⟨q, received⟩ :=
    (manned.lookups p ref data binary looks).2.resolve_right kept
  obtain ⟨b, seat, found, occupied, -, stored⟩ :=
    State.receiver?_eq_some.mp received
  exact ⟨q, received,
    (manned.seats ref b _ seat q found occupied stored).resolve_right kept⟩

private theorem handed_step (manned : Manned trace pool)
    (step : relay.Step pool (.run act oracle) pool')
    (keeps : KeepsReceiver trace pool (.run act oracle)) {stack : List Act}
    (member : stack ∈ pool'.threads) {p q : PeerRef} {data : List UInt8}
    {binary : Bool} (inside : handover p q data binary <:+: stack) :
    (pool'.shared.peers q).closed = false := by
  obtain ⟨acts, rest, next, moved⟩ := Program.Step.run_stacks step
  have waited : ∀ stack ∈ pool.threads, handover p q data binary <:+: stack →
      (pool'.shared.peers q).closed = false := by
    intro stack member inside
    have isOpen := manned.handed stack member p q data binary inside
    apply open_stays next isOpen
    rintro rfl
    exact keeps stack member p data binary inside
  rcases moved.only stack member with rfl | old | ⟨act', -, rfl⟩
  · rcases pair_infix_append inside with new | below | last
    · obtain ⟨p', ref, data', binary', rfl, receives⟩ := handover_from next
        (new.subset List.mem_cons_self)
        (new.subset (List.mem_cons_of_mem _ List.mem_cons_self))
      have running : .readPeer (.otherConn p' ref data' binary') ∈
          pool.acts := List.mem_flatten.mpr ⟨_, moved.before, by simp⟩
      obtain ⟨q', receives', isOpen⟩ := manned.receiver running keeps
      obtain rfl := Option.some.inj (receives.symm.trans receives')
      have took : Act.next oracle (.readPeer (.otherConn p' ref data' binary'))
          pool.shared = some (pool'.shared, acts) := next
      apply open_stays took isOpen
      intro same
      cases same
    · exact waited _ moved.before (below.trans
        (List.suffix_cons _ _).isInfix)
    · exact absurd last (last_not_frame next)
  · exact waited stack old inside
  · have lengths := inside.length_le
    simp [handover] at lengths

theorem Manned.spawn {shared : State} {threads : List (List Act)}
    (manned : Manned trace ⟨shared, threads⟩) (entry : act.Entry) :
    Manned (trace ++ [(⟨shared, threads⟩, .spawn act)])
      ⟨shared, threads ++ [[act]]⟩ where
  seats := by
    intro ref b slot seat q found occupied stored
    exact (manned.seats ref b slot seat q found occupied stored).imp_right
      fun vacated => vacated.later rfl
  lookups := by
    intro p ref data binary member
    have old : .readPeer (.otherConn p ref data binary) ∈
        (⟨shared, threads⟩ : Pool State Act).acts := by
      unfold Pool.acts at member
      rw [List.flatten_append, List.flatten_singleton] at member
      rcases List.mem_append.mp member with old | new
      · exact old
      · obtain rfl := List.mem_singleton.mp new
        exact entry.elim
    exact (manned.lookups p ref data binary old).imp_right
      (Or.imp_right fun vacated => vacated.later rfl)
  handed := by
    intro stack member p q data binary inside
    rcases List.mem_append.mp member with old | new
    · exact manned.handed stack old p q data binary inside
    · rw [List.mem_singleton.mp new] at inside
      have lengths := inside.length_le
      simp [handover] at lengths

theorem Manned.step (manned : Manned trace pool) (seated : WellSeated pool)
    (step : relay.Step pool label pool')
    (keeps : KeepsReceiver trace pool label) :
    Manned (trace ++ [(pool, label)]) pool' := by
  cases label with
  | spawn act =>
      cases step with
      | spawn threads entry => exact manned.spawn entry
  | run act oracle =>
      constructor
      · intro ref b slot seat q found occupied stored
        obtain ⟨acts, others, next, before, -⟩ := Program.Step.run_inv step
        exact manned_seats_step manned (seated.seating.perm before)
          (seated.settled.perm before) next found occupied stored
      · intro p ref data binary member
        exact lookup_step seated manned step member
      · intro stack member p q data binary inside
        exact handed_step manned step keeps member inside

end Pools

/-- A check that passes buffers the frame, unless it exceeds the cap, or goes
on to the lookup. -/
theorem buffered_or_forwarded {oracle : Oracle} {s s' : State} {p : PeerRef}
    {ref : Ref} {data : List UInt8} {binary : Bool} {acts : List Act}
    (next : ReadPeer.next oracle s (.bufferIfAlone p ref data binary) =
      some (s', acts)) :
    s'.Buffers ref ⟨data, p⟩ ∨
      acts = [.readPeer (.otherConn p ref data binary)] := by
  simp only [ReadPeer.next] at next
  split at next
  · cases next
  · rename_i b found
    simp only [Option.some.injEq, Prod.mk.injEq] at next
    obtain ⟨rfl, rfl⟩ := next
    obtain ⟨inBounds, -⟩ := List.getElem?_eq_some_iff.mp found
    cases buffered : (b.bufferIfAlone s.calls.reg.cfg oracle.now
        (s.peers p).slotIndex ⟨data, p⟩ binary).2 with
    | false => exact .inr rfl
    | true =>
        left
        refine ⟨_, ?_, bufferIfAlone_buffers buffered⟩
        simp [State.setBucket, Registry.setBucket, State.bucket?, inBounds]

/-- A lookup hands the frame over to the peer it finds. -/
theorem otherConn_hands {oracle : Oracle} {s s' : State} {p q : PeerRef}
    {ref : Ref} {data : List UInt8} {binary : Bool} {acts : List Act}
    (receives : s.receiver? p ref = some q)
    (next : ReadPeer.next oracle s (.otherConn p ref data binary) =
      some (s', acts)) :
    acts = handover p q data binary ++ [.readPeer (.readFrame p)] := by
  obtain ⟨b, found, other⟩ := Option.bind_eq_some_iff.mp receives
  simp only [ReadPeer.next, found, other, Option.some.injEq, Prod.mk.injEq]
    at next
  exact next.2.symm

/-- In a pool that is manned a step hands over what it should. -/
theorem Manned.handsOver
    {trace : List (Pool State Act × PoolLabel Act Oracle)}
    {pool pool' : Pool State Act} {label : PoolLabel Act Oracle}
    (manned : Manned trace pool) (step : relay.Step pool label pool')
    (keeps : KeepsReceiver trace pool label) : HandsOver pool label := by
  unfold HandsOver
  split
  · intro s' acts next
    exact buffered_or_forwarded next
  · rename_i p ref data binary oracle
    obtain ⟨acts, others, -, before, -⟩ := Program.Step.run_inv step
    obtain ⟨q, receives, isOpen⟩ := manned.receiver
      (before.mem_iff.mpr List.mem_cons_self) keeps
    exact ⟨q, isOpen, fun s' acts next => otherConn_hands receives next⟩
  · trivial

/-- Along every run in which a frame's receiver has not left its seat, or
somebody has joined into it since, when the frame looks for it, and does not
close before it is handed the frame, every frame that passes the checks is
buffered, or refused by the buffer's cap, or handed to a peer that is open at
that moment. -/
theorem frames_handed_over {cfg : Limits} {buckets : Config}
    {createPerMin maxBuckets : Int} {start pool : Pool State Act}
    {trace : List (Pool State Act × PoolLabel Act Oracle)}
    (started : Started cfg buckets createPerMin maxBuckets start)
    (run : (relay.system (Started cfg buckets createPerMin
      maxBuckets)).Run start trace pool)
    (always : Lts.AlwaysMeet KeepsReceiver trace) :
    Lts.AllMeet HandsOver trace ∧ Reaches pool := by
  have kept : WellSeated pool ∧ Manned trace pool ∧
      Lts.AllMeet HandsOver trace := by
    induction run with
    | refl =>
        refine ⟨.started started, ⟨?_, ?_, ?_⟩, ?_⟩
        · intro ref b slot seat q found
          rw [started] at found
          cases found
        · intro p ref data binary member
          rw [started] at member
          cases member
        · intro stack member
          rw [started] at member
          cases member
        · intro entry member
          cases member
    | snoc run step induction =>
        obtain ⟨earlier, keeps⟩ := Lts.alwaysMeet_snoc.mp always
        obtain ⟨seated, manned, hands⟩ := induction earlier
        refine ⟨seated.step step, manned.step seated step keeps, ?_⟩
        exact Lts.allMeet_append.mpr ⟨hands, fun entry member => by
          rw [List.mem_singleton.mp member]
          exact manned.handsOver step keeps⟩
  exact ⟨kept.2.2, kept.2.1.handed⟩

/-- Alice and Bob connect, a frame of Alice's is read and finds Bob there.  Bob
hangs up, leaves and connects again before the lookup. -/
private def reconnectMoves : List (Program.Move Act Oracle) :=
  [connects "alice" "192.0.2.1"] ++ runs 0 14 ++
    [connects "bob" "192.0.2.2"] ++ runs 2 20 ++ [polls 0 false] ++
    runs 4 1 ++ runs 5 4 ++ reads 5 [1] ++ runs 5 6 ++
    [polls 1 true] ++ runs 6 1 ++ runs 7 6 ++
    [connects "bob" "192.0.2.2"] ++ runs 8 4 ++ runs 5 1

private def vacatesSeat (ref : Ref) (slot : Slot) :
    Pool State Act × PoolLabel Act Oracle → Bool
  | (pool, .run (.dropPeer (.swap q)) _) =>
      (pool.shared.bucket? ref).any fun b => (b.peers slot).any fun seat =>
        seat.conn = some q
  | (_, .run (.dropPeer (.leave _ _ (.marking _ slot' ref'))) _) =>
      ref' = ref && slot' = slot
  | _ => false

private theorem vacatesSeat_of_vacates {ref : Ref} {slot : Slot}
    {pool : Pool State Act} {label : PoolLabel Act Oracle}
    (vacates : Vacates ref slot pool label) :
    vacatesSeat ref slot (pool, label) = true ∧
      taker ref slot pool label = none := by
  revert vacates
  unfold Vacates
  split <;> intro vacates
  · obtain ⟨b, seat, found, occupied, stored⟩ := vacates
    exact ⟨by simp [vacatesSeat, found, occupied, stored], rfl⟩
  · obtain ⟨rfl, rfl⟩ := vacates
    exact ⟨by simp [vacatesSeat], rfl⟩
  · exact vacates.elim

/-- Whether the seat has been left and not taken since. -/
private def isVacated (ref : Ref) (slot : Slot)
    (trace : List (Pool State Act × PoolLabel Act Oracle)) : Bool :=
  trace.foldl (fun vacated entry =>
    (taker ref slot entry.1 entry.2).isNone &&
      (vacated || vacatesSeat ref slot entry)) false

private theorem isVacated_of_vacated {ref : Ref} {slot : Slot}
    {trace : List (Pool State Act × PoolLabel Act Oracle)}
    (vacated : Vacated ref slot trace) : isVacated ref slot trace = true := by
  obtain ⟨earlier, entry, later, rfl, vacates, untaken⟩ := vacated
  obtain ⟨leaves, stays⟩ := vacatesSeat_of_vacates vacates
  unfold isVacated
  rw [List.foldl_append, List.foldl_cons]
  generalize List.foldl _ false earlier = before
  rw [leaves, stays, Bool.or_true, Option.isNone_none, Bool.and_self]
  induction later with
  | nil => rfl
  | cons other later induction =>
      rw [List.foldl_cons, untaken other List.mem_cons_self, Bool.true_or,
        Option.isNone_none, Bool.and_self]
      exact induction fun entry member =>
        untaken entry (List.mem_cons_of_mem _ member)

private def keepsReceiver
    (earlier : List (Pool State Act × PoolLabel Act Oracle)) :
    Pool State Act × PoolLabel Act Oracle → Bool
  | (pool, .run (.readPeer (.otherConn p ref _ _)) _) =>
      !isVacated ref (pool.shared.peers p).slotIndex.other earlier
  | (pool, .run (.dropPeer (.swap q)) _) => pool.acts.all fun act =>
      match act with
      | .enqueue q' (.data _ _) => q' ≠ q
      | _ => true
  | _ => true

private theorem keepsReceiver_sound
    {earlier : List (Pool State Act × PoolLabel Act Oracle)}
    {pool : Pool State Act} {label : PoolLabel Act Oracle}
    (tested : keepsReceiver earlier (pool, label) = true) :
    KeepsReceiver earlier pool label := by
  revert tested
  unfold KeepsReceiver
  split <;> intro tested
  · intro vacated
    simp [keepsReceiver, isVacated_of_vacated vacated] at tested
  · intro stack member p data binary inside
    have waits : .enqueue _ (.data ⟨data, p⟩ binary) ∈ pool.acts :=
      List.mem_flatten.mpr ⟨stack, member, inside.subset List.mem_cons_self⟩
    simpa using List.all_eq_true.mp tested _ waits
  · trivial

/-- Alice's reader is about to hand its frame to Bob's second connection. -/
private def handsToBob : List Act → Bool
  | [.enqueue q (.data frame binary), .enqueue p (.control .peerJoin),
      .readPeer (.readFrame p')] =>
      q = 2 && frame = ⟨[1], 0⟩ && binary && p = 0 && p' = 0
  | _ => false

private theorem handover_of_handsToBob {stack : List Act}
    (hands : handsToBob stack = true) :
    stack = handover 0 2 [1] true ++ [.readPeer (.readFrame 0)] := by
  unfold handsToBob at hands
  split at hands
  · simp only [Bool.and_eq_true, decide_eq_true_eq] at hands
    obtain ⟨⟨⟨⟨rfl, rfl⟩, rfl⟩, rfl⟩, rfl⟩ := hands
    rfl
  · cases hands

/-- Alice's frame is on its way to Bob's second connection, which is open. -/
theorem frames_handed_over_reconnect :
    ∃ trace pool, (relay.system (Started roomLimits roomConfig 10 10)).Run
        ⟨New roomLimits roomConfig 10 10, []⟩ trace pool ∧
      handover 0 2 [1] true ++ [.readPeer (.readFrame 0)] ∈ pool.threads ∧
      (pool.shared.peers 1).closed = true ∧
      (pool.shared.peers 2).closed = false ∧
      Lts.AllMeet HandsOver trace := by
  have tested : (relay.play ⟨New roomLimits roomConfig 10 10, []⟩
      reconnectMoves).any (fun played =>
        Lts.testAlong keepsReceiver [] played.1 &&
        played.2.threads.any handsToBob &&
        (played.2.shared.peers 1).closed) = true := by decide
  obtain ⟨⟨trace, pool⟩, played, check⟩ := (Option.any_eq_true _ _).mp tested
  simp only [Bool.and_eq_true, List.any_eq_true] at check
  obtain ⟨⟨kept, stack, member, hands⟩, closed⟩ := check
  obtain rfl := handover_of_handsToBob hands
  have run := played_run played rfl
  have always : Lts.AlwaysMeet KeepsReceiver trace :=
    Lts.alwaysMeet_of_test (fun _ _ _ => keepsReceiver_sound) kept
  obtain ⟨handed, reaches⟩ := frames_handed_over rfl run always
  exact ⟨trace, pool, run, member, closed,
    reaches _ member 0 2 [1] true (List.prefix_append _ _).isInfix, handed⟩

/-- Alice and Bob connect, a frame of Alice's is read and finds Bob there, and
Bob hangs up before the lookup. -/
private def hangupRun : Option (Pool State Act) :=
  relay.execAll
    (busy [.handleConn (.get (roomRequest "alice" "192.0.2.1")),
      .handleConn (.get (roomRequest "bob" "192.0.2.2")), .event 0 false,
      .event 1 true])
    (List.replicate 14 (0, fine 0) ++ List.replicate 20 (1, fine 0) ++
      [(2, fine 0)] ++ List.replicate 4 (6, fine 0) ++ [(6, arriving [1])] ++
      List.replicate 6 (6, fine 0) ++ [(3, fine 0)] ++
      List.replicate 6 (7, fine 0))

private def looksUp : Act → Bool
  | .readPeer (.otherConn p ref data binary) =>
      p = 0 && ref = 0 && data = [1] && binary
  | _ => false

private def carriesNone (outs : List Outbound) : Bool :=
  outs.all fun out => out matches .control _

/-- The next step of Alice's reader discards the frame: it is not buffered, Bob
has not got it, and the lookup finds nobody. -/
theorem frame_lost :
    ∃ pool, (relay.system (Started roomLimits roomConfig 10 10)).Reachable
        pool ∧
      .readPeer (.otherConn 0 0 [1] true) ∈ pool.acts ∧
      (∃ b, pool.shared.bucket? 0 = some b ∧ b.buffer = []) ∧
      (∀ frame binary, .data frame binary ∉ (pool.shared.peers 1).queued) ∧
      ∀ oracle, relay.next oracle (.readPeer (.otherConn 0 0 [1] true))
        pool.shared = some (pool.shared, [.readPeer (.readFrame 0)]) := by
  have lost : hangupRun.any (fun pool => pool.acts.any looksUp &&
      carriesNone (pool.shared.peers 1).queued &&
      pool.shared.receiver? 0 0 = none &&
      (pool.shared.bucket? 0).any fun b => b.buffer.isEmpty) = true := by
    decide
  obtain ⟨pool, ran, check⟩ := (Option.any_eq_true _ _).mp lost
  simp only [Bool.and_eq_true, List.any_eq_true, Option.any_eq_true,
    decide_eq_true_eq] at check
  obtain ⟨⟨⟨⟨act, member, looks⟩, controls⟩, nobody⟩, b, found, empty⟩ :=
    check
  unfold looksUp at looks
  split at looks
  · rename_i p ref data binary
    simp only [Bool.and_eq_true, decide_eq_true_eq] at looks
    obtain ⟨⟨⟨rfl, rfl⟩, rfl⟩, rfl⟩ := looks
    refine ⟨pool, Program.execAll_run
      (busy_reachable (by simp [Act.Entry])) ran, member,
      ⟨b, found, List.isEmpty_iff.mp empty⟩, ?_, ?_⟩
    · intro frame binary queued
      exact absurd (List.all_eq_true.mp controls _ queued) (by simp)
    · intro oracle
      unfold State.receiver? at nobody
      rw [found, Option.bind_some] at nobody
      simp only [relay, Act.next, ReadPeer.next, found, nobody,
        List.nil_append]
  · cases looks

end Byteln.Server.Relay

import Byteln.Server.Contention
import Byteln.Server.Seating

/-!
# Which connection a drop disconnects

A seat that goes from connected to disconnected should do so because the peer
it stores is dropped.  `dropPeer` names the seat by bucket id and slot only, so
a peer whose seat a newer connection has taken over disconnects that one.
`DropsLatest` excludes these drops by the joins that came before them, and the
main theorem shows that this condition is exact.
-/

namespace Byteln.Server

/-- The seat in which a join sits down in its last section. -/
def JoinCall.Offered {κ δ : Type} (reg : Registry κ δ) (ref : Ref)
    (slot : Slot) : JoinCall κ → Prop
  | .create _ _ target => target = ref ∧ slot = 0
  | .attach args now target =>
      target = ref ∧ ∃ b, reg.heap[ref]? = some b ∧
        b.Offers reg.cfg now args slot
  | _ => False

end Byteln.Server

namespace Byteln.Server.Relay

open Byteln.Library

/-! ## Connected seats -/

/-- A bucket section leaves every occupant in its seat, with its connection. -/
theorem Poke.occupant {oracle : Server.Oracle} {s : State} {act : Act}
    {ref : Ref} {b b' : Bucket PeerRef Frame}
    (poke : Poke oracle s b act ref b') {slot : Slot}
    {q : Server.Peer PeerRef} (occupied : b.peers slot = some q) :
    ∃ q', b'.peers slot = some q' ∧ q'.conn = q.conn ∧
      q'.connected = q.connected := by
  cases poke with
  | touch =>
      refine ⟨if q.connected then { q with lastSeen := oracle.now } else q,
        by simp [Bucket.touch, occupied], ?_⟩
      split <;> exact ⟨rfl, rfl⟩
  | record => exact ⟨q, occupied, rfl, rfl⟩
  | buffer =>
      refine ⟨q, ?_, rfl, rfl⟩
      unfold Bucket.bufferIfAlone
      split_ifs <;> exact occupied
  | drain => exact ⟨q, occupied, rfl, rfl⟩

/-- Only the marking section of a leave disconnects a seat, and only the one
it names.  The seat keeps its connection, unless it is offered to a join. -/
theorem seat_stays {oracle : Server.Oracle} {call call' : Call PeerRef}
    {shared shared' : Shared PeerRef Frame}
    (step : CallStep oracle shared call shared' call') {ref : Ref}
    {b : Bucket PeerRef Frame} {slot : Slot} {q : Server.Peer PeerRef}
    (found : shared.reg.heap[ref]? = some b)
    (occupied : b.peers slot = some q) (connected : q.connected = true) :
    (∃ b' q', shared'.reg.heap[ref]? = some b' ∧ b'.peers slot = some q' ∧
      q'.connected = true ∧ (q'.conn = q.conn ∨
        ∃ join, call = .join join ∧ join.Offered shared.reg ref slot)) ∨
    ∃ id, call = .leave (.marking id slot ref) := by
  cases step with
  | joinFound | leaveMissing | leaveFound | sweepEnter | sweepEnd
  | sweepKeep | sweepCondemn | sweepDelete =>
      exact .inl ⟨b, q, found, occupied, connected, .inl rfl⟩
  | joinPublish =>
      obtain ⟨inBounds, -⟩ := List.getElem?_eq_some_iff.mp found
      exact .inl ⟨b, q, by simpa [List.getElem?_append_left inBounds],
        occupied, connected, .inl rfl⟩
  | @joinCreate args now target =>
      by_cases same : target = ref
      · subst target
        by_cases first : slot = 0
        · subst slot
          exact .inl ⟨b.setPeer 0 (some (args.peer now)), args.peer now,
            by simp [Registry.joinCreate, found], setPeer_peers_self _ _ _,
            rfl, .inr ⟨_, rfl, rfl, rfl⟩⟩
        · exact .inl ⟨b.setPeer 0 (some (args.peer now)), q,
            by simp [Registry.joinCreate, found],
            by rwa [setPeer_peers_of_ne _ _ first], connected, .inl rfl⟩
      · exact .inl ⟨b, q, by simpa [Registry.joinCreate, same], occupied,
          connected, .inl rfl⟩
  | @joinAttach args now target =>
      obtain ⟨b', found', seats⟩ :=
        shared.reg.joinAttach_heap now args target ref found
      have change := seats slot
      rw [occupied] at change
      have held : peerSeatHeld q now shared.reg.cfg.reclaimTTL = true := by
        simp [peerSeatHeld, connected]
      generalize afterEq : b'.peers slot = after at change
      cases change with
      | kept =>
          exact .inl ⟨b', q, found', afterEq, connected, .inl rfl⟩
      | cleared _ expired | taken _ expired => simp [held] at expired
      | reclaimed here =>
          obtain ⟨same, c, cFound, seated⟩ := Registry.joinAttach_target here
          exact .inl ⟨b', args.reclaim q now, found', afterEq, rfl,
            .inr ⟨_, rfl, same, c, cFound, join_offers seated⟩⟩
  | @leaveMark id left target =>
      rcases shared.reg.leaveSection_cases oracle.now id left target with
        ⟨_, unchanged⟩ | ⟨c, p, cFound, seated, _, heapEq, _⟩
      · exact .inl ⟨b, q, by rwa [unchanged], occupied, connected, .inl rfl⟩
      · by_cases sameBucket : target = ref
        · subst target
          obtain rfl : b = c := by simpa [found] using cFound
          by_cases sameSlot : slot = left
          · exact .inr ⟨id, by rw [sameSlot]⟩
          · obtain ⟨inBounds, -⟩ := List.getElem?_eq_some_iff.mp found
            refine .inl ⟨b.markLeft left p oracle.now, q,
              by simp [heapEq, inBounds], ?_, connected, .inl rfl⟩
            rwa [Bucket.markLeft, setPeer_peers_of_ne _ _ sameSlot]
        · exact .inl ⟨b, q, by simpa [heapEq, sameBucket], occupied,
            connected, .inl rfl⟩

theorem leaveMark_reg {oracle : Server.Oracle} {id : String} {slot : Slot}
    {ref : Ref} {call' : Call PeerRef} {shared shared' : Shared PeerRef Frame}
    (step : CallStep oracle shared (.leave (.marking id slot ref)) shared'
      call') :
    shared'.reg = (shared.reg.leaveSection oracle.now id slot ref).1 := by
  cases step
  rfl

/-- Marking an occupied seat leaves it disconnected. -/
theorem leaveSection_disconnects {reg : Registry PeerRef Frame} {now : Time}
    {id : String} {slot : Slot} {ref : Ref} {b : Bucket PeerRef Frame}
    {q : Server.Peer PeerRef} (found : reg.heap[ref]? = some b)
    (occupied : b.peers slot = some q) :
    ∃ b' q', (reg.leaveSection now id slot ref).1.heap[ref]? = some b' ∧
      b'.peers slot = some q' ∧ q'.connected = false := by
  obtain ⟨inBounds, -⟩ := List.getElem?_eq_some_iff.mp found
  rcases reg.leaveSection_cases now id slot ref with
    ⟨vacant, _⟩ | ⟨c, p, cFound, _, _, heapEq, _⟩
  · simp [vacant b found] at occupied
  · obtain rfl : b = c := by simpa [found] using cFound
    exact ⟨b.markLeft slot p now, _, by simp [heapEq, inBounds],
      setPeer_peers_self _ _ _, rfl⟩

/-! ## Drops -/

/-- The peer an activation drops. -/
def Act.dropped : Act → Option PeerRef
  | .dropPeer (.swap p) | .dropPeer (.creatorIP p)
  | .dropPeer (.teardown p _) | .dropPeer (.unlist p _)
  | .dropPeer (.leave p _ _) => some p
  | _ => none

theorem Act.eq_of_call?_leave {act : Act} {call : LeaveCall PeerRef}
    (inCall : act.call? = some (.leave call)) :
    ∃ p ip, act = .dropPeer (.leave p ip call) := by
  cases act with
  | dropPeer drop =>
      cases drop with
      | leave p ip inner =>
          simp only [Act.call?, Option.some.injEq, Call.leave.injEq] at inCall
          exact ⟨p, ip, by rw [inCall]⟩
      | swap | creatorIP | teardown | unlist => simp [Act.call?] at inCall
  | handleConn conn => cases conn <;> simp [Act.call?] at inCall
  | sweep => simp [Act.call?] at inCall
  | readPeer | writeLoop | event | shutdown | closePoller | stopPoller
  | releaseBucket | touch | notifyPeerPresence | notifySeat | closeSeat
  | enqueue | send | ensureWriter => simp [Act.call?] at inCall

theorem Act.eq_of_call?_join {act : Act} {call : JoinCall PeerRef}
    (inCall : act.call? = some (.join call)) :
    ∃ req existed p, act = .handleConn (.join req existed p call) := by
  cases act with
  | handleConn conn =>
      cases conn with
      | join req existed p inner =>
          simp only [Act.call?, Option.some.injEq, Call.join.injEq] at inCall
          exact ⟨req, existed, p, by rw [inCall]⟩
      | get | allowCreate | tryAcquire | upgrade | list | drain | handleRead
      | start | done => simp [Act.call?] at inCall
  | dropPeer drop => cases drop <;> simp [Act.call?] at inCall
  | sweep => simp [Act.call?] at inCall
  | readPeer | writeLoop | event | shutdown | closePoller | stopPoller
  | releaseBucket | touch | notifyPeerPresence | notifySeat | closeSeat
  | enqueue | send | ensureWriter => simp [Act.call?] at inCall

/-- A connected seat stays connected across a step, unless a leave marks it,
and keeps its connection, unless it is offered to a join. -/
theorem Act.seat_stays {oracle : Oracle} {s s' : State} {act : Act}
    {acts : List Act} (next : act.next oracle s = some (s', acts)) {ref : Ref}
    {b : Bucket PeerRef Frame} {slot : Slot} {q : Server.Peer PeerRef}
    (found : s.bucket? ref = some b) (occupied : b.peers slot = some q)
    (connected : q.connected = true) :
    (∃ b' q', s'.bucket? ref = some b' ∧ b'.peers slot = some q' ∧
      q'.connected = true ∧ (q'.conn = q.conn ∨
        ∃ req existed p call, act = .handleConn (.join req existed p call) ∧
          call.Offered s.calls.reg ref slot)) ∨
    ∃ p ip id, act = .dropPeer (.leave p ip (.marking id slot ref)) := by
  cases act.next_registry next with
  | quiet _ same =>
      exact .inl ⟨b, q, by rwa [State.bucket?, same], occupied, connected,
        .inl rfl⟩
  | @poke target c c' cFound poke callsEq =>
      obtain ⟨inBounds, -⟩ := List.getElem?_eq_some_iff.mp cFound
      left
      by_cases same : target = ref
      · subst target
        obtain rfl := Option.some.inj (found.symm.trans cFound)
        obtain ⟨q', occupied', sameConn, sameFlag⟩ := poke.occupant occupied
        exact ⟨c', q', by
          simp [State.bucket?, callsEq, State.setBucket, Registry.setBucket,
            inBounds], occupied', sameFlag.trans connected, .inl sameConn⟩
      · exact ⟨b, q, by
          simpa [State.bucket?, callsEq, State.setBucket, Registry.setBucket,
            same] using found, occupied, connected, .inl rfl⟩
  | call inCall step _ =>
      rcases Relay.seat_stays step found occupied connected with
        ⟨b', q', found', occupied', stays, conn⟩ | ⟨id, rfl⟩
      · refine .inl ⟨b', q', found', occupied', stays, conn.imp_right ?_⟩
        rintro ⟨join, rfl, offered⟩
        obtain ⟨req, existed, p, rfl⟩ := Act.eq_of_call?_join inCall
        exact ⟨req, existed, p, join, rfl, offered⟩
      · obtain ⟨p, ip, rfl⟩ := Act.eq_of_call?_leave inCall
        exact .inr ⟨p, ip, id, rfl⟩

/-- A drop that marks a connected seat finds in it the peer it drops. -/
def OwnSeat (s : State) : Act → Oracle → Prop
  | .dropPeer (.leave p _ (.marking _ slot ref)), _ =>
      ∀ b q, s.bucket? ref = some b → b.peers slot = some q →
        q.connected = true → q.conn = some p
  | _, _ => True

/-- A connected seat stays connected unless the peer it stores is dropped. -/
def OnlyOwnSeat (s : State) (act : Act) (s' : State) : Prop :=
  ∀ ref b slot q, s.bucket? ref = some b → b.peers slot = some q →
    q.connected = true →
    (∃ b' q', s'.bucket? ref = some b' ∧ b'.peers slot = some q' ∧
      q'.connected = true) ∨
    ∃ p, act.dropped = some p ∧ q.conn = some p

/-- A drop whose seat stores a newer connection leaves that one alone and
tells the other seat nothing. -/
def SparesSuccessor (s : State) (act : Act) (s' : State) (acts : List Act) :
    Prop :=
  ∀ p ip id slot ref b q,
    act = .dropPeer (.leave p ip (.marking id slot ref)) →
    s.bucket? ref = some b → b.peers slot = some q →
    q.connected = true → q.conn ≠ some p →
    (∃ b', s'.bucket? ref = some b' ∧ b'.peers slot = some q) ∧
      ∀ other, .enqueue other (.control .peerLeave) ∉ acts

/-- What a step should do to connected seats. -/
def DisconnectsOwn (s : State) (act : Act) (oracle : Oracle) : Prop :=
  ∀ s' acts, act.next oracle s = some (s', acts) →
    OnlyOwnSeat s act s' ∧ SparesSuccessor s act s' acts

/-- A step treats connected seats as it should exactly when a drop finds its
own peer in the seat it marks. -/
theorem ownSeat_iff {oracle : Oracle} {s s' : State} {act : Act}
    {acts : List Act} (next : act.next oracle s = some (s', acts)) :
    OwnSeat s act oracle ↔
      OnlyOwnSeat s act s' ∧ SparesSuccessor s act s' acts := by
  constructor
  · intro own
    constructor
    · intro ref b slot q found occupied connected
      rcases act.seat_stays next found occupied connected with
        ⟨b', q', found', occupied', stays, -⟩ | ⟨p, ip, id, rfl⟩
      · exact .inl ⟨b', q', found', occupied', stays⟩
      · exact .inr ⟨p, rfl, own b q found occupied connected⟩
    · rintro p ip id slot ref b q rfl found occupied connected other
      exact absurd (own b q found occupied connected) other
  · rintro ⟨-, spares⟩
    unfold OwnSeat
    split
    · rename_i p ip id slot ref
      intro b q found occupied connected
      by_contra other
      obtain ⟨⟨b', found', stays⟩, -⟩ := spares p ip id slot ref b q rfl found
        occupied connected other
      cases Act.next_registry next with
      | poke _ poke => cases poke
      | quiet outside => simp [Act.call?] at outside
      | call inCall step _ =>
          obtain rfl := Option.some.inj inCall
          obtain ⟨c, q', cFound, left, disconnected⟩ :=
            leaveSection_disconnects found occupied
          rw [State.bucket?, leaveMark_reg step, cFound] at found'
          obtain rfl := Option.some.inj found'
          obtain rfl : q = q' := by simpa [stays] using left
          simp [connected] at disconnected
    · trivial

/-! ## The last connection to have joined -/

/-- The connection that takes the seat in a step: its join returns the seat. -/
def taker (ref : Ref) (slot : Slot) (pool : Pool State Act) :
    PoolLabel Act Oracle → Option PeerRef
  | .run (.handleConn (.join req existed p call)) oracle =>
      match HandleConn.next oracle pool.shared (.join req existed p call) with
      | some (_, [.handleConn (.list q target seat)]) =>
          if target = ref ∧ seat = slot then some q else none
      | _ => none
  | _ => none

/-- The last connection to have joined into the seat. -/
def latest (ref : Ref) (slot : Slot)
    (trace : List (Pool State Act × PoolLabel Act Oracle)) : Option PeerRef :=
  trace.foldl (fun held entry => (taker ref slot entry.1 entry.2).or held) none

/-- The condition on a step and what came before it: a drop that marks a
connected seat drops the last connection to have joined into it. -/
def DropsLatest (earlier : List (Pool State Act × PoolLabel Act Oracle))
    (pool : Pool State Act) : PoolLabel Act Oracle → Prop
  | .run (.dropPeer (.leave p _ (.marking _ slot ref))) _ =>
      ∀ b q, pool.shared.bucket? ref = some b → b.peers slot = some q →
        q.connected = true → latest ref slot earlier = some p
  | _ => True

theorem latest_snoc {ref : Ref} {slot : Slot}
    {trace : List (Pool State Act × PoolLabel Act Oracle)}
    {pool : Pool State Act} {label : PoolLabel Act Oracle} :
    latest ref slot (trace ++ [(pool, label)]) =
      (taker ref slot pool label).or (latest ref slot trace) := by
  rw [latest, List.foldl_append]
  rfl

section Takers

variable {pool : Pool State Act} {oracle : Oracle} {s' : State} {act : Act}
  {acts others : List Act} {ref : Ref} {slot : Slot}

/-- A join that lists its peer has returned the seat without rejection. -/
theorem join_lists {s : State} {req : Request} {existed : Bool}
    {p q : PeerRef} {call : JoinCall PeerRef}
    (next : HandleConn.next oracle s (.join req existed p call) =
      some (s', [.handleConn (.list q ref slot)])) :
    q = p ∧ ∃ calls result,
      call.next oracle.toOracle s.calls =
        some (calls, .returned call.args result) ∧
      result.rejected = false ∧ result.bucket = ref ∧ result.slot = slot ∧
      s'.calls = calls := by
  simp only [HandleConn.next] at next
  split at next
  · cases next
  · rename_i calls args result returned
    obtain rfl := call.next_args returned
    split at next
    · obtain ⟨-, same⟩ := Prod.mk.inj (Option.some.inj next)
      unfold refuse at same
      split at same <;> cases same
    · rename_i accepted
      cases next
      exact ⟨rfl, calls, result, returned, Bool.eq_false_iff.mpr accepted,
        rfl, rfl, rfl⟩
  · obtain ⟨-, same⟩ := Prod.mk.inj (Option.some.inj next)
    cases same

/-- A seat is taken by a join that returns it to its peer. -/
theorem taker_join {label : PoolLabel Act Oracle} {q : PeerRef}
    (takes : taker ref slot pool label = some q) :
    ∃ req existed call oracle s',
      label = .run (.handleConn (.join req existed q call)) oracle ∧
      HandleConn.next oracle pool.shared (.join req existed q call) =
        some (s', [.handleConn (.list q ref slot)]) := by
  unfold taker at takes
  split at takes
  · rename_i req existed p call oracle
    split at takes
    · rename_i s' q' target seat next
      split at takes
      · rename_i here
        obtain ⟨rfl, rfl⟩ := here
        obtain rfl := Option.some.inj takes
        obtain ⟨rfl, -⟩ := join_lists next
        exact ⟨req, existed, call, oracle, s', rfl, next⟩
      · cases takes
    · cases takes
  · cases takes

theorem taker_joining {q : PeerRef}
    (takes : taker ref slot pool (.run act oracle) = some q) :
    act.joining = some q := by
  obtain ⟨req, existed, call, oracle', s'', same, -⟩ := taker_join takes
  obtain ⟨rfl, -⟩ := PoolLabel.run.inj same
  rfl

/-- A join that takes a seat goes on to list its peer. -/
theorem taker_lists (next : act.next oracle pool.shared = some (s', acts))
    {q : PeerRef} (takes : taker ref slot pool (.run act oracle) = some q) :
    acts = [.handleConn (.list q ref slot)] := by
  obtain ⟨req, existed, call, oracle', s'', same, taken⟩ := taker_join takes
  obtain ⟨rfl, rfl⟩ := PoolLabel.run.inj same
  exact (Prod.mk.inj (Option.some.inj (next.symm.trans taken))).2

/-- A join that takes a seat stores its connection there. -/
theorem taker_stores (seating : Seating pool.shared (act :: others))
    (next : act.next oracle pool.shared = some (s', acts)) {q : PeerRef}
    (takes : taker ref slot pool (.run act oracle) = some q)
    {b : Bucket PeerRef Frame} (found : pool.shared.bucket? ref = some b) :
    ∃ b' seat, s'.bucket? ref = some b' ∧ b'.peers slot = some seat ∧
      seat.connected = true ∧ seat.conn = some q := by
  obtain ⟨req, existed, call, oracle', s'', same, taken⟩ := taker_join takes
  obtain ⟨rfl, rfl⟩ := PoolLabel.run.inj same
  have own := seating.conn _ List.mem_cons_self req existed q call rfl
  obtain ⟨rfl, -⟩ := Prod.mk.inj (Option.some.inj (next.symm.trans taken))
  obtain ⟨-, calls, result, returned, accepted, rfl, rfl, rfl⟩ :=
    join_lists taken
  obtain ⟨b', seat, found', occupied, connected, stored⟩ :=
    join_seats (call.next_step returned) accepted found
  exact ⟨b', seat, found', occupied, connected,
    stored.trans (congrArg some own)⟩

/-- A join that has just returned with a seat has taken it. -/
theorem SeatReturned.taker (seating : Seating pool.shared (act :: others))
    {conn : PeerRef}
    (returned : SeatReturned oracle.toOracle pool.shared s' act ref slot
      conn) :
    taker ref slot pool (.run act oracle) = some conn := by
  cases returned with
  | join step accepted =>
      rw [seating.conn _ List.mem_cons_self _ _ _ _ rfl]
      simp [Relay.taker, HandleConn.next, step.join_returned, accepted]

end Takers

/-- The connection of a connected seat is the last to have joined into it. -/
def Tracked (trace : List (Pool State Act × PoolLabel Act Oracle))
    (s : State) : Prop :=
  ∀ ref b slot q conn, s.bucket? ref = some b → b.peers slot = some q →
    q.connected = true → q.conn = some conn →
    latest ref slot trace = some conn

/-- A connected seat was connected before, to the same connection, or has just
been taken. -/
theorem connected_from {pool : Pool State Act} {oracle : Oracle} {s' : State}
    {act : Act} {acts others : List Act} {ref : Ref} {slot : Slot}
    (seating : Seating pool.shared (act :: others))
    (next : act.next oracle pool.shared = some (s', acts))
    {b' : Bucket PeerRef Frame} {seat' : Server.Peer PeerRef} {q : PeerRef}
    (found : s'.bucket? ref = some b') (occupied : b'.peers slot = some seat')
    (connected : seat'.connected = true) (stored : seat'.conn = some q) :
    (∃ b seat, pool.shared.bucket? ref = some b ∧ b.peers slot = some seat ∧
      seat.connected = true ∧ seat.conn = some q) ∨
    taker ref slot pool (.run act oracle) = some q := by
  rcases act.connected_origin next found occupied connected with
    ⟨b, seat, before, here, was, sameConn⟩ | ⟨conn, fresh, returned⟩
  · exact .inl ⟨b, seat, before, here, was, sameConn.trans stored⟩
  · obtain rfl := Option.some.inj (fresh.symm.trans stored)
    exact .inr (returned.taker seating)

theorem Tracked.step {trace : List (Pool State Act × PoolLabel Act Oracle)}
    {pool pool' : Pool State Act} {label : PoolLabel Act Oracle}
    (tracked : Tracked trace pool.shared) (seated : WellSeated pool)
    (step : relay.Step pool label pool') :
    Tracked (trace ++ [(pool, label)]) pool'.shared := by
  intro ref b' slot seat' q found occupied connected stored
  rw [latest_snoc]
  cases label with
  | spawn act =>
      obtain ⟨-, same, -⟩ := Program.Step.spawn_inv step
      rw [same] at found
      exact tracked ref b' slot seat' q found occupied connected stored
  | run act oracle =>
      obtain ⟨acts, others, next, before, -⟩ := Program.Step.run_inv step
      have seating := seated.seating.perm before
      rcases connected_from seating next found occupied connected stored with
        ⟨b, seat, wasFound, wasSeated, was, wasStored⟩ | takes
      · cases taken : taker ref slot pool (.run act oracle) with
        | none =>
            exact tracked ref b slot seat q wasFound wasSeated was wasStored
        | some q' =>
            obtain ⟨c, seat'', cFound, cSeated, -, newest⟩ :=
              taker_stores seating next taken wasFound
            obtain rfl := Option.some.inj (found.symm.trans cFound)
            obtain rfl := Option.some.inj (occupied.symm.trans cSeated)
            exact newest.symm.trans stored
      · rw [takes]
        rfl

/-- Along a run, a drop finds the peer it drops in the connected seat it marks
exactly when that peer was the last to join into it. -/
theorem dropsLatest_iff {cfg : Limits} {buckets : Config}
    {createPerMin maxBuckets : Int} {start pool : Pool State Act}
    {trace : List (Pool State Act × PoolLabel Act Oracle)}
    (started : Started cfg buckets createPerMin maxBuckets start)
    (run : (relay.system (Started cfg buckets createPerMin
      maxBuckets)).Run start trace pool) (act : Act) (oracle : Oracle) :
    DropsLatest trace pool (.run act oracle) ↔
      OwnSeat pool.shared act oracle := by
  have kept : WellSeated pool ∧ Tracked trace pool.shared := by
    induction run with
    | refl =>
        refine ⟨.started started, fun ref b slot q conn found => ?_⟩
        rw [started] at found
        cases found
    | snoc run step induction =>
        exact ⟨induction.1.step step, induction.2.step induction.1 step⟩
  obtain ⟨seated, tracked⟩ := kept
  unfold OwnSeat
  split
  · rename_i p ip id slot ref
    refine forall₅_congr fun b q found occupied connected => ?_
    obtain ⟨conn, stored⟩ := Option.isSome_iff_exists.mp
      (seated.stocked ref b slot q found occupied connected)
    rw [tracked ref b slot q conn found occupied connected stored, stored]
  · unfold DropsLatest
    split
    · rename_i notMarking _ p ip id slot ref oracle' same
      obtain ⟨rfl, rfl⟩ := PoolLabel.run.inj same
      exact (notMarking p ip id slot ref rfl).elim
    · rfl

/-- In every run of the relay, connected seats are disconnected by dropping
the peer they store, and drops of older peers leave them alone, exactly when
every drop that marks a connected seat drops the last connection to have joined
into it. -/
theorem seats_disconnected {cfg : Limits} {buckets : Config}
    {createPerMin maxBuckets : Int} {start finish : Pool State Act}
    {trace : List (Pool State Act × PoolLabel Act Oracle)}
    (started : Started cfg buckets createPerMin maxBuckets start)
    (run : (relay.system (Started cfg buckets createPerMin
      maxBuckets)).Run start trace finish) :
    Lts.AlwaysMeet DropsLatest trace ↔
      Lts.AllMeet (Program.OnRun DisconnectsOwn) trace := by
  constructor
  · intro always entry member
    obtain ⟨earlier, later, split⟩ := List.append_of_mem member
    obtain ⟨pool', step⟩ := run.taken member
    cases entry with
    | mk pool label =>
        cases label with
        | spawn act => trivial
        | run act oracle =>
            have met := always earlier pool (.run act oracle) later split
            rw [split] at run
            rw [dropsLatest_iff started run.before] at met
            exact fun s' acts next => (ownSeat_iff next).mp met
  · intro disconnects earlier pool label later split
    subst split
    obtain ⟨pool', step⟩ := run.taken (List.mem_append_right _
      List.mem_cons_self)
    cases label with
    | spawn act => trivial
    | run act oracle =>
        obtain ⟨acts, others, next, -, -⟩ := Program.Step.run_inv step
        rw [dropsLatest_iff started run.before]
        exact (ownSeat_iff next).mpr (disconnects (pool, .run act oracle)
          (List.mem_append_right _ List.mem_cons_self) _ _ next)

/-- Alice and Bob connect, and Alice hangs up. -/
private def hangupMoves : List (Program.Move Act Oracle) :=
  [connects "alice" "192.0.2.1"] ++ runs 0 14 ++
    [connects "bob" "192.0.2.2"] ++ runs 2 20 ++ [polls 0 true] ++ runs 4 1 ++
    runs 5 9

/-- The condition, as a test. -/
private def dropsLatest
    (earlier : List (Pool State Act × PoolLabel Act Oracle)) :
    Pool State Act × PoolLabel Act Oracle → Bool
  | (pool, .run (.dropPeer (.leave p _ (.marking _ slot ref))) _) =>
      (pool.shared.bucket? ref).all fun b => (b.peers slot).all fun q =>
        !q.connected || latest ref slot earlier == some p
  | _ => true

private theorem dropsLatest_sound
    {earlier : List (Pool State Act × PoolLabel Act Oracle)}
    {pool : Pool State Act} {label : PoolLabel Act Oracle}
    (tested : dropsLatest earlier (pool, label) = true) :
    DropsLatest earlier pool label := by
  revert tested
  unfold DropsLatest
  split <;> intro tested
  · intro b q found occupied connected
    simpa [dropsLatest, found, occupied, connected] using tested
  · trivial

/-- Dropping Alice's connection disconnects her seat, and Bob stays. -/
theorem seats_disconnected_hangup :
    ∃ trace pool, (relay.system (Started roomLimits roomConfig 10 10)).Run
        ⟨New roomLimits roomConfig 10 10, []⟩ trace pool ∧
      (pool.shared.peers 0).slot = some 0 ∧
      (∃ b q r, pool.shared.bucket? 0 = some b ∧
        b.peers 0 = some q ∧ q.connected = false ∧
        b.peers 1 = some r ∧ r.connected = true) ∧
      Lts.AllMeet (Program.OnRun DisconnectsOwn) trace := by
  have dropped : (relay.play ⟨New roomLimits roomConfig 10 10, []⟩
      hangupMoves).any (fun played =>
        Lts.testAlong dropsLatest [] played.1 &&
        (played.2.shared.peers 0).slot = some 0 &&
        (played.2.shared.bucket? 0).any fun b =>
          ((b.peers 0).any fun q => !q.connected) &&
            (b.peers 1).any fun r => r.connected) = true := by
    decide +kernel
  obtain ⟨⟨trace, pool⟩, played, check⟩ :=
    (Option.any_eq_true _ _).mp dropped
  simp only [Bool.and_eq_true, decide_eq_true_eq, Option.any_eq_true,
    Bool.not_eq_true'] at check
  obtain ⟨⟨tested, slot⟩, b, found, ⟨q, left, gone⟩, r, stays, connected⟩ :=
    check
  have run := played_run played rfl
  have always : Lts.AlwaysMeet DropsLatest trace :=
    Lts.alwaysMeet_of_test (fun _ _ _ => dropsLatest_sound) tested
  exact ⟨trace, pool, run, slot, ⟨b, q, r, found, left, gone, stays, connected⟩,
    (seats_disconnected rfl run).mp always⟩

/-- Alice connects, connects again with the same credentials, and the first
connection hangs up. -/
private def reconnectRun : Option (Pool State Act) :=
  relay.execAll
    (busy [.handleConn (.get (roomRequest "alice" "192.0.2.1")),
      .handleConn (.get (roomRequest "alice" "192.0.2.1")), .event 0 true])
    (List.replicate 14 (0, fine 0) ++ List.replicate 4 (1, fine 0) ++
      [(2, fine 0)] ++ List.replicate 5 (4, fine 0))

/-- The activation is about to mark seat 0 as left by the first peer. -/
private def marksFirstSeat : Act → Bool
  | .dropPeer (.leave p _ (.marking _ slot ref)) =>
      p = 0 && slot = 0 && ref = 0
  | _ => false

/-- Dropping the first connection marks the seat that stores the second. -/
theorem successor_disconnected :
    ∃ pool act, (relay.system (Started roomLimits roomConfig 10 10)).Reachable
        pool ∧
      act ∈ pool.acts ∧ act.dropped = some 0 ∧
      (∃ b q, pool.shared.bucket? 0 = some b ∧ b.peers 0 = some q ∧
        q.connected = true ∧ q.conn = some 1) ∧
      ¬ DisconnectsOwn pool.shared act (fine 0) := by
  have dropping : reconnectRun.any (fun pool =>
      pool.acts.any (fun act =>
        (act.next (fine 0) pool.shared).isSome && marksFirstSeat act) &&
      (pool.shared.bucket? 0).any fun b => (b.peers 0).any fun q =>
        q.connected && q.conn = some 1) = true := by decide
  obtain ⟨pool, ran, check⟩ := (Option.any_eq_true _ _).mp dropping
  simp only [Bool.and_eq_true, List.any_eq_true, Option.any_eq_true,
    decide_eq_true_eq] at check
  obtain ⟨⟨act, member, runs, marking⟩, b, found, q, occupied, connected,
    newer⟩ := check
  have reachable : (relay.system
      (Started roomLimits roomConfig 10 10)).Reachable pool :=
    Program.execAll_run (busy_reachable (by simp [Act.Entry])) ran
  unfold marksFirstSeat at marking
  split at marking
  · rename_i p ip id slot ref
    simp only [Bool.and_eq_true, decide_eq_true_eq] at marking
    obtain ⟨⟨rfl, rfl⟩, rfl⟩ := marking
    refine ⟨pool, _, reachable, member, rfl,
      ⟨b, q, found, occupied, connected, newer⟩, fun disconnects => ?_⟩
    obtain ⟨⟨s', acts⟩, next⟩ := Option.isSome_iff_exists.mp runs
    have own := (ownSeat_iff next).mpr (disconnects s' acts next)
    simpa [newer] using own b q found occupied connected
  · simp at marking

end Byteln.Server.Relay

import Byteln.Server.Allocation
import Byteln.Server.Contention
import Byteln.Server.Forwarding
import Byteln.Server.Quota
import Byteln.Server.Seats

/-!
# One open connection for each seat

The seats of a bucket bound what the registry remembers, not the sockets that
are served.  A join into a connected seat, or into a bucket whose predecessor
still serves connections, leaves two open peers with one slot of one bucket id.
`SeatsApart` excludes these joins: the connection that a join replaces is
closed and no longer read.  Then every open peer that has joined is the
connection its seat stores, there is one for each slot of a bucket id, and no
frame of a replaced connection is buffered or forwarded.
-/

namespace Byteln.Server.Relay

open Byteln.Library

/-- The peer has completed its join under a bucket id and is not closed. -/
def State.Serves (s : State) (id : String) (p : PeerRef) : Prop :=
  (s.peers p).bucket = id ∧ (s.peers p).slot.isSome ∧
    (s.peers p).closed = false

/-- The open peers of a bucket id: one for each slot, two in all. -/
structure State.AtMostTwo (s : State) (id : String) : Prop where
  perSlot : ∀ p q, s.Serves id p → s.Serves id q →
    (s.peers p).slot = (s.peers q).slot → p = q
  count : ∀ ps : List PeerRef, ps.Nodup → (∀ p ∈ ps, s.Serves id p) →
    ps.length ≤ 2

/-- The peer is the connection stored in a connected seat of its bucket id. -/
def State.Stores (s : State) (p : PeerRef) (slot : Slot) : Prop :=
  ∃ ref b q, s.bucket? ref = some b ∧ b.id = (s.peers p).bucket ∧
    b.peers slot = some q ∧ q.connected = true ∧ q.conn = some p

/-- No bucket of the id, in the map or dropped from it, stores an open
connection in the slot. -/
def State.Vacant (s : State) (id : String) (slot : Slot) : Prop :=
  ∀ ref b q conn, s.bucket? ref = some b → b.id = id →
    b.peers slot = some q → q.connected = true → q.conn = some conn →
    (s.peers conn).closed = true

/-- The connected seat that a join gets stores the connection. -/
def State.Replaces (s : State) (call : JoinCall PeerRef) (conn : PeerRef) :
    Prop :=
  ∃ ref slot b q, call.Offered s.calls.reg ref slot ∧
    s.bucket? ref = some b ∧ b.peers slot = some q ∧ q.connected = true ∧
    q.conn = some conn

/-- The peer whose reader is past its look at `closed`: it may read frames of
it, buffer and forward them. -/
def Act.serving : Act → Option PeerRef
  | .readPeer (.enter _) | .readPeer (.swap _) | .readPeer (.again _)
  | .readPeer (.loop _) | .readPeer (.idle _) | .readPeer (.done _) => none
  | .readPeer call => some call.peer
  | _ => none

/-- The condition on a step.  No bucket of its id stores an open connection in
the slot a join gets, and no reader serves the connection that it replaces.  A
drop marks no seat of an open connection. -/
def SeatsApart (pool : Pool State Act) : PoolLabel Act Oracle → Prop
  | .run (.handleConn (.join _ _ _ call)) _ =>
      (∀ ref slot, call.Offered pool.shared.calls.reg ref slot →
        pool.shared.Vacant call.args.id slot) ∧
      ∀ conn, pool.shared.Replaces call conn →
        ∀ act ∈ pool.acts, act.serving ≠ some conn
  | .run (.dropPeer (.leave _ _ (.marking _ slot ref))) _ =>
      ∀ b q conn, pool.shared.bucket? ref = some b → b.peers slot = some q →
        q.connected = true → q.conn = some conn →
        (pool.shared.peers conn).closed = true
  | _ => True

/-- A join has replaced the connection. -/
def Replaced (trace : List (Pool State Act × PoolLabel Act Oracle))
    (conn : PeerRef) : Prop :=
  ∃ pool req existed p call oracle,
    (pool, .run (.handleConn (.join req existed p call)) oracle) ∈ trace ∧
      pool.shared.Replaces call conn

/-! ## What a step keeps of a peer -/

section Step

variable {oracle : Oracle} {s s' : State} {act : Act}
  {acts others : List Act}

/-- A reader serves an open peer, or goes on serving. -/
theorem ReadPeer.next_serving {call : ReadPeer}
    (next : call.next oracle s = some (s', acts)) {act' : Act} {p : PeerRef}
    (started : act' ∈ acts) (serves : act'.serving = some p) :
    (Act.readPeer call).serving = some p ∨
      call = .loop p ∧ (s.peers p).closed = false := by
  cases call <;>
    grind [ReadPeer.next, Act.serving, ReadPeer.peer, closeBucketPeers]

theorem Act.next_serving (next : act.next oracle s = some (s', acts))
    {act' : Act} {p : PeerRef} (started : act' ∈ acts)
    (serves : act'.serving = some p) :
    act.serving = some p ∨ (s.peers p).closed = false := by
  cases act with
  | readPeer call =>
      exact (call.next_serving next started serves).imp_right And.right
  | handleConn call =>
      cases call <;> grind [Act.next, HandleConn.next, Act.serving, refuse]
  | dropPeer call =>
      cases call <;> grind [Act.next, DropPeer.next, Act.serving, afterLeave]
  | writeLoop call =>
      cases call <;> grind [Act.next, WriteLoop.next, Act.serving]
  | _ => grind [Act.next, Act.serving]

/-- A peer that was there before stays in its bucket, and stays closed. -/
theorem Act.next_lasting (next : act.next oracle s = some (s', acts))
    {p : PeerRef} (old : p ≠ s.allocated) :
    (s'.peers p).bucket = (s.peers p).bucket ∧
      ((s.peers p).closed = true → (s'.peers p).closed = true) := by
  have modified : ∀ {target : PeerRef} {f : Peer → Peer},
      s'.peers = (s.modifyPeer target f).peers →
      (∀ peer, (f peer).bucket = peer.bucket) →
      (∀ peer, (f peer).closed = peer.closed) →
      (s'.peers p).bucket = (s.peers p).bucket ∧
        ((s.peers p).closed = true → (s'.peers p).closed = true) := by
    intro target f peers sameBucket sameClosed
    rw [peers]
    by_cases same : p = target
    · subst p
      rw [State.modifyPeer_self, sameBucket, sameClosed]
      exact ⟨rfl, fun closed => closed⟩
    · rw [State.modifyPeer_of_ne _ _ same]
      exact ⟨rfl, fun closed => closed⟩
  cases act.next_peers next with
  | tame tame => exact ⟨(tame p).bucket, (tame p).closed⟩
  | allocated _ _ _ sameElsewhere =>
      rw [sameElsewhere p old]
      exact ⟨rfl, fun closed => closed⟩
  | seated peers | started peers | queued peers =>
      exact modified peers (fun _ => rfl) fun _ => rfl

end Step

/-! ## What a join knows -/

/-- What a join knows of its peer and its bucket. -/
def Act.Informed (s : State) : Act → Prop
  | .handleConn (.join _ _ p call) =>
      call.args.conn = p ∧ call.args.id = (s.peers p).bucket ∧
        p < s.allocated ∧
        ∀ id ref, (Call.join call).target = some (id, ref) →
          ∃ b, s.bucket? ref = some b ∧ b.id = id
  | _ => True

/-- A join is offered seats in the bucket of its id. -/
theorem offered_id {s : State} {req : Request} {existed : Bool} {p : PeerRef}
    {call : JoinCall PeerRef}
    (informed : (Act.handleConn (.join req existed p call)).Informed s)
    {ref : Ref} {slot : Slot} (offered : call.Offered s.calls.reg ref slot)
    {b : Bucket PeerRef Frame} (found : s.bucket? ref = some b) :
    b.id = call.args.id := by
  obtain ⟨-, -, -, targeted⟩ := informed
  have target : (Call.join call).target = some (call.args.id, ref) := by
    cases call with
    | create args now target | attach args now target =>
        obtain ⟨rfl, -⟩ := offered
        rfl
    | _ => exact offered.elim
  obtain ⟨b', found', sameId⟩ := targeted _ _ target
  obtain rfl := Option.some.inj (found'.symm.trans found)
  exact sameId

section Step

variable {oracle : Oracle} {s' : State} {act : Act} {pool : Pool State Act}
  {acts others : List Act}

/-- The connection that a join replaces is closed, and stays unread. -/
structure Retired (s : State) (acts : List Act) (p : PeerRef) : Prop where
  closed : (s.peers p).closed = true
  unread : ∀ act ∈ acts, act.serving ≠ some p

theorem Retired.perm {s : State} {acts acts' : List Act} {p : PeerRef}
    (retired : Retired s acts p) (same : acts.Perm acts') :
    Retired s acts' p where
  closed := retired.closed
  unread := fun act member => retired.unread act (same.mem_iff.mpr member)

theorem Retired.step {s : State} {p : PeerRef}
    (retired : Retired s (act :: others) p)
    (allocated : Allocated s (act :: others))
    (next : act.next oracle s = some (s', acts)) :
    Retired s' (acts ++ (act.forks oracle s ++ others)) p where
  closed := by
    refine closed_stays next ?_ retired.closed
    rw [allocated.zero s.allocated le_rfl]
    rfl
  unread := by
    intro act' member serves
    rcases List.mem_append.mp member with started | rest
    · rcases act.next_serving next started serves with own | isOpen
      · exact retired.unread act (by simp) own
      · rw [retired.closed] at isOpen
        cases isOpen
    · rcases List.mem_append.mp rest with forked | waiting
      · rcases Act.forks_cases forked with ⟨_, rfl⟩ | ⟨_, rfl⟩ | ⟨_, rfl⟩ <;>
          cases serves
      · exact retired.unread act' (by simp [waiting]) serves

/-- A join that keeps apart from open connections replaces a closed one that
nobody reads. -/
theorem Retired.of_replaces {req : Request} {existed : Bool}
    {p conn : PeerRef} {call : JoinCall PeerRef}
    (apart : SeatsApart pool (.run (.handleConn (.join req existed p call))
      oracle))
    (informed : (Act.handleConn (.join req existed p call)).Informed
      pool.shared)
    (replaces : pool.shared.Replaces call conn) :
    Retired pool.shared pool.acts conn where
  closed := by
    obtain ⟨ref, slot, b, q, offered, found, occupied, connected, stored⟩ :=
      replaces
    exact apart.1 ref slot offered ref b q conn found
      (offered_id informed offered found) occupied connected stored
  unread := apart.2 conn replaces

theorem Retired.spawn {s : State} {p : PeerRef}
    (retired : Retired s others p) (entry : act.Entry) :
    Retired s (act :: others) p where
  closed := retired.closed
  unread := by
    intro act' member serves
    rcases List.mem_cons.mp member with rfl | member
    · cases act' with
      | readPeer call => exact entry.elim
      | _ => cases serves
    · exact retired.unread act' member serves

theorem Replaced.of_spawn {trace : List (Pool State Act × PoolLabel Act Oracle)}
    {conn : PeerRef} (replaced : Replaced (trace ++ [(pool, .spawn act)]) conn) :
    Replaced trace conn := by
  obtain ⟨at', req, existed, p, call, oracle, member, replaces⟩ := replaced
  rcases List.mem_append.mp member with before | last
  · exact ⟨at', req, existed, p, call, oracle, before, replaces⟩
  · cases List.mem_singleton.mp last

theorem Replaced.of_run {trace : List (Pool State Act × PoolLabel Act Oracle)}
    {conn : PeerRef}
    (replaced : Replaced (trace ++ [(pool, .run act oracle)]) conn) :
    Replaced trace conn ∨ ∃ req existed p call,
      act = .handleConn (.join req existed p call) ∧
        pool.shared.Replaces call conn := by
  obtain ⟨at', req, existed, p, call, oracle', member, replaces⟩ := replaced
  rcases List.mem_append.mp member with before | last
  · exact .inl ⟨at', req, existed, p, call, oracle', before, replaces⟩
  · cases List.mem_singleton.mp last
    exact .inr ⟨req, existed, p, call, rfl, replaces⟩

/-- An open connection keeps the seat that stores it. -/
theorem stores_step {p : PeerRef} {slot : Slot}
    (stores : pool.shared.Stores p slot)
    (isOpen : (pool.shared.peers p).closed = false)
    (apart : SeatsApart pool (.run act oracle))
    (informed : act.Informed pool.shared)
    (next : act.next oracle pool.shared = some (s', acts))
    (sameBucket : (s'.peers p).bucket = (pool.shared.peers p).bucket) :
    s'.Stores p slot := by
  obtain ⟨ref, b, q, found, sameId, occupied, connected, stored⟩ := stores
  obtain ⟨b', found', keptId, -⟩ := act.next_extends next ref b found
  have keptId' : b'.id = (s'.peers p).bucket :=
    keptId.trans (sameId.trans sameBucket.symm)
  rcases act.seat_stays next found occupied connected with
    ⟨c, q', cFound, occupied', connected', conn⟩ | ⟨leaver, ip, id, rfl⟩
  · obtain rfl := Option.some.inj (found'.symm.trans cFound)
    rcases conn with sameConn | ⟨req, existed, joiner, join, rfl, offered⟩
    · exact ⟨ref, b', q', found', keptId', occupied', connected',
        sameConn.trans stored⟩
    · have closed := apart.1 ref slot offered ref b q p found
        (offered_id informed offered found) occupied connected stored
      simp [isOpen] at closed
  · have closed := apart b q p found occupied connected stored
    simp [isOpen] at closed

end Step

section Step

variable {oracle : Oracle} {s s' : State} {act : Act}
  {acts others : List Act}

/-- A slot found after a step was there before, or has just been reported by
the peer's own join. -/
theorem slot_origin (next : act.next oracle s = some (s', acts))
    {p : PeerRef} {slot : Slot}
    (assigned : (s'.peers p).slot = some slot) :
    (s.peers p).slot = some slot ∨
      ∃ req existed call result, act = .handleConn (.join req existed p call) ∧
        CallStep oracle.toOracle s.calls (.join call) s'.calls
          (.join (.returned call.args result)) ∧
        result.rejected = false ∧ result.slot = slot ∧
        s'.peers = (s.modifyPeer p fun peer =>
          { peer with slot := some slot }).peers := by
  cases act.next_peers next with
  | tame tame => exact .inl ((tame p).slot ▸ assigned)
  | allocated slotless _ _ sameElsewhere =>
      by_cases new : p = s.allocated
      · subst p
        simp [slotless] at assigned
      · exact .inl (sameElsewhere p new ▸ assigned)
  | @started started _ peers | @queued started _ peers =>
      rw [peers] at assigned
      by_cases same : p = started
      · subst p
        rw [State.modifyPeer_self] at assigned
        exact .inl assigned
      · rw [State.modifyPeer_of_ne _ _ same] at assigned
        exact .inl assigned
  | @seated req existed joiner call =>
      simp only [Act.next, HandleConn.next] at next
      split at next
      · simp at next
      · rename_i calls args result taken
        have sameArgs : args = call.args := call.next_args taken
        split at next
        · cases next
          exact .inl assigned
        · rename_i accepted
          cases next
          by_cases same : p = joiner
          · subst p sameArgs
            rw [State.modifyPeer_self] at assigned
            obtain rfl := Option.some.inj assigned
            exact .inr ⟨req, existed, call, result, rfl, call.next_step taken,
              by simpa using accepted, rfl, rfl⟩
          · rw [State.modifyPeer_of_ne _ _ same] at assigned
            exact .inl assigned
      · cases next
        exact .inl assigned

end Step

/-- A join that returns without rejection has stored its connection in the
seat it was offered, in the bucket it works on. -/
theorem join_stores {oracle : Server.Oracle} {call : JoinCall PeerRef}
    {result : JoinResult} {shared shared' : Shared PeerRef Frame}
    (step : CallStep oracle shared (.join call) shared'
      (.join (.returned call.args result)))
    (accepted : result.rejected = false)
    (targeted : ∀ id ref, (Call.join call).target = some (id, ref) →
      ∃ b, shared.reg.heap[ref]? = some b ∧ b.id = id) :
    ∃ ref b q, shared'.reg.heap[ref]? = some b ∧ b.id = call.args.id ∧
      b.peers result.slot = some q ∧ q.connected = true ∧
      q.conn = some call.args.conn ∧
      call.Offered shared.reg ref result.slot := by
  obtain ⟨target, offered⟩ : (Call.join call).target =
      some (call.args.id, result.bucket) ∧
      call.Offered shared.reg result.bucket result.slot := by
    generalize callEq : JoinCall.returned call.args result = returned at step
    cases step with
    | joinFound | joinPublish => cases callEq
    | @joinCreate args now ref =>
        cases callEq
        exact ⟨rfl, rfl, rfl⟩
    | @joinAttach args now ref =>
        cases callEq
        have here : (shared.reg.joinAttach now args ref).2.outcome ref =
            some (shared.reg.joinAttach now args ref).2.slot :=
          JoinResult.outcome_eq_some.mpr
            ⟨Registry.joinAttach_bucket _ _ _ _, accepted, rfl⟩
        obtain ⟨-, c, cFound, seated⟩ := Registry.joinAttach_target here
        rw [Registry.joinAttach_bucket]
        exact ⟨rfl, rfl, c, cFound, join_offers seated⟩
  obtain ⟨b, found, sameId⟩ := targeted _ _ target
  obtain ⟨b', q, found', occupied, connected, stored⟩ :=
    join_seats step accepted found
  obtain ⟨c, cFound, keptId, -⟩ := step.extends _ b found
  obtain rfl := Option.some.inj (found'.symm.trans cFound)
  exact ⟨result.bucket, b', q, found', keptId.trans sameId, occupied, connected,
    stored, offered⟩

/-! ## The invariant -/

structure Occupancy (s : State) (acts : List Act) : Prop where
  stores : ∀ p slot, (s.peers p).slot = some slot →
    (s.peers p).closed = false → s.Stores p slot
  perSlot : ∀ id p q, s.Serves id p → s.Serves id q →
    (s.peers p).slot = (s.peers q).slot → p = q
  fresh : ∀ p, s.allocated ≤ p → (s.peers p).slot = none
  wired : ∀ id ref, s.calls.reg.m.get? id = some ref →
    ∃ b, s.bucket? ref = some b ∧ b.id = id
  informed : ∀ act ∈ acts, act.Informed s

theorem Act.informed_of_not_joining {s : State} {act : Act}
    (none : act.joining = none) : act.Informed s := by
  unfold Act.Informed
  split
  · simp [Act.joining] at none
  · trivial

section Step

variable {oracle : Oracle} {s s' : State} {act : Act}
  {acts others : List Act}

/-- An activation stays informed while others run. -/
theorem Act.Informed.mono {other : Act} (informed : other.Informed s)
    (next : act.next oracle s = some (s', acts)) : other.Informed s' := by
  unfold Act.Informed at informed ⊢
  split
  · obtain ⟨conn, sameId, old, targeted⟩ := informed
    obtain ⟨sameBucket, -⟩ := act.next_lasting next (Nat.ne_of_lt old)
    refine ⟨conn, sameId.trans sameBucket.symm,
      old.trans_le (act.next_allocated_le next), ?_⟩
    intro id ref target
    obtain ⟨b, found, sameId⟩ := targeted id ref target
    obtain ⟨b', found', keptId, -⟩ := act.next_extends next ref b found
    exact ⟨b', found', keptId.trans sameId⟩
  · trivial

/-- A join stays informed through its sections. -/
theorem join_informed {req : Request} {existed : Bool} {p : PeerRef}
    {call : JoinCall PeerRef}
    (wired : ∀ id ref, s.calls.reg.m.get? id = some ref →
      ∃ b, s.bucket? ref = some b ∧ b.id = id)
    (informed : (Act.handleConn (.join req existed p call)).Informed s)
    (next : (Act.handleConn (.join req existed p call)).next oracle s =
      some (s', acts)) :
    ∀ act' ∈ acts, act'.Informed s' := by
  have kept := informed.mono next
  obtain ⟨conn, sameId, old, -⟩ := kept
  simp only [Act.next, HandleConn.next] at next
  split at next
  · simp at next
  · split at next <;> cases next
    · intro act' member
      exact Act.informed_of_not_joining (refuse_joining req existed act' member)
    · intro act' member
      obtain rfl := List.mem_singleton.mp member
      trivial
  · rename_i calls call' notReturned taken
    cases next
    intro act' member
    obtain rfl := List.mem_singleton.mp member
    have sameArgs := call.next_args taken
    refine ⟨sameArgs ▸ conn, sameArgs ▸ sameId, old, ?_⟩
    intro id ref target
    cases call.next_step taken with
    | joinFound _ registered =>
        obtain ⟨rfl, rfl⟩ := by simpa [Call.target] using target
        exact wired _ _ registered
    | @joinPublish args b _ _ published =>
        obtain ⟨rfl, rfl⟩ := by simpa [Call.target] using target
        exact ⟨b, by simp [State.bucket?], published⟩
    | joinCreate | joinAttach => exact (notReturned _ _ rfl).elim

theorem Act.next_informed
    (wired : ∀ id ref, s.calls.reg.m.get? id = some ref →
      ∃ b, s.bucket? ref = some b ∧ b.id = id)
    (informed : act.Informed s) (next : act.next oracle s = some (s', acts)) :
    ∀ act' ∈ acts, act'.Informed s' := by
  rcases act.next_joining next with
    none | ⟨p, running, -, -, -⟩ | ⟨-, -, -, counted⟩
  · intro act' member
    exact Act.informed_of_not_joining (none act' member)
  · unfold Act.joining at running
    split at running
    · exact join_informed wired informed next
    · simp at running
  · cases act.next_peers next with
    | tame _ same | seated _ same | started _ same | queued _ same =>
        exact absurd (same.symm.trans counted) (Nat.ne_of_lt (Nat.lt_succ_self _))
    | @allocated req existed =>
        simp only [Act.next, HandleConn.next] at next
        split at next <;> cases next
        · intro act' member
          obtain rfl := List.mem_singleton.mp member
          refine ⟨rfl, by simp [JoinCall.args, Request.joinArgs],
            Nat.lt_succ_self _, ?_⟩
          intro id ref target
          simp [Call.target] at target
        · intro act' member
          exact Act.informed_of_not_joining
            (refuse_joining req existed act' member)

theorem wired_step (next : act.next oracle s = some (s', acts))
    (wired : ∀ id ref, s.calls.reg.m.get? id = some ref →
      ∃ b, s.bucket? ref = some b ∧ b.id = id) :
    ∀ id ref, s'.calls.reg.m.get? id = some ref →
      ∃ b, s'.bucket? ref = some b ∧ b.id = id := by
  intro id ref registered
  have carried : s.calls.reg.m.get? id = some ref →
      ∃ b, s'.bucket? ref = some b ∧ b.id = id := by
    intro before
    obtain ⟨b, found, sameId⟩ := wired id ref before
    obtain ⟨b', found', keptId, -⟩ := act.next_extends next ref b found
    exact ⟨b', found', keptId.trans sameId⟩
  cases act.next_registry next with
  | quiet _ same => exact carried (same ▸ registered)
  | poke _ _ callsEq =>
      rw [callsEq] at registered
      exact carried registered
  | call _ step =>
      rcases step.registered registered with before | published
      · exact carried before
      · exact published

theorem Occupancy.step {threads : List (List Act)}
    (occupancy : Occupancy s (act :: others))
    (apart : SeatsApart ⟨s, threads⟩ (.run act oracle))
    (next : act.next oracle s = some (s', acts)) :
    Occupancy s' (acts ++ (act.forks oracle s ++ others)) := by
  have informed := occupancy.informed act (by simp)
  have old : ∀ {p slot}, (s.peers p).slot = some slot → p ≠ s.allocated := by
    rintro p slot assigned rfl
    simp [occupancy.fresh s.allocated le_rfl] at assigned
  have wasOpen : ∀ {p}, p ≠ s.allocated → (s'.peers p).closed = false →
      (s.peers p).closed = false := by
    intro p old isOpen
    by_contra closed
    have stays := (act.next_lasting next old).2 (by simpa using closed)
    simp [isOpen] at stays
  have joined : ∀ {req existed p call result},
      act = .handleConn (.join req existed p call) →
      CallStep oracle.toOracle s.calls (.join call) s'.calls
        (.join (.returned call.args result)) →
      result.rejected = false →
      s'.Stores p result.slot ∧ s.Vacant (s'.peers p).bucket result.slot := by
    rintro req existed p call result rfl step accepted
    obtain ⟨conn, sameId, allocated, targeted⟩ := informed
    have sameBucket := (Act.next_lasting next (Nat.ne_of_lt allocated)).1
    obtain ⟨ref, b, q, found, bucketId, occupied, connected, stored, offered⟩ :=
      join_stores step accepted targeted
    rw [sameId, ← sameBucket] at bucketId
    rw [conn] at stored
    refine ⟨⟨ref, b, q, found, bucketId, occupied, connected, stored⟩, ?_⟩
    rw [sameBucket, ← sameId]
    exact apart.1 ref result.slot offered
  have distinct : ∀ {id p q slot}, s'.Serves id p → s'.Serves id q →
      (s.peers p).slot = some slot →
      s.Vacant (s'.peers q).bucket slot → False := by
    intro id p q slot servesP servesQ assigned vacant
    have isOpen := wasOpen (old assigned) servesP.2.2
    obtain ⟨ref, b, r, found, sameId, occupied, connected, stored⟩ :=
      occupancy.stores p slot assigned isOpen
    have sameBucket := (Act.next_lasting next (old assigned)).1
    have closed := vacant ref b r p found
      (sameId.trans (sameBucket.symm.trans (servesP.1.trans servesQ.1.symm)))
      occupied connected stored
    simp [isOpen] at closed
  constructor
  · intro p slot assigned isOpen
    rcases slot_origin next assigned with before | new
    · have open_before := wasOpen (old before) isOpen
      exact stores_step (occupancy.stores p slot before open_before)
        open_before apart informed next (act.next_lasting next (old before)).1
    · obtain ⟨req, existed, call, result, here, step, accepted, rfl, -⟩ := new
      exact (joined here step accepted).1
  · intro id p q servesP servesQ sameSlot
    obtain ⟨slot, assignedP⟩ := Option.isSome_iff_exists.mp servesP.2.1
    have assignedQ := sameSlot.symm.trans assignedP
    rcases slot_origin next assignedP with beforeP | newP
    · rcases slot_origin next assignedQ with beforeQ | newQ
      · have served : ∀ {r}, s'.Serves id r → (s.peers r).slot = some slot →
            s.Serves id r := by
          intro r serves before
          have sameBucket := (act.next_lasting next (old before)).1
          exact ⟨sameBucket.symm.trans serves.1, by simp [before],
            wasOpen (old before) serves.2.2⟩
        exact occupancy.perSlot id p q (served servesP beforeP)
          (served servesQ beforeQ) (beforeP.trans beforeQ.symm)
      · obtain ⟨req, existed, call, result, here, step, accepted, rfl, -⟩ :=
          newQ
        exact (distinct servesP servesQ beforeP
          (joined here step accepted).2).elim
    · obtain ⟨req, existed, call, result, here, step, accepted, rfl, peers⟩ :=
        newP
      rcases slot_origin next assignedQ with beforeQ | newQ
      · exact (distinct servesQ servesP beforeQ
          (joined here step accepted).2).elim
      · obtain ⟨_, _, _, _, there, -⟩ := newQ
        simp only [here, Act.handleConn.injEq, HandleConn.join.injEq] at there
        exact there.2.2.1
  · intro p unallocated
    cases assigned : (s'.peers p).slot with
    | none => rfl
    | some slot =>
        have before : s.allocated ≤ p :=
          (act.next_allocated_le next).trans unallocated
        rcases slot_origin next assigned with held | new
        · simp [occupancy.fresh p before] at held
        · obtain ⟨req, existed, call, result, rfl, -⟩ := new
          exact absurd informed.2.2.1 (not_lt_of_ge before)
  · exact wired_step next occupancy.wired
  · intro other member
    rcases List.mem_append.mp member with left | rest
    · exact act.next_informed occupancy.wired informed next other left
    · rcases List.mem_append.mp rest with forked | waits
      · exact Act.informed_of_not_joining
          (act.forks_joining oracle s other forked)
      · exact (occupancy.informed other (by simp [waits])).mono next

end Step

/-! ## Runs -/

theorem occupancy_started (cfg : Limits) (buckets : Config)
    (createPerMin maxBuckets : Int) :
    Occupancy (New cfg buckets createPerMin maxBuckets) [] where
  stores := by simp [New, Peer.zero]
  perSlot := by simp [State.Serves, New, Peer.zero]
  fresh := by simp [New, Peer.zero]
  wired := by simp [New, newRegistry]
  informed := by simp

theorem Occupancy.perm {s : State} {acts acts' : List Act}
    (occupancy : Occupancy s acts) (same : acts.Perm acts') :
    Occupancy s acts' where
  stores := occupancy.stores
  perSlot := occupancy.perSlot
  fresh := occupancy.fresh
  wired := occupancy.wired
  informed := fun act member =>
    occupancy.informed act (same.mem_iff.mpr member)

theorem Occupancy.spawn {s : State} {act : Act} {acts : List Act}
    (occupancy : Occupancy s acts) (entry : act.Entry) :
    Occupancy s (act :: acts) where
  stores := occupancy.stores
  perSlot := occupancy.perSlot
  fresh := occupancy.fresh
  wired := occupancy.wired
  informed := by
    intro other member
    rcases List.mem_cons.mp member with rfl | member
    · exact Act.informed_of_not_joining entry.idle.2.2
    · exact occupancy.informed other member

theorem Occupancy.atMostTwo {s : State} {acts : List Act}
    (occupancy : Occupancy s acts) (id : String) : s.AtMostTwo id where
  perSlot := occupancy.perSlot id
  count := by
    intro ps distinct serve
    have slots : (ps.map fun p => (s.peers p).slotIndex).Nodup := by
      apply distinct.map_on
      intro p memberP q memberQ same
      have servesP := serve p memberP
      have servesQ := serve q memberQ
      apply occupancy.perSlot id p q servesP servesQ
      obtain ⟨i, slotP⟩ := Option.isSome_iff_exists.mp servesP.2.1
      obtain ⟨j, slotQ⟩ := Option.isSome_iff_exists.mp servesQ.2.1
      simp only [Peer.slotIndex, slotP, slotQ, Option.getD_some] at same
      rw [slotP, slotQ, same]
    simpa using slots.length_le_card

/-- Along every run in which joins and drops keep apart from the seats of open
connections, every bucket id has at most two open peers, one for each slot, and
each of them is the connection that its connected seat stores. -/
theorem open_peers_seated (cfg : Limits) (buckets : Config)
    (createPerMin maxBuckets : Int) {start pool : Pool State Act}
    {trace : List (Pool State Act × PoolLabel Act Oracle)}
    (started : Started cfg buckets createPerMin maxBuckets start)
    (run : ((relay.system (Started cfg buckets createPerMin
      maxBuckets)).restrict SeatsApart).Run start trace pool) :
    (∀ id, pool.shared.AtMostTwo id) ∧
      (∀ p slot, (pool.shared.peers p).slot = some slot →
        (pool.shared.peers p).closed = false → pool.shared.Stores p slot) ∧
      ∀ conn, Replaced trace conn →
        (pool.shared.peers conn).closed = true ∧
          ∀ act ∈ pool.acts, act.serving ≠ some conn := by
  obtain ⟨-, occupancy, retired⟩ : Allocated pool.shared pool.acts ∧
      Occupancy pool.shared pool.acts ∧
      ∀ conn, Replaced trace conn →
        Retired pool.shared pool.acts conn := by
    refine Program.run_invariant relay (fun trace s acts => Allocated s acts ∧
      Occupancy s acts ∧ ∀ conn, Replaced trace conn → Retired s acts conn)
      ?perm ?spawned ?preserved ?initially run
    case perm =>
      rintro trace s acts acts' same ⟨allocated, occupancy, retired⟩
      exact ⟨allocated.perm same, occupancy.perm same,
        fun conn replaced => (retired conn replaced).perm same⟩
    case spawned =>
      rintro trace pool act entry - ⟨allocated, occupancy, retired⟩
      exact ⟨allocated.spawn entry, occupancy.spawn entry,
        fun conn replaced => (retired conn replaced.of_spawn).spawn entry⟩
    case preserved =>
      rintro trace pool act oracle s' acts others same
        ⟨allocated, occupancy, retired⟩ next apart
      refine ⟨allocated.step next, occupancy.step apart next, ?_⟩
      intro conn replaced
      refine Retired.step ?_ allocated next
      rcases replaced.of_run with before | ⟨req, existed, p, call, rfl, here⟩
      · exact retired conn before
      · exact (Retired.of_replaces apart
          (occupancy.informed _ List.mem_cons_self) here).perm same
    case initially =>
      rw [started]
      refine ⟨allocated_started cfg buckets createPerMin maxBuckets,
        occupancy_started cfg buckets createPerMin maxBuckets, ?_⟩
      rintro conn ⟨_, _, _, _, _, _, member, -⟩
      cases member
  exact ⟨occupancy.atMostTwo, occupancy.stores, fun conn replaced =>
    ⟨(retired conn replaced).closed, (retired conn replaced).unread⟩⟩

/-- Alice's connection hangs up; before its seat is left she connects again
with the same credentials. -/
private def reclaimMoves : List (Program.Move Act Oracle) :=
  [connects "alice" "192.0.2.1"] ++ runs 0 14 ++ [polls 0 true] ++
    runs 2 1 ++ runs 3 1 ++ [connects "alice" "192.0.2.1"] ++ runs 4 12

/-- At a join all stored connections are closed and unread; no seat is left. -/
private def joinsApart : Pool State Act × PoolLabel Act Oracle → Bool
  | (pool, .run (.handleConn (.join _ _ _ _)) _) =>
      (pool.shared.calls.reg.heap.all fun b => [0, 1].all fun slot =>
        (b.peers slot).all fun q => q.conn.all fun conn =>
          (pool.shared.peers conn).closed) &&
      pool.acts.all fun act => act.serving.isNone
  | (_, .run (.dropPeer (.leave _ _ (.marking _ _ _))) _) => false
  | _ => true

private theorem seatsApart_of_joinsApart (pool : Pool State Act)
    (label : PoolLabel Act Oracle) (apart : joinsApart (pool, label) = true) :
    SeatsApart pool label := by
  revert apart
  unfold SeatsApart
  split <;> intro apart
  · simp only [joinsApart, Bool.and_eq_true] at apart
    obtain ⟨closed, unread⟩ := apart
    constructor
    · intro ref slot _ ref' b q conn found _ occupied _ stored
      have seats := List.all_eq_true.mp closed b
        (List.mem_of_getElem? found)
      have seat := List.all_eq_true.mp seats slot (by fin_cases slot <;> simp)
      simpa [occupied, stored] using seat
    · intro conn _ act member serves
      have free := List.all_eq_true.mp unread act member
      simp [serves] at free
  · simp [joinsApart] at apart
  · trivial

/-- The join takes seat 0 from the first connection. -/
private def takesFirst : Pool State Act × PoolLabel Act Oracle → Bool
  | (pool, .run (.handleConn (.join _ _ _ (.attach args now ref))) _) =>
      (pool.shared.bucket? ref).any fun b =>
        (b.join pool.shared.calls.reg.cfg now args).2 = some 0 &&
          (b.peers 0).any fun q => q.connected && q.conn = some 0
  | _ => false

private theorem replaced_of_takesFirst
    {trace : List (Pool State Act × PoolLabel Act Oracle)}
    (taken : trace.any takesFirst = true) : Replaced trace 0 := by
  obtain ⟨entry, member, takes⟩ := List.any_eq_true.mp taken
  unfold takesFirst at takes
  split at takes
  · rename_i pool req existed p args now ref oracle
    simp only [Option.any_eq_true, Bool.and_eq_true, decide_eq_true_eq]
      at takes
    obtain ⟨b, found, accepted, q, occupied, connected, stored⟩ := takes
    exact ⟨pool, req, existed, p, _, oracle, member, ref, 0, b, q,
      ⟨rfl, b, found, join_offers accepted⟩, found, occupied, connected,
      stored⟩
  · cases takes

/-- The second connection is open in Alice's seat; the first has been
replaced. -/
theorem open_peers_seated_reclaim :
    ∃ trace pool, (relay.system (Started roomLimits roomConfig 10 10)).Run
        ⟨New roomLimits roomConfig 10 10, []⟩ trace pool ∧
      pool.shared.Serves "room" 1 ∧ Replaced trace 0 ∧
      (∀ id, pool.shared.AtMostTwo id) ∧ pool.shared.Stores 1 0 ∧
      (pool.shared.peers 0).closed = true ∧
      ∀ act ∈ pool.acts, act.serving ≠ some 0 := by
  obtain ⟨trace, pool, played, tested, taken, bucket, slot, isOpen⟩ :
      ∃ trace pool, relay.play ⟨New roomLimits roomConfig 10 10, []⟩
        reclaimMoves = some (trace, pool) ∧ trace.all joinsApart = true ∧
      trace.any takesFirst = true ∧
      (pool.shared.peers 1).bucket = "room" ∧
      (pool.shared.peers 1).slot = some 0 ∧
      (pool.shared.peers 1).closed = false :=
    ⟨_, _, rfl, rfl, rfl, rfl, rfl, rfl⟩
  have run := played_restrict seatsApart_of_joinsApart played rfl tested
  have replaced := replaced_of_takesFirst taken
  obtain ⟨atMostTwo, stores, unread⟩ :=
    open_peers_seated roomLimits roomConfig 10 10 rfl run
  obtain ⟨closed, retired⟩ := unread 0 replaced
  exact ⟨trace, pool, played_run played rfl, ⟨bucket, by simp [slot], isOpen⟩,
    replaced, atMostTwo, stores 1 0 slot isOpen, closed, retired⟩

/-- Alice connects, connects again with the same credentials, and sends a frame
over the first connection. -/
private def replacedRun : Option (Pool State Act) :=
  relay.execAll
    (busy [.handleConn (.get (roomRequest "alice" "192.0.2.1")),
      .handleConn (.get (roomRequest "alice" "192.0.2.1")), .event 0 false])
    (List.replicate 14 (0, fine 0) ++ List.replicate 4 (1, fine 0) ++
      [(2, fine 0)] ++ List.replicate 4 (4, fine 0) ++ [(4, arriving [1])] ++
      List.replicate 6 (4, fine 0))

/-- Both connections are open in slot 0, and the frame of the replaced one is
buffered in their bucket. -/
theorem replaced_peer_served :
    ∃ pool, (relay.system (Started roomLimits roomConfig 10 10)).Reachable
        pool ∧
      ¬ pool.shared.AtMostTwo "room" ∧
      (pool.shared.peers 0).closed = false ∧
      ∃ b, pool.shared.bucket? 0 = some b ∧
        (∃ q, b.peers 0 = some q ∧ q.conn = some 1) ∧
        b.buffer.map (fun f => f.data) = [⟨[1], 0⟩] := by
  have served : replacedRun.any (fun pool =>
      (pool.shared.peers 0).bucket = "room" &&
        (pool.shared.peers 1).bucket = "room" &&
        (pool.shared.peers 0).slot = some 0 &&
        (pool.shared.peers 1).slot = some 0 &&
        (pool.shared.peers 0).closed = false &&
        (pool.shared.peers 1).closed = false &&
        (pool.shared.bucket? 0).any fun b =>
          ((b.peers 0).any fun q => q.conn = some 1) &&
            (b.buffer.map (fun f => f.data) = [⟨[1], 0⟩] : Bool)) =
      true := by decide
  obtain ⟨pool, ran, check⟩ := (Option.any_eq_true _ _).mp served
  simp only [Bool.and_eq_true, Option.any_eq_true, decide_eq_true_eq] at check
  obtain ⟨⟨⟨⟨⟨⟨bucket, bucket'⟩, slot⟩, slot'⟩, isOpen⟩, isOpen'⟩, b, found,
    stored, buffered⟩ := check
  refine ⟨pool, Program.execAll_run (busy_reachable (by simp [Act.Entry])) ran,
    ?_, isOpen, b, found, stored, buffered⟩
  intro atMostTwo
  have same := atMostTwo.perSlot 0 1 ⟨bucket, by simp [slot], isOpen⟩
    ⟨bucket', by simp [slot'], isOpen'⟩ (slot.trans slot'.symm)
  exact absurd same (by decide)

end Byteln.Server.Relay

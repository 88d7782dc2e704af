import Byteln.Server.Exclusive
import Byteln.Server.Handover

/-!
# Who is told that the other one is there

A peer learns from `peer_join` and `peer_leave` whether the other seat of its
bucket is connected.  Each of them is decided from the registry and sent in a
later step, so the last one a peer gets may have been overtaken by a drop or a
join.  `KeepsPresence` excludes these sends, unless the control that corrects
them is on its way.
-/

namespace Byteln.Server

/-- A leave that marks a seat reports the connection of the other one. -/
theorem leaveSection_reports {κ δ : Type} {r : Registry κ δ} {now : Time}
    {id : String} {slot : Slot} {ref : Ref} {b : Bucket κ δ} {q o : Peer κ}
    (found : r.heap[ref]? = some b) (occupied : b.peers slot = some q)
    (across : b.peers slot.other = some o) (connected : o.connected = true) :
    (r.leaveSection now id slot ref).2.otherConn = o.conn := by
  have elsewhere : (b.markLeft slot q now).peers slot.other = some o :=
    (setPeer_peers_of_ne _ _ (Slot.other_ne slot)).trans across
  unfold Registry.leaveSection
  rw [found]
  dsimp only
  rw [occupied]
  dsimp only
  rw [elsewhere, Option.any_some, if_pos connected, Option.bind_some]
  split <;> rfl

end Byteln.Server

namespace Byteln.Server.Relay

open Byteln.Library

/-! ## What a peer has been told -/

/-- What a control says about the other seat. -/
def Outbound.presence : Outbound → Option Bool
  | .control .peerJoin => some true
  | .control .peerLeave => some false
  | _ => none

/-- What the last presence control put on the peer's queue says. -/
def Peer.told (peer : Peer) : Option Bool :=
  (peer.queued.filterMap Outbound.presence).getLast?

def State.Connected (s : State) (ref : Ref) (slot : Slot) : Prop :=
  ∃ b seat, s.bucket? ref = some b ∧ b.peers slot = some seat ∧
    seat.connected = true

/-- The peer is the connection of a connected seat. -/
def State.Sits (s : State) (ref : Ref) (slot : Slot) (p : PeerRef) : Prop :=
  ∃ b seat, s.bucket? ref = some b ∧ b.peers slot = some seat ∧
    seat.connected = true ∧ seat.conn = some p

/-- The activation is about to tell the peer in the seat that the other one is
there, if it is. -/
def Act.tellsJoin (ref : Ref) (slot : Slot) (p : PeerRef) : Act → Bool
  | .handleConn (.list _ b _) | .notifyPeerPresence b => b = ref
  | .notifySeat b seat => b = ref && seat = slot
  | .enqueue q (.control .peerJoin) | .send q (.control .peerJoin) => q = p
  | _ => false

/-- The activation is about to tell the peer that the other one has left. -/
def Act.tellsLeave (p : PeerRef) : Act → Bool
  | .enqueue q (.control .peerLeave) | .send q (.control .peerLeave) => q = p
  | _ => false

/-- The activation is a drop of the peer that has yet to mark its seat. -/
def Act.leaving (ref : Ref) (slot : Slot) (p : PeerRef) : Act → Bool
  | .dropPeer (.creatorIP q) | .dropPeer (.teardown q _)
  | .dropPeer (.unlist q _) => q = p
  | .dropPeer (.leave q _ (.enter _ seat)) => q = p && seat = slot
  | .dropPeer (.leave q _ (.marking _ seat b)) =>
      q = p && seat = slot && b = ref
  | _ => false

/-- No presence control meets a full queue. -/
def ControlsFit (pool : Pool State Act) : PoolLabel Act Oracle → Prop
  | .run (.send p (.control .peerJoin)) _
  | .run (.send p (.control .peerLeave)) _ =>
      (pool.shared.peers p).sendCh.length < sendChCap
  | _ => True

/-- The condition on a step.  The peer in a connected seat is told that the
other one is there only while it is, or while it is about to be told that the
other one has left; and the other way round.  A drop finds the bucket in which
its peer sits. -/
def KeepsPresence (pool : Pool State Act) : PoolLabel Act Oracle → Prop
  | .run (.send p (.control .peerJoin)) _ =>
      ∀ ref slot, pool.shared.Sits ref slot p →
        pool.shared.Connected ref slot.other ∨
          ∃ act ∈ pool.acts, act.tellsLeave p = true
  | .run (.send p (.control .peerLeave)) _ =>
      ∀ ref slot, pool.shared.Sits ref slot p →
        ¬ pool.shared.Connected ref slot.other ∨
          ∃ act ∈ pool.acts, act.tellsJoin ref slot p = true
  | .run (.dropPeer (.leave p _ (.enter id slot))) _ =>
      ∀ ref, pool.shared.Sits ref slot p →
        pool.shared.calls.reg.m.get? id = some ref
  | _ => True

/-- No handler is between its steps; write loops may be. -/
def Resting (pool : Pool State Act) : Prop :=
  ∀ act ∈ pool.acts, ∃ call, act = .writeLoop call

/-- Whoever sits in a seat has last been told that the other one is there
exactly when it is. -/
def State.PresenceTold (s : State) : Prop :=
  ∀ ref slot p, s.Sits ref slot p →
    ((s.peers p).told = some true ↔ s.Connected ref slot.other)

/-! ## The invariant -/

/-- Who sits in a seat and is open has been told the truth about the other one,
or is about to be; who is closed has a drop under way. -/
structure Presence (s : State) (acts : List Act) : Prop where
  joins : ∀ ref slot p, s.Sits ref slot p → (s.peers p).closed = false →
    s.Connected ref slot.other → (s.peers p).told = some true ∨
      ∃ act ∈ acts, act.tellsJoin ref slot p = true
  leaves : ∀ ref slot p, s.Sits ref slot p → (s.peers p).closed = false →
    ¬ s.Connected ref slot.other → (s.peers p).told ≠ some true ∨
      ∃ act ∈ acts, act.tellsLeave p = true
  drops : ∀ ref slot p, s.Sits ref slot p → (s.peers p).closed = true →
    ∃ act ∈ acts, act.leaving ref slot p = true

theorem State.Sits.connected {s : State} {ref : Ref} {slot : Slot}
    {p : PeerRef} (sits : s.Sits ref slot p) : s.Connected ref slot := by
  obtain ⟨b, seat, found, occupied, connected, -⟩ := sits
  exact ⟨b, seat, found, occupied, connected⟩

section Step

variable {oracle : Oracle} {s s' : State} {act : Act}
  {acts others : List Act} {p : PeerRef} {ref : Ref} {slot : Slot}

/-! ## Seats across a step -/

theorem State.Sits.assigned (seating : Seating s acts)
    (sits : s.Sits ref slot p) : (s.peers p).slot = some slot := by
  obtain ⟨b, seat, found, occupied, -, stored⟩ := sits
  exact seating.seats ref b slot seat p found occupied stored

theorem State.Sits.ne_allocated (seating : Seating s acts)
    (sits : s.Sits ref slot p) : p ≠ s.allocated := by
  rintro rfl
  have assigned := sits.assigned seating
  rw [seating.fresh _ le_rfl] at assigned
  cases assigned

/-- A connected seat stays so, unless a leave marks it. -/
theorem State.Connected.stays (connected : s.Connected ref slot)
    (next : act.next oracle s = some (s', acts)) :
    s'.Connected ref slot ∨
      ∃ q ip id, act = .dropPeer (.leave q ip (.marking id slot ref)) := by
  obtain ⟨b, seat, found, occupied, connected⟩ := connected
  rcases act.seat_stays next found occupied connected with
    ⟨b', seat', found', occupied', connected', -⟩ | marks
  · exact .inl ⟨b', seat', found', occupied', connected'⟩
  · exact .inr marks

/-! ## Controls across a step -/

theorem getLast_presence {queued : List Outbound} {out : Outbound}
    {news : Bool} (said : out.presence = some news) :
    ((queued ++ [out]).filterMap Outbound.presence).getLast? = some news := by
  rw [List.filterMap_append, List.filterMap_cons_some said,
    List.filterMap_nil, List.getLast?_concat]

/-- What a peer has been told changes only by a control that is sent to it. -/
theorem told_step (next : act.next oracle s = some (s', acts))
    (old : p ≠ s.allocated) :
    (s'.peers p).told = (s.peers p).told ∨
      ∃ out news, act = .send p out ∧ out.presence = some news ∧
        (s'.peers p).told = some news := by
  cases act.next_write next with
  | none same => exact .inl (by rw [same])
  | @one q peer change written =>
      rw [written]
      by_cases same : p = q
      · subst same
        rw [Function.update_self]
        cases change with
        | allocated => exact absurd rfl old
        | queued out =>
            cases said : out.presence with
            | none =>
                left
                rw [Peer.told, List.filterMap_append,
                  List.filterMap_cons_none said, List.filterMap_nil,
                  List.append_nil]
                rfl
            | some news =>
                exact .inr ⟨out, news, rfl, said, getLast_presence said⟩
        | _ => exact .inl rfl
      · rw [Function.update_of_ne same]
        exact .inl rfl

/-- What is sent to a queue that is not full is the last in it. -/
theorem told_send {out : Outbound} {news : Bool}
    (next : (Act.send p out).next oracle s = some (s', acts))
    (fits : (s.peers p).sendCh.length < sendChCap)
    (said : out.presence = some news) : (s'.peers p).told = some news := by
  simp only [Act.next, if_pos fits] at next
  obtain ⟨rfl, -⟩ := Prod.mk.inj (Option.some.inj next)
  rw [State.modifyPeer_self]
  exact getLast_presence said

theorem connectedCount_two {b : Bucket PeerRef Frame}
    {q o : Server.Peer PeerRef} (here : b.peers slot = some q)
    (connected : q.connected = true) (across : b.peers slot.other = some o)
    (connected' : o.connected = true) : ¬ b.connectedCount < 2 := by
  have both : ∀ seat ∈ ([0, 1] : List Slot),
      (b.peers seat).any (fun q => q.connected) = true := by
    intro seat _
    by_cases same : seat = slot
    · rw [same, here]
      exact connected
    · rw [Slot.eq_other_of_ne same, across]
      exact connected'
  rw [Bucket.connectedCount, List.countP_eq_length.mpr both]
  decide

/-- A peer about to be told that the other one is there is told so, or stays
about to be. -/
theorem tellsJoin_step (next : act.next oracle s = some (s', acts))
    (fits : ∀ q out, act = .send q out → out.presence.isSome →
      (s.peers q).sendCh.length < sendChCap)
    (sits : s.Sits ref slot p) (isOpen : (s.peers p).closed = false)
    (across : s.Connected ref slot.other)
    (tells : act.tellsJoin ref slot p = true) :
    (s'.peers p).told = some true ∨
      ∃ act' ∈ acts, act'.tellsJoin ref slot p = true := by
  obtain ⟨b, seat, found, occupied, connected, stored⟩ := sits
  unfold Act.tellsJoin at tells
  split at tells
  · rename_i q b' seat'
    obtain rfl := decide_eq_true_eq.mp tells
    cases next
    exact .inr ⟨.notifyPeerPresence b', by simp, decide_eq_true_eq.mpr rfl⟩
  · rename_i b'
    obtain rfl := decide_eq_true_eq.mp tells
    obtain ⟨c, other, cFound, there, connected'⟩ := across
    obtain rfl := Option.some.inj (found.symm.trans cFound)
    simp only [Act.next, found,
      if_neg (connectedCount_two occupied connected there connected'),
      Option.some.injEq, Prod.mk.injEq] at next
    obtain ⟨-, rfl⟩ := next
    have either : ∀ seat : Slot, seat = 0 ∨ seat = 1 := by decide
    refine .inr ⟨.notifySeat b' slot, ?_, by simp [Act.tellsJoin]⟩
    rcases either slot with rfl | rfl <;> simp
  · rename_i b' seat'
    simp only [Bool.and_eq_true, decide_eq_true_eq] at tells
    obtain ⟨rfl, rfl⟩ := tells
    have conn : b.peerConn seat' = some p := by
      rw [Bucket.peerConn, occupied]
      exact (if_pos connected).trans stored
    simp only [Act.next, found, conn, Option.some.injEq, Prod.mk.injEq] at next
    obtain ⟨-, rfl⟩ := next
    exact .inr ⟨_, List.mem_singleton_self _, decide_eq_true_eq.mpr rfl⟩
  · rename_i q
    obtain rfl := decide_eq_true_eq.mp tells
    simp only [Act.next, isOpen, Bool.false_eq_true, if_false,
      Option.some.injEq, Prod.mk.injEq] at next
    obtain ⟨-, rfl⟩ := next
    exact .inr ⟨_, List.mem_singleton_self _, decide_eq_true_eq.mpr rfl⟩
  · rename_i q
    obtain rfl := decide_eq_true_eq.mp tells
    exact .inl (told_send next (fits q _ rfl rfl) rfl)
  · cases tells

/-- A peer about to be told that the other one has left is told so, or stays
about to be. -/
theorem tellsLeave_step (next : act.next oracle s = some (s', acts))
    (fits : ∀ q out, act = .send q out → out.presence.isSome →
      (s.peers q).sendCh.length < sendChCap)
    (isOpen : (s.peers p).closed = false)
    (tells : act.tellsLeave p = true) :
    (s'.peers p).told = some false ∨
      ∃ act' ∈ acts, act'.tellsLeave p = true := by
  unfold Act.tellsLeave at tells
  split at tells
  · rename_i q
    obtain rfl := decide_eq_true_eq.mp tells
    simp only [Act.next, isOpen, Bool.false_eq_true, if_false,
      Option.some.injEq, Prod.mk.injEq] at next
    obtain ⟨-, rfl⟩ := next
    exact .inr ⟨_, List.mem_singleton_self _, decide_eq_true_eq.mpr rfl⟩
  · rename_i q
    obtain rfl := decide_eq_true_eq.mp tells
    exact .inl (told_send next (fits q _ rfl rfl) rfl)
  · cases tells

/-- A drop goes on until it has marked the seat of its peer. -/
theorem leaving_step (next : act.next oracle s = some (s', acts))
    (seating : Seating s (act :: others))
    (finds : ∀ ip id, act = .dropPeer (.leave p ip (.enter id slot)) →
      s.calls.reg.m.get? id = some ref)
    (sits : s.Sits ref slot p) (leaving : act.leaving ref slot p = true) :
    ¬ s'.Connected ref slot ∨
      ∃ act' ∈ acts, act'.leaving ref slot p = true := by
  have assigned := sits.assigned seating
  obtain ⟨b, seat, found, occupied, connected, stored⟩ := sits
  unfold Act.leaving at leaving
  split at leaving
  · rename_i q
    obtain rfl := decide_eq_true_eq.mp leaving
    simp only [Act.next, DropPeer.next] at next
    split at next <;> cases next
    exact .inr ⟨_, List.mem_singleton_self _, decide_eq_true_eq.mpr rfl⟩
  · rename_i q ip
    obtain rfl := decide_eq_true_eq.mp leaving
    cases next
    exact .inr ⟨_, List.mem_singleton_self _, decide_eq_true_eq.mpr rfl⟩
  · rename_i q ip
    obtain rfl := decide_eq_true_eq.mp leaving
    cases next
    refine .inr ⟨_, List.mem_singleton_self _, ?_⟩
    simp [Act.leaving, Peer.slotIndex, assigned]
  · rename_i q ip id seat'
    simp only [Bool.and_eq_true, decide_eq_true_eq] at leaving
    obtain ⟨rfl, rfl⟩ := leaving
    simp only [Act.next, DropPeer.next, LeaveCall.next, finds ip id rfl] at next
    by_cases sweeping : s.calls.sweeping = true
    · rw [if_pos sweeping] at next
      cases next
    · rw [if_neg sweeping] at next
      cases next
      refine .inr ⟨_, List.mem_singleton_self _, ?_⟩
      simp [Act.leaving]
  · rename_i q ip id seat' ref'
    simp only [Bool.and_eq_true, decide_eq_true_eq] at leaving
    obtain ⟨⟨rfl, rfl⟩, rfl⟩ := leaving
    left
    rintro ⟨c, seat'', cFound, stays, still⟩
    cases Act.next_registry next with
    | poke _ poke => cases poke
    | quiet outside => cases outside
    | call inCall step _ =>
        obtain rfl := Option.some.inj inCall
        obtain ⟨c', q', cFound', left, disconnected⟩ :=
          leaveSection_disconnects found occupied
        rw [State.bucket?, leaveMark_reg step, cFound'] at cFound
        obtain rfl := Option.some.inj cFound
        obtain rfl := Option.some.inj (left.symm.trans stays)
        rw [disconnected] at still
        cases still
  · cases leaving

/-- A leave that marks the other seat tells the peer in this one. -/
theorem marking_tells {q : PeerRef} {ip id : String}
    (next : (Act.dropPeer (.leave q ip (.marking id slot.other ref))).next
      oracle s = some (s', acts))
    (sits : s.Sits ref slot p) (across : s.Connected ref slot.other) :
    ∃ act' ∈ acts, act'.tellsLeave p = true := by
  obtain ⟨b, seat, found, occupied, connected, stored⟩ := sits
  obtain ⟨c, other, cFound, there, -⟩ := across
  obtain rfl := Option.some.inj (found.symm.trans cFound)
  have reported : (s.calls.reg.leaveSection oracle.now id slot.other
      ref).2.otherConn = some p := by
    rw [← stored]
    exact leaveSection_reports found there
      (by rwa [Slot.other_other]) connected
  refine ⟨.enqueue p (.control .peerLeave), ?_, decide_eq_true_eq.mpr rfl⟩
  simp only [Act.next, DropPeer.next, LeaveCall.next] at next
  by_cases blocked : ((s.calls.reg.leaveSection oracle.now id slot.other
      ref).2.deleteBucket && s.calls.reg.seatOccupied ref slot.other &&
      s.calls.sweeping) = true
  · rw [if_pos blocked] at next
    cases next
  · rw [if_neg blocked] at next
    obtain ⟨-, rfl⟩ := Prod.mk.inj (Option.some.inj next)
    rw [afterLeave, reported]
    exact List.mem_append_left _ List.mem_cons_self

end Step

section Pools

variable {oracle : Oracle} {pool : Pool State Act} {s' : State} {act : Act}
  {acts others : List Act} {p : PeerRef} {ref : Ref} {slot : Slot}

/-- Who sits in a seat sat there before, or has just taken it. -/
theorem sits_from (seating : Seating pool.shared (act :: others))
    (next : act.next oracle pool.shared = some (s', acts))
    (sits : s'.Sits ref slot p) :
    pool.shared.Sits ref slot p ∨
      taker ref slot pool (.run act oracle) = some p := by
  obtain ⟨b', seat', found, occupied, connected, stored⟩ := sits
  exact connected_from seating next found occupied connected stored

/-- A seat that is connected was so before, or has just been taken. -/
theorem State.Connected.earlier (seating : Seating pool.shared (act :: others))
    (stocked : Stocked pool.shared)
    (next : act.next oracle pool.shared = some (s', acts))
    (connected : s'.Connected ref slot) :
    pool.shared.Connected ref slot ∨
      ∃ q, taker ref slot pool (.run act oracle) = some q := by
  obtain ⟨b', seat', found, occupied, connected⟩ := connected
  obtain ⟨q, stored⟩ := Option.isSome_iff_exists.mp
    (stocked.step next ref b' slot seat' found occupied connected)
  rcases connected_from seating next found occupied connected stored with
    ⟨b, seat, before, here, was, -⟩ | takes
  · exact .inl ⟨b, seat, before, here, was⟩
  · exact .inr ⟨q, takes⟩

/-! ## The invariant is kept -/

theorem Outbound.eq_of_presence {out : Outbound} {news : Bool}
    (said : out.presence = some news) :
    out = .control (if news then .peerJoin else .peerLeave) := by
  unfold Outbound.presence at said
  split at said <;> cases said <;> rfl

theorem ControlsFit.send (fits : ControlsFit pool (.run act oracle))
    {q : PeerRef} {out : Outbound} (sends : act = .send q out)
    (news : out.presence.isSome) :
    (pool.shared.peers q).sendCh.length < sendChCap := by
  obtain ⟨told, said⟩ := Option.isSome_iff_exists.mp news
  rw [sends, Outbound.eq_of_presence said] at fits
  cases told <;> exact fits

/-- What was on its way still is, or has come about. -/
theorem on_its_way {test : Act → Bool} {done : Prop}
    (before : pool.acts.Perm (act :: others))
    (waits : ∃ act' ∈ pool.acts, test act' = true)
    (moves : test act = true → done ∨ ∃ act' ∈ acts, test act' = true) :
    done ∨ ∃ act' ∈ acts ++ others, test act' = true := by
  obtain ⟨act', member, passes⟩ := waits
  rcases List.mem_cons.mp (before.mem_iff.mp member) with rfl | waiting
  · rcases moves passes with done | ⟨next, started, passes⟩
    · exact .inl done
    · exact .inr ⟨next, List.mem_append_left _ started, passes⟩
  · exact .inr ⟨act', List.mem_append_right _ waiting, passes⟩

theorem open_before (zero : pool.shared.peers pool.shared.allocated = .zero)
    (next : act.next oracle pool.shared = some (s', acts))
    (isOpen : (s'.peers p).closed = false) :
    (pool.shared.peers p).closed = false := by
  cases was : (pool.shared.peers p).closed with
  | false => rfl
  | true =>
      have fresh : (pool.shared.peers pool.shared.allocated).closed = false := by
        rw [zero]
        rfl
      rw [closed_stays next fresh was] at isOpen
      cases isOpen

theorem joins_step (presence : Presence pool.shared pool.acts)
    (seated : WellSeated pool) (before : pool.acts.Perm (act :: others))
    (next : act.next oracle pool.shared = some (s', acts))
    (fits : ControlsFit pool (.run act oracle))
    (keeps : KeepsPresence pool (.run act oracle)) (sits : s'.Sits ref slot p)
    (isOpen : (s'.peers p).closed = false)
    (across : s'.Connected ref slot.other) :
    (s'.peers p).told = some true ∨
      ∃ act' ∈ acts ++ others, act'.tellsJoin ref slot p = true := by
  have seating := seated.seating.perm before
  rcases sits_from seating next sits with sat | takes
  · have wasOpen := open_before (seated.allocated.zero _ le_rfl) next isOpen
    rcases across.earlier seating seated.stocked next with was | ⟨q, takes⟩
    · rcases presence.joins ref slot p sat wasOpen was with told | waits
      · rcases told_step next (sat.ne_allocated seating) with
          kept | ⟨out, news, rfl, said, now⟩
        · exact .inl (kept.trans told)
        · cases news with
          | true => exact .inl now
          | false =>
              rw [Outbound.eq_of_presence said] at keeps before
              rcases keeps ref slot sat with gone | waits
              · exact absurd was gone
              · exact on_its_way before waits nofun
      · exact on_its_way before waits fun running =>
          tellsJoin_step next (fun _ _ => fits.send) sat wasOpen was running
    · rw [taker_lists next takes]
      exact .inr ⟨_, List.mem_cons_self, decide_eq_true_eq.mpr rfl⟩
  · rw [taker_lists next takes]
    exact .inr ⟨_, List.mem_cons_self, decide_eq_true_eq.mpr rfl⟩

theorem leaves_step (presence : Presence pool.shared pool.acts)
    (seated : WellSeated pool) (exclusive : Exclusive pool.shared pool.acts)
    (before : pool.acts.Perm (act :: others))
    (next : act.next oracle pool.shared = some (s', acts))
    (fits : ControlsFit pool (.run act oracle))
    (keeps : KeepsPresence pool (.run act oracle)) (sits : s'.Sits ref slot p)
    (isOpen : (s'.peers p).closed = false)
    (alone : ¬ s'.Connected ref slot.other) :
    (s'.peers p).told ≠ some true ∨
      ∃ act' ∈ acts ++ others, act'.tellsLeave p = true := by
  have seating := seated.seating.perm before
  rcases sits_from seating next sits with sat | takes
  · have wasOpen := open_before (seated.allocated.zero _ le_rfl) next isOpen
    by_cases was : pool.shared.Connected ref slot.other
    · rcases was.stays next with still | ⟨q, ip, id, rfl⟩
      · exact absurd still alone
      · obtain ⟨act', started, passes⟩ := marking_tells next sat was
        exact .inr ⟨act', List.mem_append_left _ started, passes⟩
    · rcases presence.leaves ref slot p sat wasOpen was with untold | waits
      · rcases told_step next (sat.ne_allocated seating) with
          kept | ⟨out, news, rfl, said, now⟩
        · exact .inl (kept ▸ untold)
        · cases news with
          | false =>
              left
              rw [now]
              simp
          | true =>
              rw [Outbound.eq_of_presence said] at keeps before
              rcases keeps ref slot sat with there | waits
              · exact absurd there was
              · exact on_its_way before waits nofun
      · refine on_its_way before waits fun running => ?_
        rcases tellsLeave_step next (fun _ _ => fits.send) wasOpen running with
          told | later
        · left
          rw [told]
          simp
        · exact .inr later
  · left
    have unseated := seating.unseated p (List.mem_filterMap.mpr
      ⟨act, List.mem_cons_self, taker_joining takes⟩)
    have untold : (pool.shared.peers p).told = none := by
      rw [Peer.told, exclusive.unqueued p unseated.2]
      rfl
    rcases told_step next (Nat.ne_of_lt unseated.1) with
      kept | ⟨out, news, rfl, -⟩
    · rw [kept, untold]
      simp
    · cases taker_joining takes

theorem drops_step (presence : Presence pool.shared pool.acts)
    (seated : WellSeated pool) (before : pool.acts.Perm (act :: others))
    (next : act.next oracle pool.shared = some (s', acts))
    (keeps : KeepsPresence pool (.run act oracle)) (sits : s'.Sits ref slot p)
    (closed : (s'.peers p).closed = true) :
    ∃ act' ∈ acts ++ others, act'.leaving ref slot p = true := by
  have seating := seated.seating.perm before
  have settled := seated.settled.perm before
  rcases sits_from seating next sits with sat | takes
  · cases was : (pool.shared.peers p).closed with
    | false =>
        by_cases drops : act = .dropPeer (.swap p)
        · subst drops
          simp only [Act.next, DropPeer.next, was] at next
          cases next
          exact ⟨_, List.mem_cons_self, decide_eq_true_eq.mpr rfl⟩
        · rw [open_stays next was drops] at closed
          cases closed
    | true =>
        have finds : ∀ ip id, act = .dropPeer (.leave p ip (.enter id slot)) →
            pool.shared.calls.reg.m.get? id = some ref := by
          rintro ip id rfl
          exact keeps ref sat
        rcases on_its_way before (presence.drops ref slot p sat was)
          (leaving_step next seating finds sat) with gone | still
        · exact absurd sits.connected gone
        · exact still
  · rw [taker_unclosed seating settled next takes] at closed
    cases closed

end Pools

theorem Presence.step {pool pool' : Pool State Act}
    {label : PoolLabel Act Oracle} (presence : Presence pool.shared pool.acts)
    (seated : WellSeated pool) (exclusive : Exclusive pool.shared pool.acts)
    (step : relay.Step pool label pool') (fits : ControlsFit pool label)
    (keeps : KeepsPresence pool label) : Presence pool'.shared pool'.acts := by
  cases label with
  | spawn act =>
      obtain ⟨-, same, perm⟩ := Program.Step.spawn_inv step
      have waits : ∀ {test : Act → Bool},
          (∃ act ∈ pool.acts, test act = true) →
          ∃ act ∈ pool'.acts, test act = true := by
        rintro test ⟨act', member, passes⟩
        exact ⟨act', perm.mem_iff.mpr (List.mem_cons_of_mem _ member), passes⟩
      rw [same]
      exact ⟨fun ref slot p sits isOpen across =>
          (presence.joins ref slot p sits isOpen across).imp_right waits,
        fun ref slot p sits isOpen alone =>
          (presence.leaves ref slot p sits isOpen alone).imp_right waits,
        fun ref slot p sits closed =>
          waits (presence.drops ref slot p sits closed)⟩
  | run act oracle =>
      obtain ⟨acts, others, next, before, after⟩ := Program.Step.run_inv step
      have waits : ∀ {test : Act → Bool},
          (∃ act ∈ acts ++ others, test act = true) →
          ∃ act ∈ pool'.acts, test act = true := by
        rintro test ⟨act', member, passes⟩
        refine ⟨act', after.mem_iff.mpr ?_, passes⟩
        rcases List.mem_append.mp member with started | waiting
        · exact List.mem_append_left _ started
        · exact List.mem_append_right _ (List.mem_append_right _ waiting)
      exact ⟨fun ref slot p sits isOpen across =>
          (joins_step presence seated before next fits keeps sits isOpen
            across).imp_right waits,
        fun ref slot p sits isOpen alone =>
          (leaves_step presence seated exclusive before next fits keeps sits
            isOpen alone).imp_right waits,
        fun ref slot p sits closed =>
          waits (drops_step presence seated before next keeps sits closed)⟩

theorem presence_started {cfg : Limits} {buckets : Config}
    {createPerMin maxBuckets : Int} {start : Pool State Act}
    (started : Started cfg buckets createPerMin maxBuckets start) :
    Presence start.shared start.acts := by
  have nobody : ∀ ref slot p, ¬ start.shared.Sits ref slot p := by
    rintro ref slot p ⟨b, seat, found, -⟩
    rw [started] at found
    cases found
  exact ⟨fun ref slot p sits => absurd sits (nobody ref slot p),
    fun ref slot p sits => absurd sits (nobody ref slot p),
    fun ref slot p sits => absurd sits (nobody ref slot p)⟩

/-- Along every run in which no presence control meets a full queue, each is
sent while it is true or is about to be corrected, and every drop finds the
bucket in which its peer sits, whoever sits in a connected seat when no handler
is between its steps has last been told that the other one is there exactly
when it is. -/
theorem presence_told {cfg : Limits} {buckets : Config}
    {createPerMin maxBuckets : Int} {start pool : Pool State Act}
    {trace : List (Pool State Act × PoolLabel Act Oracle)}
    (started : Started cfg buckets createPerMin maxBuckets start)
    (run : (relay.system (Started cfg buckets createPerMin
      maxBuckets)).Run start trace pool)
    (fits : Lts.AllMeet ControlsFit trace)
    (keeps : Lts.AllMeet KeepsPresence trace) (resting : Resting pool) :
    pool.shared.PresenceTold := by
  have kept : WellSeated pool ∧ Exclusive pool.shared pool.acts ∧
      Presence pool.shared pool.acts := by
    clear resting
    induction run with
    | refl =>
        exact ⟨.started started, exclusive_started started,
          presence_started started⟩
    | snoc run step induction =>
        obtain ⟨fitted, fits⟩ := Lts.allMeet_append.mp fits
        obtain ⟨kept, keeps⟩ := Lts.allMeet_append.mp keeps
        obtain ⟨seated, exclusive, presence⟩ := induction fitted kept
        exact ⟨seated.step step, exclusive.run_step seated step,
          presence.step seated exclusive step
            (fits _ (List.mem_singleton_self _))
            (keeps _ (List.mem_singleton_self _))⟩
  obtain ⟨-, -, presence⟩ := kept
  intro ref slot p sits
  have nobody : ∀ {test : Act → Bool},
      (∀ call, test (.writeLoop call) = false) →
      ¬ ∃ act ∈ pool.acts, test act = true := by
    rintro test idle ⟨act, member, passes⟩
    obtain ⟨call, rfl⟩ := resting act member
    rw [idle call] at passes
    cases passes
  have isOpen : (pool.shared.peers p).closed = false := by
    cases closed : (pool.shared.peers p).closed with
    | false => rfl
    | true =>
        exact absurd (presence.drops ref slot p sits closed)
          (nobody fun _ => rfl)
  constructor
  · intro told
    by_contra alone
    rcases presence.leaves ref slot p sits isOpen alone with untold | waits
    · exact untold told
    · exact nobody (fun _ => rfl) waits
  · intro across
    rcases presence.joins ref slot p sits isOpen across with told | waits
    · exact told
    · exact absurd waits (nobody fun _ => rfl)


/-! ## Played runs -/

private def fitsQueue (step : Pool State Act × PoolLabel Act Oracle) : Bool :=
  match step.2 with
  | .run (.send p _) _ => (step.1.shared.peers p).sendCh.length < sendChCap
  | _ => true

private theorem fitsQueue_sound {pool : Pool State Act}
    {label : PoolLabel Act Oracle} (tested : fitsQueue (pool, label) = true) :
    ControlsFit pool label := by
  revert tested
  unfold ControlsFit
  split <;> intro tested
  · exact decide_eq_true_eq.mp tested
  · exact decide_eq_true_eq.mp tested
  · trivial

private def sitsIn (b : Bucket PeerRef Frame) (slot : Slot) (p : PeerRef) :
    Bool :=
  (b.peers slot).any fun seat => seat.connected && seat.conn = some p

private def isConnected (b : Bucket PeerRef Frame) (slot : Slot) : Bool :=
  (b.peers slot).any fun seat => seat.connected

/-- Every presence control is true when it is sent, and every drop finds the
one bucket there is. -/
private def keepsPresence (step : Pool State Act × PoolLabel Act Oracle) : Bool :=
  match step.2 with
  | .run (.send p (.control .peerJoin)) _ =>
      step.1.shared.calls.reg.heap.all fun b => ([0, 1] : List Slot).all
        fun slot => !sitsIn b slot p || isConnected b slot.other
  | .run (.send p (.control .peerLeave)) _ =>
      step.1.shared.calls.reg.heap.all fun b => ([0, 1] : List Slot).all
        fun slot => !sitsIn b slot p || !isConnected b slot.other
  | .run (.dropPeer (.leave _ _ (.enter id _))) _ =>
      step.1.shared.calls.reg.heap.length ≤ 1 &&
        step.1.shared.calls.reg.m.get? id = some 0
  | _ => true

private theorem isConnected_iff {s : State} {ref : Ref} {slot : Slot}
    {b : Bucket PeerRef Frame} (found : s.bucket? ref = some b) :
    isConnected b slot = true ↔ s.Connected ref slot := by
  constructor
  · intro tested
    obtain ⟨seat, occupied, connected⟩ := (Option.any_eq_true _ _).mp tested
    exact ⟨b, seat, found, occupied, connected⟩
  · rintro ⟨c, seat, cFound, occupied, connected⟩
    obtain rfl := Option.some.inj (found.symm.trans cFound)
    exact (Option.any_eq_true _ _).mpr ⟨seat, occupied, connected⟩

private theorem sitsIn_of_sits {s : State} {ref : Ref} {slot : Slot}
    {p : PeerRef} (sits : s.Sits ref slot p) :
    ∃ b ∈ s.calls.reg.heap, s.bucket? ref = some b ∧ sitsIn b slot p = true ∧
      slot ∈ ([0, 1] : List Slot) := by
  obtain ⟨b, seat, found, occupied, connected, stored⟩ := sits
  have either : ∀ seat : Slot, seat ∈ ([0, 1] : List Slot) := by decide
  refine ⟨b, List.mem_of_getElem? found, found, ?_, either slot⟩
  simp [sitsIn, occupied, connected, stored]

private theorem keepsPresence_sound {pool : Pool State Act}
    {label : PoolLabel Act Oracle} (tested : keepsPresence (pool, label) = true) :
    KeepsPresence pool label := by
  revert tested
  unfold KeepsPresence
  split <;> intro tested
  · intro ref slot sits
    obtain ⟨b, member, found, seated, either⟩ := sitsIn_of_sits sits
    have truth := List.all_eq_true.mp
      (List.all_eq_true.mp tested b member) slot either
    rw [seated, Bool.not_true, Bool.false_or] at truth
    exact .inl ((isConnected_iff found).mp truth)
  · intro ref slot sits
    obtain ⟨b, member, found, seated, either⟩ := sitsIn_of_sits sits
    have truth := List.all_eq_true.mp
      (List.all_eq_true.mp tested b member) slot either
    rw [seated, Bool.not_true, Bool.false_or, Bool.not_eq_true'] at truth
    refine .inl fun there => ?_
    rw [(isConnected_iff found).mpr there] at truth
    cases truth
  · rintro ref ⟨b, seat, found, -⟩
    obtain ⟨inBounds, -⟩ := List.getElem?_eq_some_iff.mp found
    obtain ⟨single, known⟩ := (Bool.and_eq_true _ _).mp tested
    have bound := decide_eq_true_eq.mp single
    have first : ref = 0 :=
      Nat.lt_one_iff.mp (Nat.lt_of_lt_of_le inBounds bound)
    rw [first]
    exact decide_eq_true_eq.mp known
  · trivial

private def isWriteLoop : Act → Bool
  | .writeLoop _ => true
  | _ => false

private theorem resting_of_writeLoops {pool : Pool State Act}
    (tested : pool.acts.all isWriteLoop = true) : Resting pool := by
  intro act member
  have idle := List.all_eq_true.mp tested act member
  cases act with
  | writeLoop call => exact ⟨call, rfl⟩
  | _ => cases idle

/-- Alice and Bob connect, and a frame of Alice's finds Bob there. -/
private def forwardMoves : List (Program.Move Act Oracle) :=
  [connects "alice" "192.0.2.1"] ++ runs 0 14 ++
    [connects "bob" "192.0.2.2"] ++ runs 2 20 ++ [polls 0 false] ++
    runs 4 1 ++ runs 5 4 ++ reads 5 [1] ++ runs 5 7

/-- Her reader hands the frame over, Bob hangs up and connects again. -/
private def returnMoves : List (Program.Move Act Oracle) :=
  forwardMoves ++ runs 5 9 ++ [polls 1 true] ++ runs 6 1 ++ runs 7 9 ++
    [connects "bob" "192.0.2.2"] ++ runs 8 20

/-- Bob hangs up and leaves before her reader tells her that he is there. -/
private def overtakenMoves : List (Program.Move Act Oracle) :=
  forwardMoves ++ [polls 1 true] ++ runs 6 1 ++ runs 7 9 ++ runs 5 7

/-- Alice has been told that Bob is there, and that he has left, and that he is
there again. -/
theorem presence_told_return :
    ∃ pool, (relay.system (Started roomLimits roomConfig 10 10)).Reachable
        pool ∧ Resting pool ∧
      (pool.shared.peers 0).queued.filterMap Outbound.presence =
        [true, true, false, true] ∧
      pool.shared.Connected 0 0 ∧ pool.shared.Connected 0 1 ∧
      pool.shared.PresenceTold := by
  have returned : (relay.play ⟨New roomLimits roomConfig 10 10, []⟩
      returnMoves).any (fun played => played.1.all fitsQueue &&
        played.1.all keepsPresence && played.2.acts.all isWriteLoop &&
        (played.2.shared.peers 0).queued.filterMap Outbound.presence =
          [true, true, false, true] &&
        (played.2.shared.bucket? 0).any fun b =>
          isConnected b 0 && isConnected b 1) = true := by
    decide +kernel
  obtain ⟨⟨trace, pool⟩, played, check⟩ :=
    (Option.any_eq_true _ _).mp returned
  simp only [Bool.and_eq_true, decide_eq_true_eq, Option.any_eq_true] at check
  obtain ⟨⟨⟨⟨fit, truth⟩, idle⟩, told⟩, b, found, here, there⟩ := check
  have run := played_run played rfl
  have resting := resting_of_writeLoops idle
  exact ⟨pool, (Lts.Reachable.start rfl).run run, resting, told,
    (isConnected_iff found).mp here, (isConnected_iff found).mp there,
    presence_told rfl run
      (fun entry member =>
        fitsQueue_sound (List.all_eq_true.mp fit entry member))
      (fun entry member =>
        keepsPresence_sound (List.all_eq_true.mp truth entry member)) resting⟩

/-- Alice has last been told that Bob is there, although he has left. -/
theorem presence_overtaken :
    ∃ trace pool, (relay.system (Started roomLimits roomConfig 10 10)).Run
        ⟨New roomLimits roomConfig 10 10, []⟩ trace pool ∧
      Lts.AllMeet ControlsFit trace ∧ Resting pool ∧
      ¬ pool.shared.PresenceTold := by
  have overtaken : (relay.play ⟨New roomLimits roomConfig 10 10, []⟩
      overtakenMoves).any (fun played => played.1.all fitsQueue &&
        played.2.acts.all isWriteLoop &&
        (played.2.shared.peers 0).told = some true &&
        (played.2.shared.bucket? 0).any fun b =>
          sitsIn b 0 0 && !isConnected b 1) = true := by
    decide +kernel
  obtain ⟨⟨trace, pool⟩, played, check⟩ :=
    (Option.any_eq_true _ _).mp overtaken
  simp only [Bool.and_eq_true, decide_eq_true_eq, Option.any_eq_true,
    Bool.not_eq_true'] at check
  obtain ⟨⟨⟨fit, idle⟩, told⟩, b, found, seated, gone⟩ := check
  refine ⟨trace, pool, played_run played rfl, fun entry member =>
    fitsQueue_sound (List.all_eq_true.mp fit entry member),
    resting_of_writeLoops idle, fun right => ?_⟩
  obtain ⟨seat, occupied, both⟩ := (Option.any_eq_true _ _).mp seated
  simp only [Bool.and_eq_true, decide_eq_true_eq] at both
  have there :=
    (right 0 0 0 ⟨b, seat, found, occupied, both.1, both.2⟩).mp told
  rw [show Slot.other 0 = 1 from rfl, ← isConnected_iff found, gone] at there
  cases there

end Byteln.Server.Relay

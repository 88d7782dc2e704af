import Byteln.Server.Exclusive
import Byteln.Server.Handover
import Byteln.Server.OfflineBuffer

/-!
# The way of a frame through the relay

A frame that a reader has in hand goes into the offline buffer, or to
`Enqueue`.  A frame in the buffer goes to `Enqueue` when it is drained, and
what `Enqueue` sends gets into the channel of its peer.
-/

namespace Byteln.Server.Relay

open Byteln.Library

/-- The frame, if it was read from the peer. -/
def Outbound.from? (p : PeerRef) : Outbound → Option (List UInt8 × Bool)
  | .data frame binary =>
      if frame.sender = p then some (frame.data, binary) else none
  | .control _ | .pong _ => none

/-- The frames of a sender that have got into a peer's `sendCh`. -/
def State.received (s : State) (p q : PeerRef) : List (List UInt8 × Bool) :=
  (s.peers q).queued.filterMap (Outbound.from? p)

/-- The content of a buffered frame, if it was read from the peer. -/
def storedFrom (p : PeerRef) (f : BufferedFrame Frame) :
    Option (List UInt8 × Bool) :=
  (Outbound.data f.data f.binary).from? p

/-- The frames of a sender in the offline buffer of a bucket. -/
def State.stored (s : State) (p : PeerRef) (ref : Ref) :
    List (List UInt8 × Bool) :=
  (s.calls.reg.frames ref).filterMap (storedFrom p)

/-- The frame of a sender that an activation is about to queue.  Nothing is
queued for a peer that is closed before `Enqueue` has looked. -/
def Act.carries (closed : Bool) (p q : PeerRef) :
    Act → Option (List UInt8 × Bool)
  | .enqueue q' out =>
      if q' = q ∧ closed = false then out.from? p else none
  | .send q' out => if q' = q then out.from? p else none
  | _ => none

/-- The frame that the reader of a peer has in hand. -/
def Act.held (p : PeerRef) : Act → Option (List UInt8 × Bool)
  | .readPeer (.handle p' data binary) | .readPeer (.get p' data binary _)
  | .readPeer (.record p' _ data binary _)
  | .readPeer (.age p' _ data binary _)
  | .readPeer (.bufferIfAlone p' _ data binary)
  | .readPeer (.otherConn p' _ data binary) =>
      if p' = p then some (data, binary) else none
  | _ => none

/-- The bucket whose buffer an activation will drain to a peer. -/
def Act.drains (q : PeerRef) : Act → Option Ref
  | .handleConn (.list q' ref _) | .handleConn (.drain q' ref) =>
      if q' = q then some ref else none
  | _ => none

def ReadOutcome.frame? : ReadOutcome → Option (List UInt8 × Bool)
  | .frame data binary => some (data, binary)
  | _ => none

/-- The frame of a peer that a step reads. -/
def framesRead (p : PeerRef) :
    PoolLabel Act Oracle → List (List UInt8 × Bool)
  | .run (.readPeer (.readFrame p')) oracle =>
      if p' = p then oracle.read.frame?.toList else []
  | _ => []

/-- The drains of a peer are those of its handler. -/
theorem Act.handler_of_drains {act : Act} {q : PeerRef} {ref : Ref}
    (drained : act.drains q = some ref) : act.handler = some q := by
  unfold Act.drains at drained
  split at drained
  · split at drained
    · rename_i same
      rw [← same]
      rfl
    · cases drained
  · split at drained
    · rename_i same
      rw [← same]
      rfl
    · cases drained
  · cases drained

theorem Act.reader_of_held {act : Act} {p : PeerRef}
    {frame : List UInt8 × Bool} (inHand : act.held p = some frame) :
    act.reader = some p := by
  unfold Act.held at inHand
  split at inHand
  case h_7 => cases inHand
  all_goals
    split at inHand
    · rename_i same
      exact congrArg some same
    · cases inHand

/-! ## What a step does to the frames of a sender -/

section Step

variable {oracle : Oracle} {s s' : State} {act : Act}
  {acts others : List Act} {p q : PeerRef}

/-- What `BufferIfAlone` leaves in a buffer of the frames of a sender. -/
theorem bufferIfAlone_stored (p : PeerRef) (cfg : Config) (now : Time)
    (b : Bucket PeerRef Frame) (slot : Slot) (frame : Frame) (binary : Bool) :
    (((b.bufferIfAlone cfg now slot frame binary).1.buffer).filterMap
        (storedFrom p)).Sublist
      (b.buffer.filterMap (storedFrom p) ++
        if (b.bufferIfAlone cfg now slot frame binary).2 = true then
          ((Outbound.data frame binary).from? p).toList
        else []) := by
  have kept : ∀ size, (evict cfg size (pruneBuffer now b.buffer)).Sublist
      b.buffer :=
    fun size => (evict_suffix cfg size _).sublist.trans List.filter_sublist
  unfold Bucket.bufferIfAlone
  by_cases connected : ((b.peers slot.other).any fun p => p.connected) = true
  · rw [if_pos connected]
    exact List.sublist_append_left _ _
  · rw [if_neg connected]
    dsimp only
    by_cases oversized : ((Payload.len frame : ℕ) : Int) > cfg.maxBufferBytes
    · rw [if_pos oversized]
      exact ((kept _).filterMap _).trans (List.sublist_append_left _ _)
    · rw [if_neg oversized, if_pos rfl, List.filterMap_append]
      apply ((kept _).filterMap _).append
      cases found : (Outbound.data frame binary).from? p with
      | none => simp [storedFrom, found]
      | some content => simp [storedFrom, found]

/-- Stored frames stay, go, or are added by their own reader. -/
theorem stored_step (next : act.next oracle s = some (s', acts)) :
    (∀ ref, (s'.stored p ref).Sublist (s.stored p ref)) ∨
      ∃ ref data binary, act = .readPeer (.bufferIfAlone p ref data binary) ∧
        acts = [.readPeer (.readFrame p)] ∧ s'.peers = s.peers ∧
        (s'.stored p ref).Sublist (s.stored p ref ++ [(data, binary)]) ∧
        ∀ other, other ≠ ref →
          (s'.stored p other).Sublist (s.stored p other) := by
  cases act.next_registry next with
  | quiet _ same =>
      left
      intro ref
      unfold State.stored
      rw [same]
  | call _ step _ =>
      left
      intro ref
      unfold State.stored
      rw [Registry.frames_callStep step]
  | @poke target b b' found poke callsEq =>
      have before : s.stored p target = b.buffer.filterMap (storedFrom p) := by
        unfold State.stored
        rw [Registry.frames_of_found found]
      have after : s'.stored p target = b'.buffer.filterMap (storedFrom p) := by
        unfold State.stored
        rw [callsEq]
        exact congrArg _ (Registry.frames_setBucket_self found)
      have elsewhere : ∀ other, other ≠ target →
          s'.stored p other = s.stored p other := by
        intro other different
        unfold State.stored
        rw [callsEq]
        exact congrArg _ (Registry.frames_setBucket_of_ne _ _ different)
      have shrinks : (s'.stored p target).Sublist (s.stored p target) →
          ∀ ref, (s'.stored p ref).Sublist (s.stored p ref) := by
        intro here ref
        by_cases same : ref = target
        · rw [same]
          exact here
        · rw [elsewhere ref same]
      rw [before, after] at shrinks
      cases poke with
      | touch | record => exact .inl (shrinks (List.Sublist.refl _))
      | drain => exact .inl (shrinks (List.nil_sublist _))
      | @buffer sender _ data binary =>
          have stored := bufferIfAlone_stored p s.calls.reg.cfg oracle.now b
            (s.peers sender).slotIndex ⟨data, sender⟩ binary
          simp only [Act.next, ReadPeer.next, found] at next
          cases buffered : (b.bufferIfAlone s.calls.reg.cfg oracle.now
              (s.peers sender).slotIndex ⟨data, sender⟩ binary).2 with
          | false =>
              left
              rw [buffered] at stored
              exact shrinks (by simpa using stored)
          | true =>
              rw [buffered] at stored next
              by_cases own : sender = p
              · subst own
                right
                obtain ⟨rfl, rfl⟩ := Prod.mk.inj (Option.some.inj next)
                refine ⟨target, data, binary, rfl, rfl, rfl, ?_, ?_⟩
                · rw [before, after]
                  simpa [Outbound.from?] using stored
                · intro other different
                  rw [elsewhere other different]
              · left
                exact shrinks (by simpa [Outbound.from?, own] using stored)

/-- What a peer has got stays, or grows by what is sent. -/
theorem received_step (fresh : (s.peers s.allocated).queued = [])
    (next : act.next oracle s = some (s', acts)) :
    s'.received p q = s.received p q ∨
      ∃ out, act = .send q out ∧ acts = [.ensureWriter q] ∧
        s'.calls = s.calls ∧ (s'.peers q).closed = (s.peers q).closed ∧
        s'.received p q = s.received p q ++ (out.from? p).toList := by
  cases act.next_write next with
  | none same =>
      left
      unfold State.received
      rw [same]
  | @one q' peer change written =>
      unfold State.received
      rw [written]
      by_cases same : q = q'
      · subst same
        rw [Function.update_self]
        cases change with
        | allocated =>
            left
            rw [fresh]
            rfl
        | queued out room =>
            right
            simp only [Act.next, if_pos room] at next
            obtain ⟨rfl, rfl⟩ := Prod.mk.inj (Option.some.inj next)
            refine ⟨out, rfl, rfl, rfl, ?_, ?_⟩
            · rfl
            · rw [List.filterMap_append]
              cases found : out.from? p with
              | none => simp [found]
              | some frame => simp [found]
        | _ => exact .inl rfl
      · rw [Function.update_of_ne same]
        exact .inl rfl

/-- A frame is queued by the lookup of its reader, by a drain, or as an
answer. -/
theorem frame_from (next : act.next oracle s = some (s', acts))
    {frame : Frame} {binary : Bool}
    (queued : .enqueue q (.data frame binary) ∈ acts) :
    (∃ ref, act = .readPeer
        (.otherConn frame.sender ref frame.data binary) ∧
      s.receiver? frame.sender ref = some q) ∨
      (∃ ref, act = .handleConn (.drain q ref)) ∨
      act = .readPeer (.ping q (.data frame binary)) := by
  cases act with
  | handleConn call =>
      cases call with
      | list q' b slot =>
          cases next
          simp at queued
      | drain q' ref =>
          simp only [Act.next, HandleConn.next] at next
          split at next
          · cases next
          · cases next
            simp only [List.mem_append, List.mem_map, Act.enqueue.injEq,
              List.mem_singleton, reduceCtorEq, or_false] at queued
            obtain ⟨_, _, rfl, -⟩ := queued
            exact .inr (.inl ⟨ref, rfl⟩)
      | _ => grind [Act.next, HandleConn.next, refuse]
  | dropPeer call =>
      cases call <;> grind [Act.next, DropPeer.next, afterLeave]
  | readPeer call =>
      cases call with
      | otherConn p' ref data binary' =>
          left
          unfold State.receiver?
          simp only [Act.next, ReadPeer.next] at next
          split at next
          · cases next
          · rename_i b found
            cases next
            split at queued
            · rename_i other lookup
              simp only [List.mem_append, List.mem_cons, Act.enqueue.injEq,
                List.not_mem_nil, reduceCtorEq, and_false, or_false,
                Outbound.data.injEq] at queued
              obtain ⟨rfl, rfl, rfl⟩ := queued
              refine ⟨ref, rfl, ?_⟩
              rw [found, Option.bind_some, lookup]
            · simp at queued
      | _ => grind [Act.next, ReadPeer.next, enqueue_not_mem_close]
  | writeLoop call =>
      cases call <;> grind [Act.next, WriteLoop.next]
  | _ => grind [Act.next]

theorem send_not_mem_close {b : Ref} {out : Outbound} :
    .send q out ∉ closeBucketPeers p b := by
  simp [closeBucketPeers]

/-- Only an `Enqueue` that finds its peer open sends. -/
theorem send_from (next : act.next oracle s = some (s', acts))
    {out : Outbound} (sent : .send q out ∈ acts) :
    act = .enqueue q out ∧ (s.peers q).closed = false ∧ s' = s ∧
      acts = [.send q out] := by
  cases act with
  | handleConn call =>
      cases call with
      | list q' b slot =>
          cases next
          simp at sent
      | drain q' ref =>
          simp only [Act.next, HandleConn.next] at next
          split at next
          · cases next
          · cases next
            simp at sent
      | _ => grind [Act.next, HandleConn.next, refuse]
  | dropPeer call =>
      cases call <;> grind [Act.next, DropPeer.next, afterLeave]
  | readPeer call =>
      cases call <;> grind [Act.next, ReadPeer.next, send_not_mem_close]
  | writeLoop call =>
      cases call <;> grind [Act.next, WriteLoop.next]
  | _ => grind [Act.next]

theorem Outbound.eq_of_from? {out : Outbound} {content : List UInt8 × Bool}
    (sender : out.from? p = some content) :
    out = .data ⟨content.1, p⟩ content.2 := by
  cases out with
  | data frame binary =>
      simp only [Outbound.from?] at sender
      split at sender
      · rename_i same
        obtain rfl := Option.some.inj sender
        rw [← same]
      · cases sender
  | control | pong => cases sender

/-- What is about to be queued goes on to the send, or comes from the lookup
of its reader or from a drain. -/
theorem carries_next
    (answers : ∀ p answer, act = .readPeer (.ping p answer) →
      ∀ frame binary, answer ≠ .data frame binary)
    (next : act.next oracle s = some (s', acts)) :
    (∀ act' ∈ acts, act'.carries false p q = none) ∨
      (∃ out, act = .enqueue q out ∧ (s.peers q).closed = false ∧ s' = s ∧
        acts = [.send q out]) ∨
      (∃ ref data binary, act = .readPeer (.otherConn p ref data binary) ∧
        s.receiver? p ref = some q) ∨
      ∃ ref, act = .handleConn (.drain q ref) := by
  by_cases quiet : ∀ act' ∈ acts, act'.carries false p q = none
  · exact .inl quiet
  · right
    push Not at quiet
    obtain ⟨act', started, some⟩ := quiet
    obtain ⟨content, carried⟩ := Option.ne_none_iff_exists'.mp some
    clear some
    cases act' with
    | enqueue q' out =>
        simp only [Act.carries] at carried
        split at carried
        · rename_i here
          obtain ⟨rfl, -⟩ := here
          rw [Outbound.eq_of_from? carried] at started
          rcases frame_from next started with
            ⟨ref, rfl, receives⟩ | ⟨ref, rfl⟩ | rfl
          · exact .inr (.inl ⟨ref, _, _, rfl, receives⟩)
          · exact .inr (.inr ⟨ref, rfl⟩)
          · exact absurd rfl (answers _ _ rfl _ _)
        · cases carried
    | send q' out =>
        simp only [Act.carries] at carried
        split at carried
        · rename_i same
          subst same
          obtain ⟨rfl, isOpen, same, only⟩ := send_from next started
          exact .inl ⟨out, rfl, isOpen, same, only⟩
        · cases carried
    | _ => cases carried

private theorem held_goes {act' : Act} (same : act'.held p = act.held p) :
    ([act'].filterMap (Act.held p)).Sublist (act.held p).toList := by
  rw [← same]
  cases found : act'.held p with
  | none => simp [found]
  | some frame => simp [found]

theorem ReadPeer.next_held {call : ReadPeer}
    (next : call.next oracle s = some (s', acts)) :
    (acts.filterMap (Act.held p)).Sublist
        ((Act.readPeer call).held p).toList ∨
      ∃ data binary, call = .readFrame p ∧
        oracle.read = .frame data binary ∧ s' = s ∧
        acts = [.readPeer (.handle p data binary)] := by
  cases call with
  | swap p' =>
      left
      simp only [ReadPeer.next] at next
      split at next <;> cases next <;> exact List.nil_sublist _
  | enter p' =>
      left
      cases next
      split <;> exact List.nil_sublist _
  | loop p' | idle p' =>
      left
      cases next
      split <;> exact List.nil_sublist _
  | again p' | clear p' | done p' =>
      left
      cases next
      exact List.nil_sublist _
  | readFrame p' =>
      simp only [ReadPeer.next] at next
      split at next
      case h_7 data binary frame =>
        cases next
        by_cases own : p' = p
        · subst own
          exact .inr ⟨data, binary, rfl, frame, rfl, rfl⟩
        · left
          simp [Act.held, own]
      all_goals
        cases next
        exact .inl (List.nil_sublist _)
  | handle p' data binary =>
      left
      simp only [ReadPeer.next] at next
      split_ifs at next
      · cases next
        exact List.nil_sublist _
      · cases next
        exact held_goes rfl
      · cases next
        exact List.nil_sublist _
  | get p' data binary now =>
      left
      simp only [ReadPeer.next] at next
      split at next
      · cases next
      · split at next
        · cases next
          exact List.nil_sublist _
        · cases next
          rw [List.filterMap_cons_none rfl]
          exact held_goes rfl
  | ping p' answer =>
      left
      simp only [ReadPeer.next] at next
      split at next
      · cases next
      · cases next
        split <;> exact List.nil_sublist _
  | record p' b data binary now =>
      left
      simp only [ReadPeer.next] at next
      split at next
      · split at next
        · cases next
        · cases next
          split
          · exact List.nil_sublist _
          · exact held_goes rfl
      · cases next
        exact held_goes rfl
  | age p' b data binary now =>
      left
      simp only [ReadPeer.next] at next
      split at next
      · cases next
      · cases next
        split
        · exact List.nil_sublist _
        · exact held_goes rfl
  | bufferIfAlone p' b data binary =>
      left
      simp only [ReadPeer.next] at next
      split at next
      · cases next
      · cases next
        split
        · exact List.nil_sublist _
        · exact held_goes rfl
  | otherConn p' b data binary =>
      left
      simp only [ReadPeer.next] at next
      split at next
      · cases next
      · cases next
        split <;> exact List.nil_sublist _

/-- A reader keeps or gives up the frame it has in hand, or reads one. -/
theorem held_next (next : act.next oracle s = some (s', acts)) :
    (acts.filterMap (Act.held p)).Sublist (act.held p).toList ∨
      ∃ data binary, act = .readPeer (.readFrame p) ∧
        oracle.read = .frame data binary ∧ s' = s ∧
        acts = [.readPeer (.handle p data binary)] := by
  by_cases inside : ∃ call, act = .readPeer call
  · obtain ⟨call, rfl⟩ := inside
    rcases call.next_held (p := p) next with
      goes | ⟨data, binary, rfl, read, same, only⟩
    · exact .inl goes
    · exact .inr ⟨data, binary, rfl, read, same, only⟩
  · left
    have none : acts.filterMap (Act.held p) = [] := by
      apply List.filterMap_eq_nil_iff.mpr
      intro act' started
      by_contra some
      obtain ⟨frame, inHand⟩ := Option.ne_none_iff_exists'.mp some
      have reads := reader_outside next (not_exists.mp inside) started
      rw [Act.reader_of_held inHand] at reads
      cases reads
    rw [none]
    exact List.nil_sublist _

/-- A drain is one that the list has left behind, or begins when its join has
returned. -/
theorem drains_from (next : act.next oracle s = some (s', acts)) {act' : Act}
    (started : act' ∈ acts) {ref : Ref} (drained : act'.drains q = some ref) :
    act.drains q = some ref ∨
      ∃ req existed call slot, act = .handleConn (.join req existed q call) ∧
        acts = [.handleConn (.list q ref slot)] := by
  have handles := Act.handler_of_drains drained
  rcases handler_next next with
    goes | ⟨req, existed, p', call, ref', slot, rfl, rfl⟩
  · left
    have own : q ∈ act.handler.toList :=
      goes.subset (List.mem_filterMap.mpr ⟨act', started, handles⟩)
    rw [Option.mem_toList] at own
    cases act with
    | handleConn call =>
        cases call with
        | list q' ref' slot =>
            cases next
            simp only [List.mem_cons, List.not_mem_nil, or_false] at started
            rcases started with rfl | rfl | rfl
            · cases drained
            · cases drained
            · exact drained
        | drain q' ref' =>
            simp only [Act.next, HandleConn.next] at next
            split at next
            · cases next
            · cases next
              simp only [List.mem_append, List.mem_map, List.mem_singleton]
                at started
              rcases started with ⟨_, -, rfl⟩ | rfl <;> cases drained
        | handleRead q' =>
            cases next
            split at started
            · obtain rfl := List.mem_singleton.mp started
              cases drained
            · simp only [List.mem_cons, List.not_mem_nil, or_false] at started
              rcases started with rfl | rfl <;> cases drained
        | _ => cases own
    | _ => cases own
  · right
    obtain rfl := List.mem_singleton.mp started
    simp only [Act.drains] at drained
    split at drained
    · rename_i same
      subst same
      cases drained
      exact ⟨req, existed, call, slot, rfl, rfl⟩
    · cases drained

/-- What a step does to the frames of a sender on their way to a peer. -/
inductive Moves (p q : PeerRef) (oracle : Oracle) (s s' : State) :
    Act → List Act → Prop where
  | reads {data : List UInt8} {binary : Bool} :
      oracle.read = .frame data binary → s' = s →
      Moves p q oracle s s' (.readPeer (.readFrame p))
        [.readPeer (.handle p data binary)]
  | forwards {ref : Ref} {data : List UInt8} {binary : Bool} :
      s.receiver? p ref = some q → s' = s →
      Moves p q oracle s s' (.readPeer (.otherConn p ref data binary))
        (handover p q data binary ++ [.readPeer (.readFrame p)])
  | stores {ref : Ref} {data : List UInt8} {binary : Bool} :
      s'.peers = s.peers →
      (s'.stored p ref).Sublist (s.stored p ref ++ [(data, binary)]) →
      (∀ other, other ≠ ref →
        (s'.stored p other).Sublist (s.stored p other)) →
      Moves p q oracle s s' (.readPeer (.bufferIfAlone p ref data binary))
        [.readPeer (.readFrame p)]
  | drains {ref : Ref} {frames : List (BufferedFrame Frame)} :
      s'.peers = s.peers →
      (frames.filterMap (storedFrom p)).Sublist (s.stored p ref) →
      (∀ other, (s'.stored p other).Sublist (s.stored p other)) →
      Moves p q oracle s s' (.handleConn (.drain q ref))
        ((frames.map fun f => .enqueue q (.data f.data f.binary)) ++
          [.handleConn (.handleRead q)])
  | passes {out : Outbound} :
      (s.peers q).closed = false → s' = s →
      Moves p q oracle s s' (.enqueue q out) [.send q out]
  | sends {out : Outbound} :
      s'.calls = s.calls → (s'.peers q).closed = (s.peers q).closed →
      s'.received p q = s.received p q ++ (out.from? p).toList →
      Moves p q oracle s s' (.send q out) [.ensureWriter q]
  | joins {req : Request} {existed : Bool} {call : JoinCall PeerRef}
      {ref : Ref} {slot : Slot} :
      s'.received p q = s.received p q →
      (∀ other, (s'.stored p other).Sublist (s.stored p other)) →
      Moves p q oracle s s' (.handleConn (.join req existed q call))
        [.handleConn (.list q ref slot)]
  | keeps {act : Act} {acts : List Act} :
      s'.received p q = s.received p q →
      (∀ other, (s'.stored p other).Sublist (s.stored p other)) →
      (∀ act' ∈ acts, act'.carries false p q = none) →
      (acts.filterMap (Act.held p)).Sublist (act.held p).toList →
      (∀ act' ∈ acts, ∀ ref, act'.drains q = some ref →
        act.drains q = some ref) →
      framesRead p (.run act oracle) = [] →
      Moves p q oracle s s' act acts

/-- A step that leaves no new frame in hand has read none. -/
theorem framesRead_eq_nil (next : act.next oracle s = some (s', acts))
    (inHand : (acts.filterMap (Act.held p)).Sublist (act.held p).toList) :
    framesRead p (.run act oracle) = [] := by
  unfold framesRead
  split
  · rename_i p' _ same
    obtain ⟨rfl, rfl⟩ := PoolLabel.run.inj same
    split
    · rename_i own
      subst own
      cases read : oracle.read with
      | frame data binary =>
          simp only [Act.next, ReadPeer.next, read] at next
          cases next
          simp [Act.held] at inHand
      | _ => rfl
    · rfl
  · rfl

theorem Act.moves (fresh : (s.peers s.allocated).queued = [])
    (answers : ∀ p answer, act = .readPeer (.ping p answer) →
      ∀ frame binary, answer ≠ .data frame binary)
    (next : act.next oracle s = some (s', acts)) :
    Moves p q oracle s s' act acts := by
  rcases carries_next (p := p) (q := q) answers next with
    quiet | ⟨out, rfl, isOpen, same, rfl⟩ |
    ⟨ref, data, binary, rfl, receives⟩ | ⟨ref, rfl⟩
  · rcases received_step (p := p) (q := q) fresh next with
      same | ⟨out, rfl, rfl, calls, closed, received⟩
    · rcases stored_step (p := p) next with
        shrinks | ⟨ref, data, binary, rfl, rfl, peers, stored, others⟩
      · rcases held_next (p := p) next with
          goes | ⟨data, binary, rfl, read, unchanged, rfl⟩
        · by_cases joins : ∃ req existed call ref slot,
              act = .handleConn (.join req existed q call) ∧
                acts = [.handleConn (.list q ref slot)]
          · obtain ⟨req, existed, call, ref, slot, rfl, rfl⟩ := joins
            exact .joins same shrinks
          · refine .keeps same shrinks quiet goes ?_
              (framesRead_eq_nil next goes)
            intro act' started ref drained
            rcases drains_from next started drained with
              old | ⟨req, existed, call, slot, join, only⟩
            · exact old
            · exact absurd ⟨req, existed, call, ref, slot, join, only⟩ joins
        · exact .reads read unchanged
      · exact .stores peers stored others
    · exact .sends calls closed received
  · exact .passes isOpen same
  · have found := receives
    unfold State.receiver? at found
    obtain ⟨b, bucket, lookup⟩ := Option.bind_eq_some_iff.mp found
    simp only [Act.next, ReadPeer.next, bucket, lookup] at next
    obtain ⟨rfl, rfl⟩ := Prod.mk.inj (Option.some.inj next)
    exact .forwards receives rfl
  · have shrinks : ∀ other, (s'.stored p other).Sublist (s.stored p other) := by
      rcases stored_step (p := p) next with shrinks | ⟨_, _, _, same, -⟩
      · exact shrinks
      · cases same
    simp only [Act.next, HandleConn.next] at next
    split at next
    · cases next
    · rename_i b found
      cases next
      refine .drains rfl ?_ shrinks
      have stored : s.stored p ref = b.buffer.filterMap (storedFrom p) := by
        unfold State.stored
        rw [Registry.frames_of_found found]
      rw [stored]
      exact List.filter_sublist.filterMap _

end Step

end Byteln.Server.Relay

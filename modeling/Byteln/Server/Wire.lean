import Byteln.Library.ThreadPool
import Byteln.Server.FrameWriting

/-!
# The bytes on a connection

Several goroutines write to the connection of a peer: its write loop, whoever
closes it with a code, and the control handler of its reader, which answers
pings and close frames.  `writeMu` is held for a whole frame by `writeFrame`,
and for one `Write` by `peerWriter`.

A `Write` that fails may have written a part of its bytes, and the connection
takes no more after it; nor does it after `Close`.
-/

namespace Byteln.Server.Wire

open Byteln.Library WebSocket

/-- A message for the client.  The relay enqueues texts, binary messages, and
pongs with the data of a ping. -/
structure Outbound where
  data : List UInt8
  opCode : OpCode
  /-- Go has no longer slices. -/
  short : data.length < 2 ^ 63
  known : opCode = opText ∨ opCode = opBinary ∨
    opCode = opPong ∧ data.length ≤ maxControlFramePayloadSize

def sendChCap : Nat := 64

/-- What is written while `writeMu` is held. -/
inductive Section where
  /-- `writeFrame`: the header and the payload. -/
  | frame (f : Frame)
  /-- `peerWriter.Write` of a frame made in a buffer. -/
  | compiled (f : Frame)
  /-- `peerWriter.Write` of a part of a frame. -/
  | part (bts : List UInt8)

inductive Source where
  | writeLoop
  | close
  | reply

def Section.writes : Section → List (List UInt8)
  | .frame f => [f.header.bytes, f.payload]
  | .compiled f => [f.header.bytes ++ f.payload]
  | .part bts => [bts]

/-- The frame of a section, unless it is a part of one. -/
def Section.frame? : Section → Option Frame
  | .frame f | .compiled f => some f
  | .part _ => none

def Outbound.frame (m : Outbound) : Frame :=
  newFrame m.opCode true m.data

/-- What the control handler writes for a control frame. -/
def controlReply (op : OpCode) (payload : List UInt8) : List Section :=
  if op = opPing then [.compiled (newFrame opPong true payload)]
  else if op = opClose then
    if payload = [] then [.compiled (newFrame opClose true [])]
    else
      match checkCloseFrameData payload with
      | some text =>
          let f := newFrame opClose true
            (newCloseFrameBody 1002 text.toUTF8.toList)
          [.part f.header.bytes, .part f.payload]
      | none => [.compiled (newFrame opClose true (payload.take 2))]
  else []

structure State where
  sendCh : List Outbound
  writing : Bool
  closed : Bool
  /-- `writeMu` is held. -/
  locked : Bool
  /-- The connection takes no more bytes. -/
  broken : Bool
  /-- All bytes that the connection has taken. -/
  sent : List UInt8
  /-- All that `sendCh` ever accepted, oldest first; no code reads it. -/
  queued : List Outbound
  /-- All sections for which `writeMu` was taken; no code reads it. -/
  begun : List (Source × Section)

/-- How a `Write` ends, and how many bytes a failed one has written. -/
structure Oracle where
  ok : Bool
  taken : Nat

inductive Act where
  | enqueue (m : Outbound)
  | send (m : Outbound)
  | ensureWriter
  /-- The outer `select` of the write loop. -/
  | select
  | drain
  | check
  /-- The deferred reset of `writing`. -/
  | done
  | closePeerWithCode (code : Nat) (reason : List UInt8)
  /-- The control handler, with a control frame that was read. -/
  | control (op : OpCode) (payload : List UInt8)
  | dropPeer
  | closeConn
  | reply (sections : List Section)
  /-- Take `writeMu`; further sections of the same reply come after. -/
  | lock (source : Source) (sect : Section) (later : List Section)
  | write (source : Source) (left : List (List UInt8)) (later : List Section)
  | unlock (source : Source) (ok : Bool) (later : List Section)

/-- Where a writer goes on after its section. -/
def Source.after (source : Source) (ok : Bool) (later : List Section) :
    List Act :=
  match source with
  | .writeLoop => if ok then [.drain] else [.dropPeer, .done]
  | .close => []
  | .reply => if ok then [.reply later] else []

/-- The next message in `sendCh`, or what the write loop does without one. -/
def State.receive (s : State) (empty : Act) : State × List Act :=
  match s.sendCh with
  | [] => (s, [empty])
  | m :: rest =>
      ({ s with sendCh := rest }, [.lock .writeLoop (.frame m.frame) []])

def Act.next (oracle : Oracle) (act : Act) (s : State) :
    Option (State × List Act) :=
  match act with
  | .enqueue m => some (s, if s.closed then [] else [.send m])
  | .send m =>
      if s.sendCh.length < sendChCap then
        some ({ s with
            sendCh := s.sendCh ++ [m]
            queued := s.queued ++ [m] }, [.ensureWriter])
      else some (s, [])
  | .ensureWriter => some ({ s with writing := true }, [])
  | .select => some (s.receive .done)
  | .drain => some (s.receive .check)
  | .check => some (s, [if s.sendCh.length = 0 then .done else .select])
  | .done => some ({ s with writing := false }, [])
  | .closePeerWithCode code reason =>
      some (s, [.lock .close (.frame (newFrame opClose true
        (newCloseFrameBody code reason))) [], .dropPeer])
  | .control op payload => some (s, [.reply (controlReply op payload)])
  | .dropPeer =>
      some ({ s with closed := true }, if s.closed then [] else [.closeConn])
  | .closeConn => some ({ s with broken := true }, [])
  | .reply [] => some (s, [])
  | .reply (sect :: later) => some (s, [.lock .reply sect later])
  | .lock source sect later =>
      if s.locked then none
      else
        some ({ s with
            locked := true
            begun := s.begun ++ [(source, sect)] },
          [.write source sect.writes later])
  | .write source [] later => some (s, [.unlock source true later])
  | .write source (bts :: left) later =>
      if s.broken then some (s, [.unlock source false later])
      else if oracle.ok then
        some ({ s with sent := s.sent ++ bts }, [.write source left later])
      else
        some ({ s with
            sent := s.sent ++ bts.take oracle.taken
            broken := true }, [.unlock source false later])
  | .unlock source ok later =>
      some ({ s with locked := false }, source.after ok later)

/-- A write loop is started by whoever sets `writing`. -/
def Act.forks (act : Act) (s : State) : List Act :=
  match act with
  | .ensureWriter => if s.writing then [] else [.select]
  | _ => []

/-- Messages for the peer, its closing by anybody, and the control frames that
its reader has checked come from outside. -/
def Act.Entry : Act → Prop
  | .enqueue _ | .closePeerWithCode _ _ | .dropPeer => True
  | .control _ payload => payload.length ≤ maxControlFramePayloadSize
  | _ => False

def connection : Program State Act Oracle where
  next := Act.next
  forks := fun _ => Act.forks
  entry := Act.Entry

/-- A connection that has been upgraded. -/
def Upgraded (pool : Pool State Act) : Prop :=
  pool = ⟨⟨[], false, false, false, false, [], [], []⟩, []⟩

/-- The condition on the steps: the control handler does not refuse the data of
a close frame. -/
def AcceptsClose (_ : State) (act : Act) (_ : Oracle) : Prop :=
  ∀ payload, act = .control opClose payload → payload ≠ [] →
    checkCloseFrameData payload = none

/-- The frames that were begun, in the order in which `writeMu` was taken. -/
def State.frames (s : State) : List (Source × Frame) :=
  s.begun.filterMap fun entry => entry.2.frame?.map fun f => (entry.1, f)

/-- The frames of the write loop among some. -/
def fromLoop (frames : List (Source × Frame)) : List Frame :=
  frames.filterMap fun
    | (.writeLoop, f) => some f
    | _ => none

def State.bytesBegun (s : State) : List UInt8 :=
  s.begun.flatMap fun entry => entry.2.writes.flatten

/-! ## One writer at a time -/

def Act.holds : Act → Bool
  | .write _ _ _ | .unlock _ _ _ => true
  | _ => false

/-- `writeMu` has one holder at most, and all bytes are out but those that the
holder has yet to write. -/
structure Orderly (s : State) (acts : List Act) : Prop where
  holder : acts.countP Act.holds = if s.locked then 1 else 0
  sent : s.sent <+: s.bytesBegun
  writing : ∀ source left later, .write source left later ∈ acts →
    s.broken = false → s.sent ++ left.flatten = s.bytesBegun
  between : s.broken = false →
    (∀ source left later, .write source left later ∉ acts) →
    s.sent = s.bytesBegun

section Step

variable {oracle : Oracle} {s s' : State} {act : Act}
  {acts others : List Act}

theorem Orderly.perm {acts' : List Act} (orderly : Orderly s acts)
    (same : acts.Perm acts') : Orderly s acts' where
  holder := (same.countP_eq _).symm.trans orderly.holder
  sent := orderly.sent
  writing := fun source left later member =>
    orderly.writing source left later (same.mem_iff.mpr member)
  between := fun works none => orderly.between works
    fun source left later member =>
      none source left later (same.mem_iff.mp member)

/-- Nobody holds `writeMu` beside the running activation. -/
theorem Orderly.alone (orderly : Orderly s (act :: others))
    (holds : act.holds = true) :
    s.locked = true ∧ ∀ act' ∈ others, act'.holds = false := by
  have count := orderly.holder
  rw [List.countP_cons_of_pos holds] at count
  split at count
  · rename_i locked
    refine ⟨locked, fun act' member => ?_⟩
    have none : others.countP Act.holds = 0 := Nat.succ.inj count
    exact Bool.eq_false_iff.mpr (List.countP_eq_zero.mp none act' member)
  · cases count

/-- A step outside of the sections changes nothing. -/
theorem Orderly.outside (orderly : Orderly s (act :: others))
    (locked : s'.locked = s.locked)
    (broken : s'.broken = false → s.broken = false)
    (sent : s'.sent = s.sent) (begun : s'.begun = s.begun)
    (free : act.holds = false) (started : ∀ act' ∈ acts, act'.holds = false) :
    Orderly s' (acts ++ others) where
  holder := by
    have count := orderly.holder
    rw [List.countP_cons_of_neg (by rw [free]; exact Bool.false_ne_true)]
      at count
    have none : acts.countP Act.holds = 0 := List.countP_eq_zero.mpr
      fun act' member => by rw [started act' member]; exact Bool.false_ne_true
    rw [List.countP_append, none, Nat.zero_add, locked]
    exact count
  sent := by
    rw [sent, State.bytesBegun, begun]
    exact orderly.sent
  writing := by
    intro source left later member works
    rw [sent, State.bytesBegun, begun]
    rcases List.mem_append.mp member with new | old
    · cases started _ new
    · exact orderly.writing source left later (List.mem_cons_of_mem _ old)
        (broken works)
  between := by
    intro works none
    rw [sent, State.bytesBegun, begun]
    apply orderly.between (broken works)
    intro source left later member
    rcases List.mem_cons.mp member with rfl | old
    · cases free
    · exact none source left later (List.mem_append_right _ old)

theorem Source.after_holds {source : Source} {ok : Bool}
    {later : List Section} {act' : Act}
    (member : act' ∈ source.after ok later) : act'.holds = false := by
  cases source <;> cases ok <;>
    simp only [Source.after, List.mem_cons, List.not_mem_nil, or_false,
      if_true, if_false, Bool.false_eq_true] at member
  all_goals
    rcases member with rfl | rfl <;> rfl

/-- A receive finds nothing, or takes a message to write. -/
theorem receive_cases {empty : Act} (took : s.receive empty = (s', acts)) :
    (s.sendCh = [] ∧ s' = s ∧ acts = [empty]) ∨
      ∃ m rest, s.sendCh = m :: rest ∧ s' = { s with sendCh := rest } ∧
        acts = [.lock .writeLoop (.frame m.frame) []] := by
  unfold State.receive at took
  split at took
  · rename_i none
    obtain ⟨rfl, rfl⟩ := Prod.mk.inj took
    exact .inl ⟨none, rfl, rfl⟩
  · rename_i m rest some_
    obtain ⟨rfl, rfl⟩ := Prod.mk.inj took
    exact .inr ⟨m, rest, some_, rfl, rfl⟩

private theorem receive_step {empty : Act}
    (orderly : Orderly s (act :: others)) (outside : act.holds = false)
    (free : empty.holds = false) (took : s.receive empty = (s', acts)) :
    Orderly s' (acts ++ others) := by
  rcases receive_cases took with ⟨-, rfl, rfl⟩ | ⟨m, rest, -, rfl, rfl⟩
  · exact orderly.outside rfl id rfl rfl outside (by simp [free])
  · exact orderly.outside rfl id rfl rfl outside (by simp [Act.holds])

private theorem lock_step {source : Source} {sect : Section}
    {later : List Section}
    (orderly : Orderly s (.lock source sect later :: others))
    (free : s.locked = false) :
    Orderly
      { s with locked := true, begun := s.begun ++ [(source, sect)] }
      (.write source sect.writes later :: others) := by
  have none : ∀ act' ∈ others, act'.holds = false := by
    have count := orderly.holder
    rw [free, List.countP_cons_of_neg Bool.false_ne_true] at count
    intro act' member
    exact Bool.eq_false_iff.mpr (List.countP_eq_zero.mp count act' member)
  have begun : (s.begun ++ [(source, sect)]).flatMap
      (fun (_, sect) => sect.writes.flatten) =
        s.bytesBegun ++ sect.writes.flatten := by
    simp [State.bytesBegun]
  have out : s.broken = false → s.sent = s.bytesBegun := by
    intro works
    apply orderly.between works
    intro source' left later' member
    rcases List.mem_cons.mp member with same | old
    · cases same
    · cases none _ old
  refine ⟨?_, ?_, ?_, ?_⟩
  · rw [List.countP_cons_of_pos rfl, List.countP_eq_zero.mpr]
    · rfl
    · intro act' member
      rw [none act' member]
      exact Bool.false_ne_true
  · refine orderly.sent.trans ?_
    rw [State.bytesBegun, State.bytesBegun, begun]
    exact List.prefix_append _ _
  · intro source' left later' member works
    rcases List.mem_cons.mp member with same | old
    · obtain ⟨-, rfl, -⟩ := Act.write.inj same
      exact (congrArg (· ++ _) (out works)).trans begun.symm
    · cases none _ old
  · intro _ noWriter
    exact absurd List.mem_cons_self (noWriter source sect.writes later)

/-- The holder goes on to write what is left, or has nothing left to write. -/
private theorem write_step {source : Source} {left : List (List UInt8)}
    {later : List Section}
    (orderly : Orderly s (.write source left later :: others))
    {sent : List UInt8} {broken : Bool} {act' : Act}
    (holds : act'.holds = true)
    (same : s'.locked = s.locked ∧ s'.begun = s.begun ∧ s'.sent = sent ∧
      s'.broken = broken)
    (before : sent <+: s.bytesBegun)
    (goesOn : ∀ source' left' later', act' = .write source' left' later' →
      broken = false → sent ++ left'.flatten = s.bytesBegun)
    (isDone : (∀ source' left' later', act' ≠ .write source' left' later') →
      broken = false → sent = s.bytesBegun) :
    Orderly s' (act' :: others) := by
  obtain ⟨locked, begun, rfl, rfl⟩ := same
  obtain ⟨-, alone⟩ := orderly.alone rfl
  have bytes : s'.bytesBegun = s.bytesBegun := by
    rw [State.bytesBegun, begun]
    rfl
  refine ⟨?_, ?_, ?_, ?_⟩
  · rw [List.countP_cons_of_pos holds, locked, ← orderly.holder,
      List.countP_cons_of_pos rfl]
  · rwa [bytes]
  · intro source' left' later' member works
    rw [bytes]
    rcases List.mem_cons.mp member with same | old
    · exact goesOn source' left' later' same.symm works
    · cases alone _ old
  · intro works none
    rw [bytes]
    refine isDone (fun source' left' later' same => ?_) works
    exact none source' left' later' (same ▸ List.mem_cons_self)

theorem Orderly.step (orderly : Orderly s (act :: others))
    (next : act.next oracle s = some (s', acts)) :
    Orderly s' (acts ++ (act.forks s ++ others)) := by
  cases act with
  | lock source sect later =>
      simp only [Act.next] at next
      split at next
      · cases next
      · rename_i free
        cases next
        exact lock_step orderly (Bool.eq_false_iff.mpr free)
  | unlock source ok later =>
      cases next
      obtain ⟨locked, alone⟩ := orderly.alone rfl
      have none : ∀ act' ∈ source.after ok later ++ others,
          act'.holds = false := by
        intro act' member
        rcases List.mem_append.mp member with new | old
        · exact Source.after_holds new
        · exact alone act' old
      refine ⟨?_, orderly.sent, ?_, ?_⟩
      · rw [if_neg Bool.false_ne_true]
        apply List.countP_eq_zero.mpr
        intro act' member
        rw [none act' member]
        exact Bool.false_ne_true
      · intro source' left later' member
        cases none _ member
      · intro works _
        apply orderly.between works
        intro source' left later' member
        rcases List.mem_cons.mp member with same | old
        · cases same
        · cases alone _ old
  | write source left later =>
      cases left with
      | nil =>
          cases next
          refine write_step orderly rfl ⟨rfl, rfl, rfl, rfl⟩ orderly.sent ?_ ?_
          · intro _ _ _ same
            cases same
          · intro _ works
            have whole := orderly.writing source [] later List.mem_cons_self
              works
            rwa [List.flatten_nil, List.append_nil] at whole
      | cons bts left =>
          simp only [Act.next] at next
          split at next
          · rename_i broken
            cases next
            refine write_step orderly rfl ⟨rfl, rfl, rfl, rfl⟩ orderly.sent
              ?_ ?_
            · intro _ _ _ same
              cases same
            · intro _ works
              rw [broken] at works
              cases works
          · rename_i works
            have whole := orderly.writing source (bts :: left) later
              List.mem_cons_self (Bool.eq_false_iff.mpr works)
            rw [List.flatten_cons, ← List.append_assoc] at whole
            split at next
            · cases next
              refine write_step orderly rfl ⟨rfl, rfl, rfl, rfl⟩ ?_ ?_ ?_
              · exact ⟨_, whole⟩
              · intro _ _ _ same _
                obtain ⟨-, rfl, -⟩ := Act.write.inj same
                exact whole
              · intro noWriter
                exact absurd rfl (noWriter source left later)
            · cases next
              refine write_step orderly rfl ⟨rfl, rfl, rfl, rfl⟩ ?_ ?_ ?_
              · rw [← whole]
                exact ((List.prefix_append_right_inj s.sent).mpr
                  (List.take_prefix _ _)).trans (List.prefix_append _ _)
              · intro _ _ _ same
                cases same
              · intro _ works
                cases works
  | select => exact receive_step orderly rfl rfl (Option.some.inj next)
  | drain => exact receive_step orderly rfl rfl (Option.some.inj next)
  | ensureWriter =>
      cases next
      rw [List.nil_append]
      refine orderly.outside ?_ ?_ ?_ ?_ rfl ?_
      · rfl
      · exact id
      · rfl
      · rfl
      intro act' member
      simp only [Act.forks] at member
      split at member
      · cases member
      · obtain rfl := List.mem_singleton.mp member
        rfl
  | send m =>
      simp only [Act.next] at next
      split at next <;> cases next
      · exact orderly.outside rfl id rfl rfl rfl (by simp [Act.holds])
      · exact orderly.outside rfl id rfl rfl rfl (by simp)
  | closeConn =>
      cases next
      refine orderly.outside ?_ (fun works => ?_) ?_ ?_ rfl ?_
      · rfl
      · cases works
      · rfl
      · rfl
      · simp
  | reply sections =>
      cases sections with
      | nil =>
          cases next
          exact orderly.outside rfl id rfl rfl rfl (by simp)
      | cons sect later =>
          cases next
          exact orderly.outside rfl id rfl rfl rfl (by simp [Act.holds])
  | enqueue m =>
      cases next
      apply orderly.outside rfl id rfl rfl rfl
      intro act' member
      split at member
      · cases member
      · obtain rfl := List.mem_singleton.mp member
        rfl
  | dropPeer =>
      cases next
      refine orderly.outside ?_ ?_ ?_ ?_ rfl ?_
      · rfl
      · exact id
      · rfl
      · rfl
      · intro act' member
        split at member
        · cases member
        · obtain rfl := List.mem_singleton.mp member
          rfl
  | check =>
      cases next
      apply orderly.outside rfl id rfl rfl rfl
      intro act' member
      obtain rfl := List.mem_singleton.mp member
      split <;> rfl
  | done =>
      cases next
      exact orderly.outside rfl id rfl rfl rfl (by simp)
  | closePeerWithCode code reason =>
      cases next
      exact orderly.outside rfl id rfl rfl rfl (by simp [Act.holds])
  | control op payload =>
      cases next
      exact orderly.outside rfl id rfl rfl rfl (by simp [Act.holds])

end Step

/-! ## One write loop at a time -/

def Act.loops : Act → Bool
  | .select | .drain | .check | .done => true
  | .lock .writeLoop _ _ | .write .writeLoop _ _ | .unlock .writeLoop _ _ =>
      true
  | _ => false

/-- The write loop is about to begin a frame. -/
def Act.begins : Act → Bool
  | .lock .writeLoop _ _ => true
  | _ => false

/-- A set `writing` belongs to one write loop, and what `sendCh` has accepted
is still there, in the hands of the loop, or begun. -/
structure Looped (s : State) (acts : List Act) : Prop where
  loops : acts.countP Act.loops = if s.writing then 1 else 0
  inHand : ∀ sect later, .lock .writeLoop sect later ∈ acts →
    ∃ f, sect = .frame f ∧
      fromLoop s.frames ++ f :: s.sendCh.map Outbound.frame =
        s.queued.map Outbound.frame
  caught : (∀ sect later, .lock .writeLoop sect later ∉ acts) →
    fromLoop s.frames ++ s.sendCh.map Outbound.frame =
      s.queued.map Outbound.frame

section Step

variable {oracle : Oracle} {s s' : State} {act : Act}
  {acts others : List Act}

theorem Looped.perm {acts' : List Act} (looped : Looped s acts)
    (same : acts.Perm acts') : Looped s acts' where
  loops := (same.countP_eq _).symm.trans looped.loops
  inHand := fun sect later member =>
    looped.inHand sect later (same.mem_iff.mpr member)
  caught := fun none => looped.caught
    fun sect later member => none sect later (same.mem_iff.mp member)

theorem not_loops_of_count {acts : List Act}
    (none : acts.countP Act.loops = 0) (sect : Section)
    (later : List Section) : .lock .writeLoop sect later ∉ acts :=
  fun member => List.countP_eq_zero.mp none _ member rfl

/-- There is no other write loop beside the running one. -/
theorem Looped.alone (looped : Looped s (act :: others))
    (loops : act.loops = true) :
    s.writing = true ∧ others.countP Act.loops = 0 := by
  have count := looped.loops
  rw [List.countP_cons_of_pos loops] at count
  split at count
  · rename_i writing
    exact ⟨writing, Nat.succ.inj count⟩
  · cases count

/-- A step that neither receives nor begins a message. -/
theorem Looped.carried (looped : Looped s (act :: others))
    (count : acts.countP Act.loops = [act].countP Act.loops)
    (writing : s'.writing = s.writing) (sendCh : s'.sendCh = s.sendCh)
    (queued : s'.queued = s.queued)
    (frames : fromLoop s'.frames = fromLoop s.frames)
    (before : act.begins = false)
    (after : ∀ act' ∈ acts, act'.begins = false) :
    Looped s' (acts ++ others) where
  loops := by
    have total := looped.loops
    rw [← List.singleton_append, List.countP_append] at total
    rw [List.countP_append, count, total, writing]
  inHand := by
    intro sect later member
    rw [sendCh, queued, frames]
    apply looped.inHand sect later
    rcases List.mem_append.mp member with new | old
    · cases after _ new
    · exact List.mem_cons_of_mem _ old
  caught := by
    intro none
    rw [sendCh, queued, frames]
    apply looped.caught
    intro sect later member
    rcases List.mem_cons.mp member with rfl | old
    · cases before
    · exact none sect later (List.mem_append_right _ old)

theorem fromLoop_append (frames later : List (Source × Frame)) :
    fromLoop (frames ++ later) = fromLoop frames ++ fromLoop later :=
  List.filterMap_append

theorem frames_append (s : State) (source : Source) (sect : Section) :
    ({ s with locked := true, begun := s.begun ++ [(source, sect)] } :
      State).frames =
      s.frames ++ (sect.frame?.map fun f => (source, f)).toList := by
  unfold State.frames
  rw [List.filterMap_append]
  cases found : sect.frame? with
  | none => simp [found]
  | some f => simp [found]

private theorem loop_lock_step {sect : Section} {later : List Section}
    (looped : Looped s (.lock .writeLoop sect later :: others)) :
    Looped
      { s with locked := true, begun := s.begun ++ [(.writeLoop, sect)] }
      (.write .writeLoop sect.writes later :: others) := by
  obtain ⟨writing, alone⟩ := looped.alone rfl
  obtain ⟨f, rfl, accounted⟩ := looped.inHand sect later List.mem_cons_self
  have begun : fromLoop ({ s with
      locked := true, begun := s.begun ++ [(.writeLoop, .frame f)] } :
        State).frames = fromLoop s.frames ++ [f] := by
    rw [frames_append, fromLoop_append]
    rfl
  refine ⟨?_, ?_, ?_⟩
  · rw [List.countP_cons_of_pos rfl, alone]
    exact (if_pos writing).symm
  · intro sect' later' member
    rcases List.mem_cons.mp member with same | old
    · cases same
    · exact absurd old (not_loops_of_count alone sect' later')
  · intro _
    rw [begun, List.append_assoc, List.singleton_append]
    exact accounted

private theorem other_lock_step {source : Source} {sect : Section}
    {later : List Section} (other : source ≠ .writeLoop)
    (looped : Looped s (.lock source sect later :: others)) :
    Looped { s with locked := true, begun := s.begun ++ [(source, sect)] }
      (.write source sect.writes later :: others) := by
  have frames : fromLoop ({ s with
      locked := true, begun := s.begun ++ [(source, sect)] } :
        State).frames = fromLoop s.frames := by
    rw [frames_append, fromLoop_append]
    have none : fromLoop (sect.frame?.map fun f => (source, f)).toList = [] := by
      cases sect.frame? with
      | none => rfl
      | some f =>
          cases source with
          | writeLoop => exact absurd rfl other
          | close | reply => rfl
    rw [none, List.append_nil]
  show Looped _ ([.write source sect.writes later] ++ others)
  refine looped.carried ?_ ?_ ?_ ?_ frames ?_ ?_
  · cases source <;> rfl
  · rfl
  · rfl
  · rfl
  · cases source with
    | writeLoop => exact absurd rfl other
    | close | reply => rfl
  · intro act' member
    obtain rfl := List.mem_singleton.mp member
    rfl

private theorem loop_receive_step {empty : Act} (before : act.loops = true)
    (after : empty.loops = true)
    (first : act.begins = false) (last : empty.begins = false)
    (looped : Looped s (act :: others))
    (took : s.receive empty = (s', acts)) : Looped s' (acts ++ others) := by
  obtain ⟨writing, alone⟩ := looped.alone before
  rcases receive_cases took with ⟨-, rfl, rfl⟩ | ⟨m, rest, some_, rfl, rfl⟩
  · apply looped.carried _ rfl rfl rfl rfl first
    · intro act' member
      obtain rfl := List.mem_singleton.mp member
      exact last
    · rw [List.countP_cons_of_pos after, List.countP_cons_of_pos before]
  · have caught := looped.caught fun sect later member => by
      rcases List.mem_cons.mp member with rfl | old
      · cases first
      · exact not_loops_of_count alone sect later old
    rw [some_, List.map_cons] at caught
    refine ⟨?_, ?_, ?_⟩
    · rw [List.countP_append, alone]
      exact (if_pos writing).symm
    · intro sect later member
      rcases List.mem_append.mp member with new | old
      · obtain ⟨-, rfl, -⟩ := Act.lock.inj (List.mem_singleton.mp new)
        exact ⟨m.frame, rfl, caught⟩
      · exact absurd old (not_loops_of_count alone sect later)
    · intro none
      exact absurd (List.mem_append_left _ (List.mem_singleton_self _))
        (none _ _)

theorem Looped.step (looped : Looped s (act :: others))
    (next : act.next oracle s = some (s', acts)) :
    Looped s' (acts ++ (act.forks s ++ others)) := by
  cases act with
  | select =>
      exact loop_receive_step rfl rfl rfl rfl looped
        (Option.some.inj next)
  | drain =>
      exact loop_receive_step rfl rfl rfl rfl looped
        (Option.some.inj next)
  | check =>
      cases next
      refine looped.carried ?_ rfl rfl rfl rfl rfl ?_
      · split <;> rfl
      · intro act' member
        obtain rfl := List.mem_singleton.mp member
        split <;> rfl
  | done =>
      cases next
      obtain ⟨-, alone⟩ := looped.alone rfl
      refine ⟨alone, ?_, ?_⟩
      · intro sect later member
        exact absurd member (not_loops_of_count alone sect later)
      · intro none
        apply looped.caught
        intro sect later member
        rcases List.mem_cons.mp member with same | old
        · cases same
        · exact none sect later old
  | ensureWriter =>
      cases next
      have loops := looped.loops
      rw [List.countP_cons_of_neg Bool.false_ne_true] at loops
      refine ⟨?_, ?_, ?_⟩
      · simp only [Act.forks, List.nil_append, if_true]
        split
        · rename_i writing
          rw [List.nil_append, loops, if_pos writing]
        · rename_i idle
          rw [List.singleton_append, List.countP_cons_of_pos rfl, loops,
            if_neg idle]
      · intro sect later member
        apply looped.inHand sect later
        simp only [Act.forks, List.nil_append] at member
        split at member
        · exact List.mem_cons_of_mem _ member
        · rcases List.mem_cons.mp member with same | old
          · cases same
          · exact List.mem_cons_of_mem _ old
      · intro none
        apply looped.caught
        intro sect later member
        rcases List.mem_cons.mp member with same | old
        · cases same
        · exact none sect later (List.mem_append_right _
            (List.mem_append_right _ old))
  | send m =>
      simp only [Act.next] at next
      split at next <;> cases next
      · have loops := looped.loops
        rw [List.countP_cons_of_neg Bool.false_ne_true] at loops
        refine ⟨?_, ?_, ?_⟩
        · exact loops
        · intro sect later member
          rcases List.mem_cons.mp member with same | old
          · cases same
          · obtain ⟨f, rfl, accounted⟩ := looped.inHand sect later
              (List.mem_cons_of_mem _ old)
            refine ⟨f, rfl, ?_⟩
            rw [List.map_append, List.map_append, ← accounted]
            simp [State.frames]
        · intro none
          have caught := looped.caught fun sect later member => by
            rcases List.mem_cons.mp member with same | old
            · cases same
            · exact none sect later (List.mem_cons_of_mem _ old)
          rw [List.map_append, List.map_append, ← caught,
            ← List.append_assoc]
          rfl
      · exact looped.carried rfl rfl rfl rfl rfl rfl (by simp [Act.begins])
  | lock source sect later =>
      simp only [Act.next] at next
      split at next
      · cases next
      · cases next
        by_cases own : source = .writeLoop
        · subst own
          exact loop_lock_step looped
        · exact other_lock_step own looped
  | write source left later =>
      cases left with
      | nil =>
          cases next
          refine looped.carried ?_ rfl rfl rfl rfl rfl (by simp [Act.begins])
          cases source <;> rfl
      | cons bts left =>
          simp only [Act.next] at next
          split at next
          · cases next
            refine looped.carried ?_ rfl rfl rfl rfl rfl (by simp [Act.begins])
            cases source <;> rfl
          · split at next <;> cases next
            · refine looped.carried ?_ ?_ ?_ ?_ ?_ rfl (by simp [Act.begins])
              · cases source <;> rfl
              all_goals rfl
            · refine looped.carried ?_ ?_ ?_ ?_ ?_ rfl (by simp [Act.begins])
              · cases source <;> rfl
              all_goals rfl
  | unlock source ok later =>
      cases next
      refine looped.carried ?_ ?_ ?_ ?_ ?_ rfl ?_
      · cases source <;> cases ok <;> rfl
      · rfl
      · rfl
      · rfl
      · rfl
      · intro act' member
        cases source <;> cases ok <;> simp [Source.after] at member
        all_goals
          rcases member with rfl | rfl <;> rfl
  | reply sections =>
      cases sections with
      | nil =>
          cases next
          exact looped.carried rfl rfl rfl rfl rfl rfl (by simp [Act.begins])
      | cons sect later =>
          cases next
          exact looped.carried rfl rfl rfl rfl rfl rfl (by simp [Act.begins])
  | enqueue m =>
      cases next
      refine looped.carried ?_ rfl rfl rfl rfl rfl ?_
      · split <;> rfl
      · intro act' member
        split at member
        · cases member
        · obtain rfl := List.mem_singleton.mp member
          rfl
  | dropPeer =>
      cases next
      refine looped.carried ?_ ?_ ?_ ?_ ?_ rfl ?_
      · split <;> rfl
      · rfl
      · rfl
      · rfl
      · rfl
      · intro act' member
        split at member
        · cases member
        · obtain rfl := List.mem_singleton.mp member
          rfl
  | closeConn =>
      cases next
      refine looped.carried rfl ?_ ?_ ?_ ?_ rfl (by simp [Act.begins])
      all_goals rfl
  | closePeerWithCode code reason =>
      cases next
      exact looped.carried rfl rfl rfl rfl rfl rfl (by simp [Act.begins])
  | control op payload =>
      cases next
      exact looped.carried rfl rfl rfl rfl rfl rfl (by simp [Act.begins])

end Step

/-! ## Whole frames -/

/-- A section that writes a frame as the standard asks for it. -/
def Section.Whole (sect : Section) : Prop :=
  ∃ f, sect.frame? = some f ∧ f.Fits ∧ f.IsProper

/-- The sections that an activation has before it. -/
def Act.sections : Act → List Section
  | .reply sections => sections
  | .lock _ sect later => sect :: later
  | .write _ _ later | .unlock _ _ later => later
  | _ => []

/-- All sections write whole frames, and what is answered was checked. -/
structure Framed (s : State) (acts : List Act) : Prop where
  ahead : ∀ act ∈ acts, ∀ sect ∈ act.sections, sect.Whole
  begun : ∀ entry ∈ s.begun, entry.2.Whole
  checked : ∀ op payload, .control op payload ∈ acts →
    payload.length ≤ maxControlFramePayloadSize

theorem newFrame_whole {op : OpCode} {p : List UInt8} (code : op < 16)
    (short : p.length < 2 ^ 63)
    (control : isControl op = true → p.length ≤ maxControlFramePayloadSize) :
    (newFrame op true p).Fits ∧ (newFrame op true p).IsProper :=
  ⟨newFrame_fits true code short, rfl, rfl, rfl, control⟩

theorem Outbound.whole (m : Outbound) :
    m.frame.Fits ∧ m.frame.IsProper := by
  apply newFrame_whole _ m.short
  · intro control
    rcases m.known with text | binary | ⟨-, small⟩
    · rw [text] at control
      cases control
    · rw [binary] at control
      cases control
    · exact small
  · rcases m.known with text | binary | ⟨pong, -⟩
    · rw [text]
      decide
    · rw [binary]
      decide
    · rw [pong]
      decide

theorem control_whole {op : OpCode} {p : List UInt8} (code : op < 16)
    (small : p.length ≤ maxControlFramePayloadSize) :
    (newFrame op true p).Fits ∧ (newFrame op true p).IsProper := by
  have short : p.length < 2 ^ 63 :=
    lt_of_le_of_lt small (by decide)
  exact newFrame_whole code short fun _ => small

theorem controlReply_whole {op : OpCode} {payload : List UInt8}
    (small : payload.length ≤ maxControlFramePayloadSize)
    (accepted : op = opClose → payload ≠ [] → checkCloseFrameData payload = none)
    {sect : Section} (member : sect ∈ controlReply op payload) :
    sect.Whole := by
  unfold controlReply at member
  split at member
  · obtain rfl := List.mem_singleton.mp member
    exact ⟨_, rfl, control_whole (by decide) small⟩
  · split at member
    · rename_i close
      split at member
      · obtain rfl := List.mem_singleton.mp member
        exact ⟨_, rfl, control_whole (by decide) (by simp)⟩
      · rename_i some_
        rw [accepted close some_] at member
        obtain rfl := List.mem_singleton.mp member
        refine ⟨_, rfl, control_whole (by decide) ?_⟩
        exact (List.length_take_le _ _).trans (by decide)
    · cases member

section Step

variable {oracle : Oracle} {s s' : State} {act : Act}
  {acts others : List Act}

/-- The sections of the activations a step starts are those of the running
one, or write whole frames. -/
theorem next_sections (next : act.next oracle s = some (s', acts))
    (small : ∀ op payload, act = .control op payload →
      payload.length ≤ maxControlFramePayloadSize)
    (accepts : AcceptsClose s act oracle) {act' : Act}
    (started : act' ∈ acts) {sect : Section} (ahead : sect ∈ act'.sections) :
    sect ∈ act.sections ∨ sect.Whole := by
  have received : ∀ empty : Act, empty.sections = [] →
      s.receive empty = (s', acts) → sect.Whole := by
    intro empty none took
    rcases receive_cases took with ⟨-, -, rfl⟩ | ⟨m, rest, -, -, rfl⟩
    · obtain rfl := List.mem_singleton.mp started
      rw [none] at ahead
      cases ahead
    · obtain rfl := List.mem_singleton.mp started
      obtain rfl := List.mem_singleton.mp ahead
      exact ⟨_, rfl, m.whole⟩
  cases act with
  | select => exact .inr (received .done rfl (Option.some.inj next))
  | drain => exact .inr (received .check rfl (Option.some.inj next))
  | closePeerWithCode code reason =>
      cases next
      right
      simp only [List.mem_cons, List.not_mem_nil, or_false] at started
      rcases started with rfl | rfl
      · obtain rfl := List.mem_singleton.mp ahead
        exact ⟨_, rfl, control_whole (by decide)
          (newCloseFrameBody_length code reason)⟩
      · cases ahead
  | control op payload =>
      cases next
      obtain rfl := List.mem_singleton.mp started
      right
      refine controlReply_whole (small op payload rfl) ?_ ahead
      rintro rfl some_
      exact accepts payload rfl some_
  | reply sections =>
      left
      cases sections with
      | nil =>
          cases next
          cases started
      | cons first later =>
          cases next
          obtain rfl := List.mem_singleton.mp started
          exact ahead
  | lock source first later =>
      left
      simp only [Act.next] at next
      split at next
      · cases next
      · cases next
        obtain rfl := List.mem_singleton.mp started
        exact List.mem_cons_of_mem first ahead
  | write source left later =>
      left
      cases left with
      | nil =>
          cases next
          obtain rfl := List.mem_singleton.mp started
          exact ahead
      | cons bts left =>
          simp only [Act.next] at next
          split at next
          · cases next
            obtain rfl := List.mem_singleton.mp started
            exact ahead
          · split at next <;> cases next <;>
              obtain rfl := List.mem_singleton.mp started <;>
              exact ahead
  | unlock source ok later =>
      left
      cases next
      cases source <;> cases ok <;> simp [Source.after] at started
      · rcases started with rfl | rfl <;> cases ahead
      · subst started
        cases ahead
      · subst started
        exact ahead
  | send m =>
      simp only [Act.next] at next
      split at next <;> cases next
      · obtain rfl := List.mem_singleton.mp started
        cases ahead
      · cases started
  | enqueue m | dropPeer =>
      cases next
      split at started
      · cases started
      · obtain rfl := List.mem_singleton.mp started
        cases ahead
  | check =>
      cases next
      obtain rfl := List.mem_singleton.mp started
      split at ahead <;> cases ahead
  | ensureWriter | done | closeConn =>
      cases next
      cases started

/-- Only the holder of `writeMu` begins a section, one that was ahead. -/
theorem next_begun (next : act.next oracle s = some (s', acts))
    {entry : Source × Section} (member : entry ∈ s'.begun) :
    entry ∈ s.begun ∨ entry.2 ∈ act.sections := by
  have received : ∀ empty : Act, s.receive empty = (s', acts) →
      s'.begun = s.begun := by
    intro empty took
    rcases receive_cases took with ⟨-, rfl, -⟩ | ⟨m, rest, -, rfl, -⟩ <;> rfl
  cases act with
  | lock source first later =>
      simp only [Act.next] at next
      split at next
      · cases next
      · cases next
        rcases List.mem_append.mp member with old | new
        · exact .inl old
        · obtain rfl := List.mem_singleton.mp new
          exact .inr List.mem_cons_self
  | select => exact .inl (received .done (Option.some.inj next) ▸ member)
  | drain => exact .inl (received .check (Option.some.inj next) ▸ member)
  | write source left later =>
      left
      cases left with
      | nil =>
          cases next
          exact member
      | cons bts left =>
          simp only [Act.next] at next
          split at next
          · cases next
            exact member
          · split at next <;> cases next <;> exact member
  | send m =>
      simp only [Act.next] at next
      split at next <;> cases next <;> exact .inl member
  | reply sections =>
      cases sections <;> cases next <;> exact .inl member
  | _ =>
      cases next
      exact .inl member

theorem no_control (next : act.next oracle s = some (s', acts))
    {op : OpCode} {payload : List UInt8} : .control op payload ∉ acts := by
  intro started
  cases act with
  | select | drain =>
      rcases receive_cases (Option.some.inj next) with
        ⟨-, -, rfl⟩ | ⟨m, rest, -, -, rfl⟩ <;> simp at started
  | lock source first later =>
      simp only [Act.next] at next
      split at next <;> cases next
      simp at started
  | write source left later =>
      cases left with
      | nil =>
          cases next
          simp at started
      | cons bts left =>
          simp only [Act.next] at next
          split at next
          · cases next
            simp at started
          · split at next <;> cases next <;> simp at started
  | unlock source ok later =>
      cases next
      cases source <;> cases ok <;> simp [Source.after] at started
  | send m =>
      simp only [Act.next] at next
      split at next <;> cases next <;> simp at started
  | reply sections =>
      cases sections <;> cases next <;> simp at started
  | enqueue m | dropPeer =>
      cases next
      split at started <;> simp at started
  | check =>
      cases next
      have same := List.mem_singleton.mp started
      split at same <;> cases same
  | _ =>
      cases next
      simp at started

theorem forks_sections {act' : Act} (forked : act' ∈ act.forks s) :
    act'.sections = [] ∧ ∀ op payload, act' ≠ .control op payload := by
  unfold Act.forks at forked
  split at forked
  · split at forked
    · cases forked
    · obtain rfl := List.mem_singleton.mp forked
      exact ⟨rfl, fun _ _ same => by cases same⟩
  · cases forked

theorem Framed.step (framed : Framed s (act :: others))
    (next : act.next oracle s = some (s', acts))
    (accepts : AcceptsClose s act oracle) :
    Framed s' (acts ++ (act.forks s ++ others)) := by
  have own := framed.ahead act List.mem_cons_self
  refine ⟨?_, ?_, ?_⟩
  · intro act' member sect ahead
    rcases List.mem_append.mp member with started | rest
    · have small : ∀ op payload, act = .control op payload →
          payload.length ≤ maxControlFramePayloadSize := by
        rintro op payload rfl
        exact framed.checked op payload List.mem_cons_self
      rcases next_sections next small accepts started ahead with old | whole
      · exact own sect old
      · exact whole
    · rcases List.mem_append.mp rest with forked | waits
      · rw [(forks_sections forked).1] at ahead
        cases ahead
      · exact framed.ahead act' (List.mem_cons_of_mem _ waits) sect ahead
  · intro entry member
    rcases next_begun next member with old | ahead
    · exact framed.begun entry old
    · exact own entry.2 ahead
  · intro op payload member
    rcases List.mem_append.mp member with started | rest
    · exact absurd started (no_control next)
    · rcases List.mem_append.mp rest with forked | waits
      · exact absurd rfl ((forks_sections forked).2 op payload)
      · exact framed.checked op payload (List.mem_cons_of_mem _ waits)

end Step

/-! ## Runs -/

/-- All that is known of a connection. -/
structure Tidy (s : State) (acts : List Act) : Prop where
  orderly : Orderly s acts
  looped : Looped s acts
  framed : Framed s acts

theorem Tidy.spawn {s : State} {act : Act} {acts : List Act}
    (tidy : Tidy s acts) (entry : act.Entry) : Tidy s (act :: acts) := by
  have idle : act.holds = false ∧ act.loops = false ∧ act.begins = false ∧
      act.sections = [] ∧ ∀ op payload, act = .control op payload →
        payload.length ≤ maxControlFramePayloadSize := by
    unfold Act.Entry at entry
    split at entry
    · exact ⟨rfl, rfl, rfl, rfl, fun _ _ same => by cases same⟩
    · exact ⟨rfl, rfl, rfl, rfl, fun _ _ same => by cases same⟩
    · exact ⟨rfl, rfl, rfl, rfl, fun _ _ same => by cases same⟩
    · refine ⟨rfl, rfl, rfl, rfl, fun _ _ same => ?_⟩
      cases same
      exact entry
    · exact entry.elim
  obtain ⟨free, out, noLock, noSections, small⟩ := idle
  obtain ⟨orderly, looped, framed⟩ := tidy
  refine ⟨⟨?_, orderly.sent, ?_, ?_⟩, ⟨?_, ?_, ?_⟩, ?_, framed.begun, ?_⟩
  · rw [List.countP_cons_of_neg (by rw [free]; exact Bool.false_ne_true)]
    exact orderly.holder
  · intro source left later member
    rcases List.mem_cons.mp member with rfl | old
    · cases free
    · exact orderly.writing source left later old
  · intro works none
    exact orderly.between works fun source left later old =>
      none source left later (List.mem_cons_of_mem _ old)
  · rw [List.countP_cons_of_neg (by rw [out]; exact Bool.false_ne_true)]
    exact looped.loops
  · intro sect later member
    rcases List.mem_cons.mp member with rfl | old
    · cases noLock
    · exact looped.inHand sect later old
  · intro none
    exact looped.caught fun sect later old =>
      none sect later (List.mem_cons_of_mem _ old)
  · intro act' member sect ahead
    rcases List.mem_cons.mp member with rfl | old
    · rw [noSections] at ahead
      cases ahead
    · exact framed.ahead act' old sect ahead
  · intro op payload member
    rcases List.mem_cons.mp member with same | old
    · exact small op payload same.symm
    · exact framed.checked op payload old

theorem Framed.perm {s : State} {acts acts' : List Act}
    (framed : Framed s acts) (same : acts.Perm acts') : Framed s acts' where
  ahead := fun act member => framed.ahead act (same.mem_iff.mpr member)
  begun := framed.begun
  checked := fun op payload member =>
    framed.checked op payload (same.mem_iff.mpr member)

theorem tidy_of_reachable {pool : Pool State Act}
    (reachable : ((connection.system Upgraded).restrict
      (Program.OnRun AcceptsClose)).Reachable pool) :
    Tidy pool.shared pool.acts := by
  apply Program.invariant Tidy _ _ _ _ reachable
  · intro s acts acts' same tidy
    exact ⟨tidy.orderly.perm same, tidy.looped.perm same,
      tidy.framed.perm same⟩
  · intro pool upgraded
    rw [show pool = _ from upgraded]
    exact ⟨⟨rfl, List.prefix_refl _, by simp [Pool.acts], fun _ _ => rfl⟩,
      ⟨rfl, by simp [Pool.acts], fun _ => rfl⟩,
      ⟨by simp [Pool.acts], by simp, by simp [Pool.acts]⟩⟩
  · intro s acts act entry tidy
    exact tidy.spawn entry
  · intro s s' act acts others oracle tidy next accepts
    exact ⟨tidy.orderly.step next, tidy.looped.step next,
      tidy.framed.step next accepts⟩

/-- Sections that write whole frames write the bytes of their frames. -/
theorem bytesBegun_eq {s : State} (whole : ∀ entry ∈ s.begun, entry.2.Whole) :
    s.bytesBegun = (s.frames.map Prod.snd).flatMap Frame.bytes := by
  unfold State.bytesBegun State.frames
  generalize s.begun = begun at whole
  induction begun with
  | nil => rfl
  | cons entry begun induction =>
      obtain ⟨source, sect⟩ := entry
      obtain ⟨f, isFrame, -⟩ := whole (source, sect) List.mem_cons_self
      have found : sect.frame? = some f := isFrame
      have bytes : sect.writes.flatten = f.bytes := by
        cases sect with
        | frame f' | compiled f' =>
            obtain rfl := Option.some.inj found
            simp [Section.writes, Frame.bytes]
        | part bts => cases found
      have rest := induction fun entry member =>
        whole entry (List.mem_cons_of_mem _ member)
      rw [List.flatMap_cons, List.filterMap_cons_some
        (b := (source, f)) (by rw [found]; rfl), List.map_cons,
        List.flatMap_cons, bytes, rest]

theorem frames_whole {s : State} (whole : ∀ entry ∈ s.begun, entry.2.Whole) :
    ∀ entry ∈ s.frames, entry.2.Fits ∧ entry.2.IsProper := by
  intro entry member
  obtain ⟨⟨source, sect⟩, begun, found⟩ := List.mem_filterMap.mp member
  obtain ⟨f, isFrame, proper⟩ := whole _ begun
  simp only [isFrame, Option.map_some, Option.some.injEq] at found
  exact found ▸ proper

theorem fromLoop_mono {frames frames' : List (Source × Frame)}
    (before : frames <+: frames') : fromLoop frames <+: fromLoop frames' :=
  before.filterMap _

/-- However the goroutines that write to a connection take turns, the client
reads frames as they were begun under `writeMu`: proper ones, each one whole,
none lost before another.  Those of the write loop are what `Enqueue` accepted,
in order, and none of it is missing when all is written. -/
theorem reads_frames {pool : Pool State Act}
    (reachable : ((connection.system Upgraded).restrict
      (Program.OnRun AcceptsClose)).Reachable pool) {rounds : Nat}
    (enough : pool.shared.sent.length < rounds) :
    ∃ arrived, arrived <+: pool.shared.frames ∧
      readFrame.collect rounds (pool.shared.sent.map .item) =
        arrived.map Prod.snd ∧
      (∀ entry ∈ arrived, entry.2.IsProper) ∧
      fromLoop arrived <+: pool.shared.queued.map Outbound.frame ∧
      (pool.shared.broken = false → pool.shared.locked = false →
        arrived = pool.shared.frames) ∧
      (pool.shared.broken = false → pool.acts = [] →
        pool.shared.sendCh = [] →
        fromLoop arrived = pool.shared.queued.map Outbound.frame) := by
  obtain ⟨orderly, looped, framed⟩ := tidy_of_reachable reachable
  have whole := frames_whole framed.begun
  have bytes := bytesBegun_eq framed.begun
  have fits : ∀ f ∈ pool.shared.frames.map Prod.snd, f.Fits := by
    intro f member
    obtain ⟨entry, begun, rfl⟩ := List.mem_map.mp member
    exact (whole entry begun).1
  obtain ⟨n, collected, before, broken⟩ := collect_frames fits
    (bytes ▸ orderly.sent) enough
  have accepted : fromLoop pool.shared.frames <+:
      pool.shared.queued.map Outbound.frame := by
    by_cases begins : ∃ sect later,
        .lock .writeLoop sect later ∈ pool.acts
    · obtain ⟨sect, later, member⟩ := begins
      obtain ⟨f, -, accounted⟩ := looped.inHand sect later member
      exact accounted ▸ List.prefix_append _ _
    · have accounted := looped.caught fun sect later member =>
        begins ⟨sect, later, member⟩
      exact accounted ▸ List.prefix_append _ _
  have all : pool.shared.broken = false → pool.shared.locked = false →
      pool.shared.frames.take n = pool.shared.frames := by
    intro works free
    have none : ∀ source left later,
        .write source left later ∉ pool.acts := by
      intro source left later member
      have count := orderly.holder
      rw [free, if_neg Bool.false_ne_true] at count
      exact List.countP_eq_zero.mp count _ member rfl
    have sent := orderly.between works none
    rw [sent, bytes] at broken
    have taken := congrArg List.length
      (StreamReader.take_eq_of_broken broken)
    rw [List.length_take, List.length_map] at taken
    exact List.take_of_length_le (min_eq_right_iff.mp taken)
  refine ⟨pool.shared.frames.take n, List.take_prefix _ _, ?_, ?_, ?_, all,
    ?_⟩
  · rw [collected, List.map_take]
  · intro entry member
    exact (whole entry (List.mem_of_mem_take member)).2
  · exact (fromLoop_mono (List.take_prefix _ _)).trans accepted
  · intro works idle empty
    have free : pool.shared.locked = false := by
      have count := orderly.holder
      rw [idle] at count
      cases locked : pool.shared.locked with
      | false => rfl
      | true =>
          rw [locked] at count
          cases count
    have accounted := looped.caught fun sect later member => by
      rw [idle] at member
      cases member
    rw [all works free, ← accounted, empty, List.map_nil, List.append_nil]

/-- A text of two bytes. -/
private def hi : Outbound where
  data := [0x68, 0x69]
  opCode := opText
  short := by decide
  known := .inl rfl

/-- The pong to a ping waits until the frame of a text is out. -/
private def pingMoves : List (Program.Move Act Oracle) :=
  [.spawn (.enqueue hi), .spawn (.control opPing [7])] ++
    (([0, 0, 0, 1, 1, 2, 2, 2, 2, 2, 2, 2, 2, 2] ++ [1, 1, 1, 1, 1]).map
      fun i => .run i ⟨true, 0⟩)

/-- Not a step of the control handler with a close frame. -/
private def leavesOpen : Pool State Act × PoolLabel Act Oracle → Bool
  | (_, .run (.control op _) _) => op != opClose
  | _ => true

private theorem acceptsClose_of_leavesOpen
    {entry : Pool State Act × PoolLabel Act Oracle}
    (leaves : leavesOpen entry = true) :
    Program.OnRun AcceptsClose entry.1 entry.2 := by
  obtain ⟨pool, label⟩ := entry
  cases label with
  | spawn act => trivial
  | run act oracle =>
      intro payload isClose
      subst isClose
      cases leaves

/-- The client reads a text and the pong to its ping. -/
theorem reads_frames_hi :
    ∃ pool : Pool State Act,
      readFrame.collect 8 (pool.shared.sent.map .item) =
        [newFrame opText true [0x68, 0x69], newFrame opPong true [7]] ∧
      fromLoop pool.shared.frames = pool.shared.queued.map Outbound.frame := by
  obtain ⟨trace, pool, played, checked, short, idle, works, free, empty,
      frames⟩ : ∃ trace pool,
      connection.play ⟨⟨[], false, false, false, false, [], [], []⟩, []⟩
        pingMoves = some (trace, pool) ∧
      trace.all leavesOpen = true ∧ pool.shared.sent.length < 8 ∧
      pool.acts = [] ∧ pool.shared.broken = false ∧
      pool.shared.locked = false ∧ pool.shared.sendCh = [] ∧
      pool.shared.frames = [(.writeLoop, newFrame opText true [0x68, 0x69]),
        (.reply, newFrame opPong true [7])] :=
    ⟨_, _, rfl, rfl, by decide, rfl, rfl, rfl, rfl, rfl⟩
  have run : (connection.system Upgraded).Run
      ⟨⟨[], false, false, false, false, [], [], []⟩, []⟩ trace pool := by
    refine Program.play_run ?_ played
    intro act member
    have either : act = .enqueue hi ∨ act = .control opPing [7] := by
      simpa [pingMoves] using member
    rcases either with rfl | rfl
    · trivial
    · exact Nat.le_of_ble_eq_true rfl
  have meets : Lts.AllMeet (Program.OnRun AcceptsClose) trace :=
    fun entry member =>
      acceptsClose_of_leavesOpen (List.all_eq_true.mp checked entry member)
  obtain ⟨arrived, -, read, -, -, whole, all⟩ := reads_frames
    ⟨_, trace, rfl, Lts.run_restrict_iff.mpr ⟨run, meets⟩⟩ short
  refine ⟨pool, ?_, ?_⟩
  · rw [read, whole works free, frames]
    rfl
  · rw [← whole works free]
    exact all works idle empty

/-- A close frame with a code of one byte is refused while a text is in
`sendCh`: the answer is written in two parts, and the frame of the text gets
between them. -/
private def refusedMoves : List (Program.Move Act Oracle) :=
  [.spawn (.enqueue hi), .spawn (.control opClose [3])] ++
    ([0, 0, 0, 2, 1, 1, 1, 1, 1, 1, 2, 2, 2, 2, 2, 1, 1, 1, 1, 1].map
      fun i => .run i ⟨true, 0⟩)

/-- Where the control handler refuses the data of a close frame, its answer
need not arrive: the client reads a close frame that nobody has sent. -/
theorem refused_close_torn :
    ∃ pool : Pool State Act, (connection.system Upgraded).Reachable pool ∧
      pool.shared.broken = false ∧ pool.shared.locked = false ∧
      ∃ f ∈ readFrame.collect 40 (pool.shared.sent.map .item),
        f.header.opCode = opClose ∧
          f.payload.take 4 = [0x81, 2, 0x68, 0x69] := by
  have torn : (connection.play
      ⟨⟨[], false, false, false, false, [], [], []⟩, []⟩ refusedMoves).any
      (fun ran => !ran.2.shared.broken && !ran.2.shared.locked &&
        (readFrame.collect 40 (ran.2.shared.sent.map .item)).any fun f =>
          f.header.opCode == opClose &&
            f.payload.take 4 == [0x81, 2, 0x68, 0x69]) = true := by
    decide +kernel
  obtain ⟨⟨trace, pool⟩, played, check⟩ := (Option.any_eq_true _ _).mp torn
  simp only [Bool.and_eq_true, Bool.not_eq_true'] at check
  obtain ⟨⟨works, free⟩, found⟩ := check
  obtain ⟨f, member, seen⟩ := List.any_eq_true.mp found
  rw [Bool.and_eq_true, beq_iff_eq, beq_iff_eq] at seen
  have run : (connection.system Upgraded).Run
      ⟨⟨[], false, false, false, false, [], [], []⟩, []⟩ trace pool := by
    refine Program.play_run ?_ played
    intro act member
    have either : act = .enqueue hi ∨ act = .control opClose [3] := by
      simpa [refusedMoves] using member
    rcases either with rfl | rfl
    · trivial
    · exact Nat.le_of_ble_eq_true rfl
  exact ⟨pool, ⟨_, trace, rfl, run⟩, works, free, f, member, seen.1, seen.2⟩

end Byteln.Server.Wire

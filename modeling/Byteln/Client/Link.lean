import Byteln.Client.TransferEffects

/-!
# Two engines of one room

The two engines that serve a room, joined by a channel that may drop, duplicate
and reorder frames but not forge them.  A frame of the room may be handled
whenever the peer has sent it, any number of times; whatever else happens to an
engine, its other rooms included, is unconstrained.
-/

namespace Byteln.Client

open Byteln.Library

inductive Side where
  | a
  | b
deriving DecidableEq

def Side.other : Side → Side
  | .a => .b
  | .b => .a

@[simp] theorem Side.other_other (side : Side) : side.other.other = side := by
  cases side <;> rfl

theorem Side.other_ne (side : Side) : side.other ≠ side := by
  cases side <;> decide

theorem Side.eq_or_eq_other (side x : Side) : x = side ∨ x = side.other := by
  cases side <;> cases x <;> decide

/-- The two engines of a room. -/
structure Link where
  sha256 : Bytes → JSString
  bucketId : JSString
  limits : Side → TransferLimits
  checksStorage : Side → Bool

/-- The engines of the two sides. -/
abbrev Engines := Side → Engine

/-- A section of one of them. -/
structure Section where
  side : Side
  event : Event
  env : Env

namespace Link

variable (link : Link)

/-- A section that handles a frame of the room handles one the peer sent. -/
def Genuine (peer : Engine) : Event → Prop
  | .handleAck bucketId ack =>
      bucketId = link.bucketId → .send bucketId (.xferAck ack) ∈ peer.log
  | .handleCancel bucketId msg =>
      bucketId = link.bucketId → .send bucketId (.xferCancel msg) ∈ peer.log
  | .handleQuery bucketId id =>
      bucketId = link.bucketId →
        ∃ ts, .send bucketId (.xferQuery { ts := ts, id := id }) ∈ peer.log
  | .handleChunk bucketId c =>
      bucketId = link.bucketId → .send bucketId (.xferChunk c) ∈ peer.log
  | _ => True

/-- The runs of two engines that start empty. -/
def system : Lts Engines Section where
  init := fun s =>
    ∀ side, s side = .new (link.limits side) (link.checksStorage side)
  step := fun s label s' =>
    link.Genuine (s label.side.other) label.event ∧
      ∃ e, (s label.side).step link.sha256 label.env label.event = some e ∧
        s' = Function.update s label.side e

/-- What starts in a state. -/
def turn (s : Engines) (label : Section) : Turn :=
  .of (s label.side) label.event label.env

variable {link}

theorem reachable_next {s : Engines} (reachable : link.system.Reachable s)
    (side : Side) (event : Event) (env : Env) {e : Engine}
    (genuine : link.Genuine (s side.other) event)
    (stepped : (s side).step link.sha256 env event = some e) :
    link.system.Reachable (Function.update s side e) := by
  have taken : link.system.step s ⟨side, event, env⟩
      (Function.update s side e) := ⟨genuine, e, stepped, rfl⟩
  exact reachable.step taken

/-- A section changes the engine of its own side only, move by move. -/
theorem step_moves {s s' : Engines} {label : Section}
    (sound : (s label.side).Sound) (step : link.system.step s label s') :
    Moves link.sha256 (turn s label) (s label.side) (s' label.side) ∧
      s' label.side.other = s label.side.other := by
  obtain ⟨-, e, stepped, rfl⟩ := step
  constructor
  · rw [Function.update_self]
    exact Engine.step_moves sound rfl stepped
  · rw [Function.update_of_ne label.side.other_ne]

theorem sound_of_step {s s' : Engines} {label : Section}
    (sound : ∀ side, (s side).Sound) (step : link.system.step s label s') :
    ∀ side, (s' side).Sound := by
  obtain ⟨moves, kept⟩ := step_moves (sound label.side) step
  intro side
  rcases label.side.eq_or_eq_other side with rfl | rfl
  · exact (sound label.side).of_moves moves
  · exact kept ▸ sound label.side.other

end Link

/-! ## Acks that end a transfer -/

/-- Every `done` ack is for a message that is stored. -/
def Engine.AcksHeld (e : Engine) : Prop :=
  ∀ bucketId ack, .send bucketId (.xferAck ack) ∈ e.log → ack.done = true →
    e.Holds bucketId ack.id

theorem Move.acksHeld {sha256 : Bytes → JSString} {turn : Turn}
    {e e' : Engine} (move : Move sha256 turn e e') (held : e.AcksHeld) :
    e'.AcksHeld := by
  intro bucketId ack sent done
  rcases move.mem_log sent with before | records
  · exact (held bucketId ack before done).mono move.log_subset
  · cases records with
    | quiet quiet => simp [Call.quiet] at quiet
    | ack => simp at done
    | ackDone stored => exact Engine.Holds.mono stored move.log_subset

theorem Moves.acksHeld {sha256 : Bytes → JSString} {turn : Turn}
    {e e' : Engine} (moves : Moves sha256 turn e e') (held : e.AcksHeld) :
    e'.AcksHeld := by
  induction moves with
  | refl => exact held
  | tail _ move induction => exact move.acksHeld induction

namespace Link

variable {link : Link}

/-- What holds of both engines of a link on their own. -/
structure Ready (s : Engines) : Prop where
  sound : ∀ side, (s side).Sound
  acksHeld : ∀ side, (s side).AcksHeld

theorem Ready.initial {s : Engines} (starts : link.system.init s) :
    Ready s where
  sound := by
    intro side
    rw [starts side]
    exact .initial _ _
  acksHeld := by
    intro side
    rw [starts side]
    intro bucketId ack sent
    simp [Engine.new] at sent

theorem Ready.step {s s' : Engines} {label : Section} (ready : Ready s)
    (step : link.system.step s label s') : Ready s' where
  sound := sound_of_step ready.sound step
  acksHeld := by
    obtain ⟨moves, kept⟩ := step_moves (ready.sound label.side) step
    intro side
    rcases label.side.eq_or_eq_other side with rfl | rfl
    · exact moves.acksHeld (ready.acksHeld label.side)
    · exact kept ▸ ready.acksHeld label.side.other

theorem ready_of_reachable {s : Engines}
    (reachable : link.system.Reachable s) : Ready s := by
  apply reachable.invariant Ready
  · intro s starts
    exact .initial starts
  · intro s label s' ready step
    exact ready.step step

end Link

/-- A `done` ack takes a live transfer out of its room, reports the others as
pending and the transfer as delivered. -/
theorem Engine.handleAck_done {e : Engine} (env : Env) {bucketId : JSString}
    {ack : TransferAckPlainMessage Time} {ref : Ref} {o : Outgoing}
    (sound : e.Sound) (found : e.findOut bucketId ack.id = some (ref, o))
    (done : ack.done = true) :
    let e' := e.handleAck env bucketId ack
    e'.findOut bucketId ack.id = none ∧
      ack.id ∉ e'.out.ids bucketId ∧
      ∃ transfers, e'.log = e.log ++
        [.persistPending bucketId (e'.out.ids bucketId),
          .publish bucketId transfers, .onDelivered bucketId ack.id] := by
  obtain ⟨listed, allocated, sameBucket, sameId⟩ := sound.findOut found
  have handled : e.handleAck env bucketId ack =
      ((e.deleteOut o).publish bucketId).record
        (.onDelivered bucketId ack.id) := by
    simp [Engine.handleAck, found, done, sameId]
  have out : (e.handleAck env bucketId ack).out =
      e.out.remove bucketId ack.id := by
    rw [handled, ← sameBucket, ← sameId]
    unfold Engine.deleteOut Engine.stopTimerIfIdle
    split <;> rfl
  have gone : (e.handleAck env bucketId ack).out.find bucketId ack.id =
      none := by
    rw [out]
    exact Rooms.find_remove_self _ _ _
  refine ⟨?_, ?_, ?_⟩
  · simp [Engine.findOut, gone]
  · rw [Rooms.mem_ids_iff, gone]
    simp
  · rw [out, handled]
    refine ⟨(e.deleteOut o).list bucketId, ?_⟩
    simp [Engine.record, Engine.publish, Engine.deleteOut, Engine.persist,
      sameBucket, sameId]

namespace Link

variable {link : Link}

/-- A handled ack of the room comes from the peer, so that a `done` one is for
a message the peer holds. -/
theorem holds_of_done {s s' : Engines} {label : Section} {id : JSString}
    (ready : Ready s) (step : link.system.step s label s')
    (handled : ∃ ack, label.event = .handleAck link.bucketId ack ∧
      ack.id = id ∧ ack.done = true) :
    (s label.side.other).Holds link.bucketId id := by
  obtain ⟨ack, event, rfl, done⟩ := handled
  have genuine := step.1
  rw [event] at genuine
  exact ready.acksHeld label.side.other _ ack (genuine rfl) done

/-- In every run of two engines: when a `done` ack takes a transfer out of the
sender's room, the receiver's `deliver` has resolved for it or its
`hasMessage` has returned true. -/
theorem removed_only_stored {s s' : Engines} {label : Section}
    {ack : TransferAckPlainMessage Time}
    (reachable : link.system.Reachable s)
    (step : link.system.step s label s')
    (event : label.event = .handleAck link.bucketId ack)
    (done : ack.done = true)
    (live : ((s label.side).findOut link.bucketId ack.id).isSome = true) :
    (s label.side.other).Holds link.bucketId ack.id ∧
      (s' label.side).findOut link.bucketId ack.id = none ∧
      ack.id ∉ (s' label.side).out.ids link.bucketId ∧
      ∃ transfers, (s' label.side).log = (s label.side).log ++
        [.persistPending link.bucketId
            ((s' label.side).out.ids link.bucketId),
          .publish link.bucketId transfers,
          .onDelivered link.bucketId ack.id] := by
  have ready := ready_of_reachable reachable
  refine ⟨holds_of_done ready step ⟨ack, event, rfl, done⟩, ?_⟩
  obtain ⟨⟨ref, o⟩, found⟩ := Option.isSome_iff_exists.mp live
  obtain ⟨-, e, stepped, rfl⟩ := step
  rw [event, Engine.step, Option.some.injEq] at stepped
  rw [Function.update_self, ← stepped]
  exact Engine.handleAck_done label.env (ready.sound label.side) found done

/-! ## A receiver that has the message already -/

private def pair : Link where
  sha256 := fun _ => js "digest"
  bucketId := js "room"
  limits := fun _ => DEFAULT_TRANSFER_LIMITS
  checksStorage := fun _ => false

private def note : OutgoingPayload where
  id := js "x"
  kind := .file
  ts := 0
  mime := js "text/plain"
  data := [1, 2, 3]
  name := some (js "note.txt")
  w := none
  h := none
  replyTo := none

private def stocked : Env where
  now := 0
  canSend := fun _ => true
  hasMessage := fun _ _ => true

private def fresh : Engine :=
  .new DEFAULT_TRANSFER_LIMITS false

/-- A sender that resumes asks what the receiver holds. -/
private def resuming : Engine :=
  fresh.register stocked (js "digest") (js "room") note true

private def answering : Engine :=
  fresh.ackKnown stocked (js "room") (js "x")

private def answer : TransferAckPlainMessage Time where
  ts := 0
  id := js "x"
  haves := []
  resend := false
  done := true

private def answered : Engines :=
  Function.update
    (Function.update (Function.update (fun _ => fresh) .a
      (fresh.suspend (.hashPayload (js "room") note true))) .a resuming)
    .b answering

private theorem answered_reachable : pair.system.Reachable answered := by
  have started : pair.system.Reachable fun _ => fresh := .start fun _ => rfl
  have hashing := reachable_next started .a
    (.startSend (js "room") note true) stocked trivial rfl
  have queried := reachable_next hashing .a (.settle 0 true) stocked trivial rfl
  have asked : pair.Genuine resuming (.handleQuery (js "room") (js "x")) :=
    fun _ => ⟨0, List.mem_cons_of_mem _ List.mem_cons_self⟩
  exact reachable_next queried .b (.handleQuery (js "room") (js "x")) stocked
    asked rfl

theorem removed_only_stored_answer :
    ∃ s' : Engines, (answered .b).Holds (js "room") (js "x") ∧
      (s' .a).findOut (js "room") (js "x") = none ∧
      js "x" ∉ (s' .a).out.ids (js "room") ∧
      ∃ transfers, (s' .a).log = (answered .a).log ++
        [.persistPending (js "room") ((s' .a).out.ids (js "room")),
          .publish (js "room") transfers,
          .onDelivered (js "room") (js "x")] := by
  have step : pair.system.step answered
      ⟨.a, .handleAck (js "room") answer, stocked⟩
      (Function.update answered .a
        ((answered .a).handleAck stocked (js "room") answer)) :=
    ⟨fun _ => List.mem_cons_of_mem _ List.mem_cons_self, _, rfl, rfl⟩
  exact ⟨_, removed_only_stored answered_reachable step rfl rfl rfl⟩

end Link

end Byteln.Client

import Byteln.Client.Assembly
import Byteln.Client.Link

/-!
# What is delivered, and how often

Two engines of a room in which each id is used for one payload, by one side.
Every chunk of the room is a slice of the payload of its id, so that whatever
is assembled is the payload.  As long as a transfer is not dropped by either
user, it leaves the receiver only once its message is stored, and the receiver
never opens it again.
-/

namespace Byteln.Client

open Byteln.Library

/-- Which side sends which payload under an id. -/
structure Plan where
  sender : JSString → Side
  payload : JSString → OutgoingPayload

/-- The promise of `deliver` resolves for a message. -/
def Call.delivers (bucketId id : JSString) : Call → Bool
  | .delivered b x => b = bucketId && x = id
  | _ => false

theorem Call.delivers_iff {bucketId id : JSString} {call : Call} :
    call.delivers bucketId id = true ↔ call = .delivered bucketId id := by
  cases call <;> simp [Call.delivers]

namespace Plan

variable (plan : Plan) (link : Link)

/-- A section that starts to send in the room follows the plan. -/
def Follows (_ : Engines) (label : Section) : Prop :=
  ∀ payload resume, label.event = .startSend link.bucketId payload resume →
    plan.sender payload.id = label.side ∧ payload = plan.payload payload.id

/-- The chunk carries a slice of the payload of its id. -/
structure Slice (c : TransferChunkPlainMessage Time) : Prop where
  size : c.header.size = (plan.payload c.id).data.length
  total : c.total = transferChunkCount (plan.payload c.id).data.length
  index : c.index < c.total
  data : c.data = slice (plan.payload c.id).data c.index

structure Sends (o : Outgoing) : Prop where
  data : o.data = (plan.payload o.id).data
  size : o.header.size = (plan.payload o.id).data.length
  total : o.total = transferChunkCount (plan.payload o.id).data.length

/-- The transfer expects the payload of its id, and its parts are slices of
it. -/
structure Receives (i : Incoming) : Prop where
  size : i.header.size = (plan.payload i.id).data.length
  total : i.total = transferChunkCount (plan.payload i.id).data.length
  count : i.parts.length = i.total
  parts : ∀ index part, i.parts[index]? = some (some part) →
    part = Client.slice (plan.payload i.id).data index

/-- The engine of a side deals in payloads of the plan only. -/
structure Kept (side : Side) (e : Engine) : Prop where
  hashing : ∀ payload resume,
    .hashPayload link.bucketId payload resume ∈ e.suspended →
    plan.sender payload.id = side ∧ payload = plan.payload payload.id
  outgoing : ∀ o ∈ e.outgoing, o.bucketId = link.bucketId →
    plan.sender o.id = side ∧ plan.Sends o
  sent : ∀ c, .send link.bucketId (.xferChunk c) ∈ e.log →
    plan.sender c.id = side ∧ plan.Slice c
  incoming : ∀ i ∈ e.incoming, i.bucketId = link.bucketId →
    plan.sender i.id = side.other ∧ plan.Receives i
  assembled : ∀ ref data offset, .hashData ref data offset ∈ e.suspended →
    ∃ i, e.incoming[ref]? = some i ∧
      (i.bucketId = link.bucketId → data = (plan.payload i.id).data)
  delivered : ∀ msg, .deliver link.bucketId msg ∈ e.log →
    plan.sender msg.id = side.other ∧ msg.data = (plan.payload msg.id).data

/-- What starts a section on a side fits the plan. -/
structure Fits (side : Side) (event : Event) : Prop where
  starts : ∀ payload resume,
    event = .startSend link.bucketId payload resume →
    plan.sender payload.id = side ∧ payload = plan.payload payload.id
  chunk : ∀ c, event = .handleChunk link.bucketId c →
    plan.sender c.id = side.other ∧ plan.Slice c

variable {plan link} {side : Side}

theorem Sends.same {o o' : Outgoing} (sends : plan.Sends o)
    (same : o.Same o') : plan.Sends o' where
  data := by rw [same.data, same.id, sends.data]
  size := by rw [same.header, same.id, sends.size]
  total := by rw [same.total, same.id, sends.total]

theorem Sends.slice {o : Outgoing} (sends : plan.Sends o) {index : Nat}
    (bound : index < o.total) : plan.Slice (o.chunk index) where
  size := sends.size
  total := sends.total
  index := bound
  data := by
    rw [o.chunk_data index (sends.size.trans (by rw [sends.data])),
      sends.data]
    rfl

theorem Receives.open (now : Time) (bucketId : JSString)
    {c : TransferChunkPlainMessage Time} (slice : plan.Slice c) :
    plan.Receives (.open now bucketId c) where
  size := slice.size
  total := slice.total
  count := by simp [Incoming.open]
  parts := by
    intro index part found
    simp [Incoming.open, List.getElem?_replicate] at found

theorem Receives.refill {turn : Turn} {i i' : Incoming}
    (receives : plan.Receives i) (same : i.Same i')
    (bucket : i.bucketId = link.bucketId)
    (fits : plan.Fits link side turn.event)
    (refills : Refills turn i i'.parts) : plan.Receives i' := by
  have size := same.id ▸ same.header ▸ receives.size
  have total := same.id ▸ same.total ▸ receives.total
  cases refills with
  | unchanged kept =>
      refine ⟨size, total, ?_, ?_⟩
      · rw [kept, same.total, receives.count]
      · rw [kept, same.id]
        exact receives.parts
  | cleared cleared =>
      refine ⟨size, total, ?_, ?_⟩
      · rw [cleared, List.length_map, same.total, receives.count]
      · intro index part found
        rw [cleared, List.getElem?_map] at found
        simp at found
  | @filled bucketId c event sameBucket sameId filled =>
      rw [← sameBucket, bucket] at event
      have slice := (fits.chunk c event).2
      have bound : c.index < i.parts.length := by
        rw [receives.count, receives.total, sameId, ← slice.total]
        exact slice.index
      refine ⟨size, total, ?_, ?_⟩
      · rw [filled, setPart_length _ bound, same.total, receives.count]
      · intro index part found
        rw [filled, getElem?_setPart bound] at found
        rw [same.id]
        split at found
        · rename_i here
          obtain rfl : c.data = part := by simpa using found
          rw [here, sameId, slice.data]
        · exact receives.parts index part found

theorem toStored_id (i : Incoming) (data : Bytes) :
    (i.toStored data).id = i.id :=
  rfl

theorem toStored_data (i : Incoming) (data : Bytes) :
    (i.toStored data).data = data := by
  simp only [Incoming.toStored]
  generalize (if i.header.kind = .image
    then matchesImageMime i.header.mime data else none) = image
  cases image <;> rfl

theorem Kept.initial (limits : TransferLimits) (checksStorage : Bool) :
    plan.Kept link side (.new limits checksStorage) := by
  constructor <;> simp [Engine.new]

theorem Kept.move {turn : Turn} {e e' : Engine}
    (move : Move link.sha256 turn e e') (sound : e.Sound)
    (fits : plan.Fits link side turn.event) (kept : plan.Kept link side e) :
    plan.Kept link side e' where
  hashing := by
    intro payload resume waiting
    rcases move.suspended waiting with before | ⟨suspends, -⟩
    · exact kept.hashing payload resume before
    · cases suspends with
      | hashPayload event => exact fits.starts payload resume event
  outgoing := by
    intro o' member bucket
    rcases move.outgoing sound member with ⟨o, before, same⟩ | opened
    · rw [same.bucketId] at bucket
      rw [same.id]
      obtain ⟨sender, sends⟩ := kept.outgoing o before bucket
      exact ⟨sender, sends.same same⟩
    · obtain ⟨bucketId, payload, resume, waiting, rfl, -⟩ := opened
      obtain rfl : bucketId = link.bucketId := bucket
      obtain ⟨sender, planned⟩ := kept.hashing payload resume waiting
      refine ⟨sender, ?_⟩
      constructor
      · exact congrArg OutgoingPayload.data planned
      · exact congrArg (fun p => p.data.length) planned
      · exact congrArg (fun p => transferChunkCount p.data.length) planned
  sent := by
    intro c sent
    rcases move.mem_log sent with before | records
    · exact kept.sent c before
    · generalize call : Call.send link.bucketId (.xferChunk c) = new at records
      cases records with
      | quiet quiet => simp [← call, Call.quiet] at quiet
      | @chunk o index member queued =>
          obtain ⟨bucket, same⟩ := Call.send.inj call
          obtain rfl := PlainMessage.xferChunk.inj same
          obtain ⟨sender, sends⟩ := kept.outgoing o member bucket.symm
          exact ⟨sender, sends.slice ((sound.outgoing o member).queued _ queued)⟩
      | _ => simp at call
  incoming := by
    intro i' member bucket
    obtain ⟨ref, found'⟩ := List.getElem?_of_mem member
    rcases move.incoming found' with ⟨i, found, same, refills⟩ | opened
    · rw [same.bucketId] at bucket
      obtain ⟨sender, receives⟩ := kept.incoming i
        (List.mem_of_getElem? found) bucket
      rw [same.id]
      exact ⟨sender, receives.refill same bucket fits refills⟩
    · obtain ⟨bucketId, c, event, -, -, -, rfl⟩ := opened
      obtain rfl : bucketId = link.bucketId := bucket
      obtain ⟨sender, slice⟩ := fits.chunk c event
      exact ⟨sender, .open _ _ slice⟩
  assembled := by
    intro ref data offset waiting
    rcases move.suspended waiting with before | ⟨suspends, -⟩
    · obtain ⟨i, found, whole⟩ := kept.assembled ref data offset before
      obtain ⟨i', found', same⟩ := move.incoming_kept found
      exact ⟨i', found', by rwa [same.bucketId, same.id]⟩
    · cases suspends with
      | @hashData _ i _ _ found live filled =>
          obtain ⟨i', found', same⟩ := move.incoming_kept found
          refine ⟨i', found', ?_⟩
          rw [same.bucketId, same.id]
          intro bucket
          obtain ⟨-, receives⟩ := kept.incoming i (List.mem_of_getElem? found)
            bucket
          rw [receives.size] at filled
          exact assemble_slices (receives.count.trans receives.total)
            receives.parts filled
  delivered := by
    intro msg sent
    rcases move.mem_log sent with before | records
    · exact kept.delivered msg before
    · generalize call : Call.deliver link.bucketId msg = new at records
      cases records with
      | quiet quiet => simp [← call, Call.quiet] at quiet
      | @deliver ref i data offset waiting found sha =>
          obtain ⟨bucket, rfl⟩ := Call.deliver.inj call
          obtain ⟨sender, -⟩ := kept.incoming i (List.mem_of_getElem? found)
            bucket.symm
          obtain ⟨i₁, found₁, whole⟩ := kept.assembled ref data offset waiting
          obtain rfl := Option.some.inj (found.symm.trans found₁)
          rw [toStored_data, toStored_id]
          exact ⟨sender, whole bucket.symm⟩
      | _ => simp at call

theorem Kept.moves {turn : Turn} {e e' : Engine}
    (moves : Moves link.sha256 turn e e') (sound : e.Sound)
    (fits : plan.Fits link side turn.event) (kept : plan.Kept link side e) :
    plan.Kept link side e' := by
  induction moves with
  | refl => exact kept
  | tail moves move induction =>
      exact induction.move move (sound.of_moves moves) fits

/-- A chunk from a peer that keeps to the plan fits it. -/
theorem fits_of_genuine {s : Engines} {label : Section}
    (follows : plan.Follows link s label)
    (kept : plan.Kept link label.side.other (s label.side.other))
    (genuine : link.Genuine (s label.side.other) label.event) :
    plan.Fits link label.side label.event where
  starts := follows
  chunk := by
    intro c event
    rw [event] at genuine
    exact kept.sent c (genuine rfl)

/-- Runs that follow the plan keep to it on both sides. -/
theorem kept_of_run {start s : Engines} {trace : List (Engines × Section)}
    (starts : link.system.init start) (run : link.system.Run start trace s)
    (follows : Lts.AllMeet (plan.Follows link) trace) :
    ∀ side, plan.Kept link side (s side) := by
  induction run with
  | refl =>
      intro side
      rw [starts side]
      exact .initial _ _
  | @snoc middle _ trace label run step induction =>
      obtain ⟨earlier, last⟩ := Lts.allMeet_append.mp follows
      have kept := induction earlier
      have ready := Link.ready_of_reachable ⟨_, _, starts, run⟩
      have fits := fits_of_genuine (last (middle, label) List.mem_cons_self)
        (kept label.side.other) step.1
      obtain ⟨moves, same⟩ := Link.step_moves (ready.sound label.side) step
      intro side
      rcases label.side.eq_or_eq_other side with rfl | rfl
      · exact (kept label.side).moves moves (ready.sound label.side) fits
      · exact same ▸ kept label.side.other

/-! ## At most one delivery -/

/-- The room's sender has had the transfer. -/
def Registered (link : Link) (e : Engine) (id : JSString) : Prop :=
  ∃ o ∈ e.outgoing, o.bucketId = link.bucketId ∧ o.id = id

/-- In this section neither user drops the transfer, no storage check fails,
and the receiver has the message if it has been delivered. -/
structure KeepsDelivered (plan : Plan) (link : Link) (id : JSString)
    (s : Engines) (label : Section) : Prop where
  kept : ¬ (Link.turn s label).Abandons link.bucketId id
  stores : ∀ index ref, label.event = .settle index false →
    (s label.side).suspended[index]? ≠ some (.storage ref)
  delivered : label.side = (plan.sender id).other →
    .delivered link.bucketId id ∈ (s label.side).log →
    label.env.hasMessage link.bucketId id = true

/-- Nor does the receiver lose a message it has said it holds. -/
structure Undisturbed (plan : Plan) (link : Link) (id : JSString)
    (s : Engines) (label : Section) : Prop
    extends KeepsDelivered plan link id s label where
  known : label.side = (plan.sender id).other →
    .known link.bucketId id ∈ (s label.side).log →
    label.env.hasMessage link.bucketId id = true

theorem Undisturbed.remembers {id : JSString} {s : Engines} {label : Section}
    (undisturbed : Undisturbed plan link id s label)
    (receives : label.side = (plan.sender id).other)
    (holds : (s label.side).Holds link.bucketId id) :
    label.env.hasMessage link.bucketId id = true :=
  holds.elim (undisturbed.delivered receives) (undisturbed.known receives)

/-- The sender of a transfer and its receiver. -/
structure Once (link : Link) (id : JSString) (e peer : Engine) : Prop where
  asked : ∀ ack, .send link.bucketId (.xferAck ack) ∈ peer.log →
    ack.id = id → ack.resend = true → Registered link e id
  queried : ∀ query, .send link.bucketId (.xferQuery query) ∈ e.log →
    query.id = id → Registered link e id
  chunked : ∀ c, .send link.bucketId (.xferChunk c) ∈ e.log → c.id = id →
    Registered link e id
  received : ∀ i ∈ peer.incoming, i.bucketId = link.bucketId → i.id = id →
    Registered link e id
  listed : Registered link e id →
    e.out.find link.bucketId id ≠ none ∨ peer.Holds link.bucketId id
  cancelled : ∀ msg, .send link.bucketId (.xferCancel msg) ∈ e.log →
    msg.id = id → peer.Holds link.bucketId id
  pending : ∀ ref i task, task ∈ peer.suspended → task.completes ref = true →
    peer.incoming[ref]? = some i → i.bucketId = link.bucketId → i.id = id →
    peer.inc.find link.bucketId id = some ref
  stored : peer.Holds link.bucketId id →
    peer.inc.find link.bucketId id = none
  once : peer.log.countP (Call.delivers link.bucketId id) ≤ 1

theorem Registered.move {turn : Turn} {e e' : Engine} {id : JSString}
    (move : Move link.sha256 turn e e') (sound : e.Sound)
    (registered : Registered link e id) : Registered link e' id := by
  obtain ⟨o, member, bucket, sameId⟩ := registered
  obtain ⟨ref, found⟩ := List.getElem?_of_mem member
  obtain ⟨o', found', same⟩ := move.outgoing_kept sound found
  exact ⟨o', List.mem_of_getElem? found', same.bucketId.trans bucket,
    same.id.trans sameId⟩

/-- A move of the sender. -/
theorem Once.sender {turn : Turn} {e e' peer : Engine} {id : JSString}
    (move : Move link.sha256 turn e e') (sound : e.Sound)
    (held : peer.AcksHeld) (genuine : link.Genuine peer turn.event)
    (undropped : ¬ turn.Abandons link.bucketId id)
    (fits : plan.Fits link (plan.sender id) turn.event)
    (kept : plan.Kept link (plan.sender id) e)
    (once : Once link id e peer) : Once link id e' peer where
  asked := by
    intro ack sent sameId resend
    exact (once.asked ack sent sameId resend).move move sound
  queried := by
    intro query sent sameId
    rcases move.mem_log sent with before | records
    · exact (once.queried query before sameId).move move sound
    · generalize call : Call.send link.bucketId (.xferQuery query) = new
        at records
      cases records with
      | quiet quiet => simp [← call, Call.quiet] at quiet
      | @query o ts member =>
          obtain ⟨bucket, same⟩ := Call.send.inj call
          obtain rfl := PlainMessage.xferQuery.inj same
          exact Registered.move move sound ⟨o, member, bucket.symm, sameId⟩
      | _ => simp at call
  chunked := by
    intro c sent sameId
    rcases move.mem_log sent with before | records
    · exact (once.chunked c before sameId).move move sound
    · generalize call : Call.send link.bucketId (.xferChunk c) = new
        at records
      cases records with
      | quiet quiet => simp [← call, Call.quiet] at quiet
      | @chunk o index member queued =>
          obtain ⟨bucket, same⟩ := Call.send.inj call
          obtain rfl := PlainMessage.xferChunk.inj same
          exact Registered.move move sound ⟨o, member, bucket.symm, sameId⟩
      | _ => simp at call
  received := by
    intro i member bucket sameId
    exact (once.received i member bucket sameId).move move sound
  listed := by
    rintro ⟨o', member, bucket, sameId⟩
    rcases move.outgoing sound member with ⟨o, before, same⟩ | opened
    · have registered : Registered link e id :=
        ⟨o, before, same.bucketId ▸ bucket, same.id ▸ sameId⟩
      rcases once.listed registered with listed | holds
      · rcases move.out _ _ listed with listed' | drops
        · exact .inl listed'
        · right
          rcases drops with dropped | ⟨ack, event, rfl, done⟩
          · exact absurd dropped undropped
          · rw [event] at genuine
            exact held _ ack (genuine rfl) done
      · exact .inr holds
    · obtain ⟨_, _, _, _, _, listed⟩ := opened
      exact .inl (bucket ▸ sameId ▸ listed)
  cancelled := by
    intro msg sent sameId
    rcases move.mem_log sent with before | records
    · exact once.cancelled msg before sameId
    · generalize call : Call.send link.bucketId (.xferCancel msg) = new
        at records
      cases records with
      | quiet quiet => simp [← call, Call.quiet] at quiet
      | @cancel bucketId other reason ts cancels =>
          obtain ⟨rfl, same⟩ := Call.send.inj call
          obtain rfl := PlainMessage.xferCancel.inj same
          obtain rfl : other = id := sameId
          rcases cancels with dropped | asked | chunk | incoming
          · exact absurd (.inl dropped) undropped
          · obtain ⟨ack, event, rfl, resend, missing⟩ := asked
            rw [event] at genuine
            have registered := once.asked ack (genuine rfl) rfl resend
            rcases once.listed registered with listed | holds
            · exact absurd (sound.find_of_findOut_none missing) listed
            · exact holds
          · obtain ⟨c, event, rfl⟩ := chunk
            have receiver := (fits.chunk c event).1
            exact absurd receiver.symm (Side.other_ne _)
          · obtain ⟨i, member, bucket, rfl⟩ := incoming
            have receiver := (kept.incoming i member bucket).1
            exact absurd receiver.symm (Side.other_ne _)
      | _ => simp at call
  pending := once.pending
  stored := once.stored
  once := once.once

/-- The receiver is asked again only about messages it says it holds. -/
def Remembers (link : Link) (id : JSString) (turn : Turn) (e : Engine) :
    Prop :=
  e.Holds link.bucketId id →
    turn.env.hasMessage link.bucketId id = true ∨
      ∃ pos, turn.event = .settle pos true

theorem Remembers.move {turn : Turn} {e e' : Engine} {id : JSString}
    (move : Move link.sha256 turn e e') (sound : e.Sound)
    (remembers : Remembers link id turn e) : Remembers link id turn e' := by
  intro holds
  rcases move.holds sound holds with before | ⟨-, reason⟩
  · exact remembers before
  · exact reason

/-- A function that completes a transfer completes one that is allocated and
marked. -/
theorem completing_of_mem {e : Engine} (sound : e.Sound) {task : Suspended}
    {ref : Ref} (member : task ∈ e.suspended)
    (completes : task.completes ref = true) :
    ∃ i, e.incoming[ref]? = some i ∧ i.completing = true := by
  have counted : 0 < e.suspended.countP (Suspended.completes ref) :=
    List.countP_pos_iff.mpr ⟨task, member, completes⟩
  have bound := sound.completing ref
  split at bound
  · rename_i marked
    obtain ⟨i, found, completing⟩ := (Option.any_eq_true _ _).mp marked
    exact ⟨i, found, completing⟩
  · omega

/-- The entry of a transfer that is being completed stays. -/
theorem Once.pending_kept {turn : Turn} {e peer peer' : Engine}
    {id : JSString} (move : Move link.sha256 turn peer peer')
    (sound : peer.Sound) (genuine : link.Genuine e turn.event)
    (undropped : ¬ turn.Abandons link.bucketId id)
    (stores : ∀ pos ref, turn.event = .settle pos false →
      turn.task ≠ some (.storage ref))
    (once : Once link id e peer) {ref : Ref} {i : Incoming}
    {task : Suspended} (waiting : task ∈ peer.suspended)
    (stays : task ∈ peer'.suspended) (completes : task.completes ref = true)
    (found : peer.incoming[ref]? = some i)
    (bucket : i.bucketId = link.bucketId) (sameId : i.id = id) :
    peer'.inc.find link.bucketId id = some ref := by
  have listed := once.pending ref i task waiting completes found bucket sameId
  rcases move.inc link.bucketId id with same | ⟨-, reason⟩ | opened
  · exact same.trans listed
  · exfalso
    cases reason with
    | @resolved pos ref₁ i₁ resolves erased found₁ bucket₁ id₁ =>
        have listed₁ := once.pending ref₁ i₁ _ (List.mem_of_getElem? resolves)
          (by simp [Suspended.completes]) found₁ bucket₁ id₁
        obtain rfl := Option.some.inj (listed.symm.trans listed₁)
        have counted := countP_eraseIdx resolves (Suspended.completes ref)
        simp only [Suspended.completes, decide_true, if_true] at counted
        have left : 0 < (peer.suspended.eraseIdx pos).countP
            (Suspended.completes ref) :=
          List.countP_pos_iff.mpr ⟨task, erased ▸ stays, completes⟩
        have bound := sound.completing ref
        split at bound <;> omega
    | rejected event continues => exact stores _ _ event continues
    | dropped drops =>
        rcases drops with dropped | ⟨msg, event, msgId⟩ | idle
        · exact undropped dropped
        · rw [event] at genuine
          have holds := once.cancelled msg (genuine rfl) msgId
          rw [once.stored holds] at listed
          simp at listed
        · obtain ⟨ref₁, i₁, found₁, idle, listed₁⟩ := idle
          obtain rfl := Option.some.inj (listed.symm.trans listed₁)
          obtain ⟨i₂, found₂, marked⟩ := completing_of_mem sound waiting
            completes
          obtain rfl := Option.some.inj (found₁.symm.trans found₂)
          simp [idle] at marked
  · obtain ⟨-, -, missing⟩ := opened
    rw [sound.find_of_findIn_none missing] at listed
    simp at listed

/-- A move of the receiver. -/
theorem Once.receiver {turn : Turn} {e peer peer' : Engine} {id : JSString}
    (move : Move link.sha256 turn peer peer') (sound : peer.Sound)
    (genuine : link.Genuine e turn.event)
    (undropped : ¬ turn.Abandons link.bucketId id)
    (stores : ∀ pos ref, turn.event = .settle pos false →
      turn.task ≠ some (.storage ref))
    (remembers : Remembers link id turn peer)
    (once : Once link id e peer) : Once link id e peer' where
  asked := by
    intro ack sent sameId resend
    rcases move.mem_log sent with before | records
    · exact once.asked ack before sameId resend
    · generalize call : Call.send link.bucketId (.xferAck ack) = new
        at records
      cases records with
      | quiet quiet => simp [← call, Call.quiet] at quiet
      | @ack bucketId other haves resend₁ ts reason =>
          obtain ⟨rfl, same⟩ := Call.send.inj call
          obtain rfl := PlainMessage.xferAck.inj same
          obtain rfl : other = id := sameId
          rcases reason with ⟨i, member, bucket, rfl⟩ | event
          · exact once.received i member bucket rfl
          · rw [event] at genuine
            obtain ⟨ts, sent⟩ := genuine rfl
            exact once.queried _ sent rfl
      | ackDone held =>
          obtain ⟨rfl, same⟩ := Call.send.inj call
          obtain rfl := PlainMessage.xferAck.inj same
          simp at resend
      | _ => simp at call
  queried := once.queried
  chunked := once.chunked
  received := by
    intro i' member bucket sameId
    obtain ⟨ref, found'⟩ := List.getElem?_of_mem member
    rcases move.incoming found' with ⟨i, found, same, -⟩ | opened
    · exact once.received i (List.mem_of_getElem? found)
        (same.bucketId ▸ bucket) (same.id ▸ sameId)
    · obtain ⟨bucketId, c, event, -, -, -, rfl⟩ := opened
      obtain rfl : bucketId = link.bucketId := bucket
      rw [event] at genuine
      exact once.chunked c (genuine rfl) sameId
  listed := by
    intro registered
    exact (once.listed registered).imp_right
      fun holds => holds.mono move.log_subset
  cancelled := by
    intro msg sent sameId
    exact (once.cancelled msg sent sameId).mono move.log_subset
  pending := by
    intro ref i' task member completes found' bucket sameId
    rcases move.suspended member with waiting | ⟨suspends, sameRooms⟩
    · obtain ⟨i, found, -⟩ := completing_of_mem sound waiting completes
      obtain ⟨i₁, found₁, same⟩ := move.incoming_kept found
      obtain rfl := Option.some.inj (found'.symm.trans found₁)
      exact once.pending_kept move sound genuine undropped stores waiting
        member completes found (same.bucketId ▸ bucket) (same.id ▸ sameId)
    · have live : ∀ i, peer.incoming[ref]? = some i →
          peer.isLiveIn ref i = true →
          peer'.inc.find link.bucketId id = some ref := by
        intro i found live
        obtain ⟨i₁, found₁, same⟩ := move.incoming_kept found
        obtain rfl := Option.some.inj (found'.symm.trans found₁)
        rw [sameRooms, ← bucket, ← sameId, same.bucketId, same.id]
        simpa [Engine.isLiveIn] using live
      cases suspends with
      | @hashData ref₁ i data offset found listed =>
          obtain rfl : ref₁ = ref := by simpa [Suspended.completes] using completes
          exact live i found listed
      | @deliver ref₁ data offset i waiting found listed =>
          obtain rfl : ref₁ = ref := by simpa [Suspended.completes] using completes
          exact live i found listed
      | _ => simp [Suspended.completes] at completes
  stored := by
    intro holds
    rcases move.holds sound holds with before | ⟨gone, -⟩
    · have missing := once.stored before
      rcases move.inc link.bucketId id with same | ⟨gone, -⟩ | opened
      · exact same.trans missing
      · exact gone
      · obtain ⟨⟨c, event, -⟩, unknown, -⟩ := opened
        rcases remembers before with known | ⟨pos, settles⟩
        · simp [known] at unknown
        · simp [event] at settles
    · exact gone
  once := by
    rcases move.log with same | ⟨call, records, appended⟩
    · rw [same]
      exact once.once
    · rw [appended, List.countP_append, List.countP_singleton]
      split
      · rename_i delivers
        obtain rfl := Call.delivers_iff.mp delivers
        have first : peer.log.countP (Call.delivers link.bucketId id) = 0 := by
          rw [List.countP_eq_zero]
          intro earlier member again
          obtain rfl := Call.delivers_iff.mp again
          have missing := once.stored (.inl member)
          generalize same : Call.delivered link.bucketId id = call at records
          cases records with
          | quiet quiet => simp [← same, Call.quiet] at quiet
          | @delivered pos ref i event waiting found =>
              obtain ⟨bucket, sameId⟩ := Call.delivered.inj same
              have listed := once.pending ref i _ waiting
                (by simp [Suspended.completes]) found bucket.symm sameId.symm
              rw [missing] at listed
              simp at listed
          | _ => simp at same
        rw [first]
      · exact once.once

theorem Once.initial {e peer : Engine} {id : JSString}
    (empty : e.outgoing = []) (silent : e.log = [])
    (peerEmpty : peer.incoming = []) (peerSilent : peer.log = []) :
    Once link id e peer := by
  constructor <;>
    simp [Registered, Engine.Holds, empty, silent, peerEmpty, peerSilent]

theorem Once.sender_moves {turn : Turn} {e e' peer : Engine} {id : JSString}
    (moves : Moves link.sha256 turn e e') (sound : e.Sound)
    (held : peer.AcksHeld) (genuine : link.Genuine peer turn.event)
    (undropped : ¬ turn.Abandons link.bucketId id)
    (fits : plan.Fits link (plan.sender id) turn.event)
    (kept : plan.Kept link (plan.sender id) e)
    (once : Once link id e peer) : Once link id e' peer := by
  induction moves with
  | refl => exact once
  | tail moves move induction =>
      exact induction.sender move (sound.of_moves moves) held genuine undropped
        fits (kept.moves moves sound fits)

theorem Once.receiver_moves {turn : Turn} {e peer peer' : Engine}
    {id : JSString} (moves : Moves link.sha256 turn peer peer')
    (sound : peer.Sound) (genuine : link.Genuine e turn.event)
    (undropped : ¬ turn.Abandons link.bucketId id)
    (stores : ∀ pos ref, turn.event = .settle pos false →
      turn.task ≠ some (.storage ref))
    (remembers : Remembers link id turn peer)
    (once : Once link id e peer) : Once link id e peer' := by
  have both : Once link id e peer' ∧ Remembers link id turn peer' := by
    induction moves with
    | refl => exact ⟨once, remembers⟩
    | tail moves move induction =>
        have sound' := sound.of_moves moves
        exact ⟨induction.1.receiver move sound' genuine undropped stores
          induction.2, induction.2.move move sound'⟩
  exact both.1

theorem Once.step {s s' : Engines} {label : Section} {id : JSString}
    (ready : Link.Ready s) (kept : ∀ side, plan.Kept link side (s side))
    (follows : plan.Follows link s label)
    (undisturbed : Undisturbed plan link id s label)
    (step : link.system.step s label s')
    (once : Once link id (s (plan.sender id)) (s (plan.sender id).other)) :
    Once link id (s' (plan.sender id)) (s' (plan.sender id).other) := by
  obtain ⟨moves, same⟩ := Link.step_moves (ready.sound label.side) step
  have fits := fits_of_genuine follows (kept label.side.other) step.1
  rcases (plan.sender id).eq_or_eq_other label.side with sends | receives
  · rw [sends] at moves same fits
    rw [same]
    have genuine := step.1
    rw [sends] at genuine
    exact once.sender_moves moves (ready.sound _) (ready.acksHeld _) genuine
      undisturbed.kept fits (kept _)
  · have genuine := step.1
    rw [receives, Side.other_other] at genuine same
    rw [receives] at moves
    rw [same]
    refine once.receiver_moves moves (ready.sound _) genuine undisturbed.kept
      ?_ ?_
    · intro pos ref settles continues
      have checking : (s label.side).suspended[pos]? = some (.storage ref) := by
        have event : label.event = .settle pos false := settles
        have task : label.event.task (s label.side) = some (.storage ref) :=
          continues
        rwa [event] at task
      exact undisturbed.stores pos ref settles checking
    · intro holds
      left
      rw [← receives] at holds
      exact undisturbed.remembers receives holds

theorem once_of_run {start s : Engines} {trace : List (Engines × Section)}
    {id : JSString} (starts : link.system.init start)
    (run : link.system.Run start trace s)
    (follows : Lts.AllMeet (plan.Follows link) trace)
    (undisturbed : Lts.AllMeet (Undisturbed plan link id) trace) :
    Once link id (s (plan.sender id)) (s (plan.sender id).other) := by
  induction run with
  | refl =>
      rw [starts, starts]
      exact .initial rfl rfl rfl rfl
  | @snoc middle _ trace label run step induction =>
      obtain ⟨followed, follows⟩ := Lts.allMeet_append.mp follows
      obtain ⟨before, undisturbed⟩ := Lts.allMeet_append.mp undisturbed
      have last := List.mem_singleton_self (middle, label)
      exact (induction followed before).step
        (Link.ready_of_reachable ⟨_, _, starts, run⟩)
        (kept_of_run starts run followed) (follows _ last)
        (undisturbed _ last) step

end Plan

/-- In every run of two engines in which each id is used for one payload: what
is passed to `deliver` under an id is the payload of that id, and as long as
the transfer is not dropped by a user, `deliver` resolves at most once. -/
theorem delivered_intact_once {plan : Plan} {link : Link}
    {start s : Engines} {trace : List (Engines × Section)}
    (starts : link.system.init start) (run : link.system.Run start trace s)
    (follows : Lts.AllMeet (plan.Follows link) trace) :
    (∀ side msg, .deliver link.bucketId msg ∈ (s side).log →
      side = (plan.sender msg.id).other ∧
        msg.data = (plan.payload msg.id).data) ∧
      ∀ id, Lts.AllMeet (plan.Undisturbed link id) trace →
        (s (plan.sender id).other).log.countP
          (Call.delivers link.bucketId id) ≤ 1 := by
  constructor
  · intro side msg sent
    obtain ⟨sender, whole⟩ := (Plan.kept_of_run starts run follows
      side).delivered msg sent
    exact ⟨by rw [sender, Side.other_other], whole⟩
  · intro id undisturbed
    exact (Plan.once_of_run starts run follows undisturbed).once

/-! ## A transfer of one chunk -/

private def hallway : Link where
  sha256 := fun _ => js "digest"
  bucketId := js "room"
  limits := fun _ => DEFAULT_TRANSFER_LIMITS
  checksStorage := fun _ => false

private def leaflet : Plan where
  sender := fun _ => .a
  payload := fun id =>
    { id := id, kind := .file, ts := 0, mime := js "text/plain",
      data := [1, 2, 3], name := some (js "leaflet.txt"), w := none, h := none,
      replyTo := none }

/-- The dependencies before and after the message is stored. -/
private def answers (stored : Bool) : Env where
  now := 0
  canSend := fun _ => true
  hasMessage := fun _ _ => stored

private def idle : Engine :=
  .new DEFAULT_TRANSFER_LIMITS false

private def leafletSent : Engine :=
  idle.register (answers false) (js "digest") (js "room")
    (leaflet.payload (js "x")) false

private def leafletChunk : TransferChunkPlainMessage Time :=
  (Outgoing.open 0 (js "digest") (js "room") (leaflet.payload (js "x"))
    false).chunk 0

private def leafletHashing : Engine :=
  idle.handleChunk (answers false) (js "room") leafletChunk

private def leafletStoring : Engine :=
  (leafletHashing.unsuspend 0).settle hallway.sha256 (answers true) true
    (.hashData 0 [1, 2, 3] 3)

private def leafletStored : Engine :=
  (leafletStoring.unsuspend 0).settle hallway.sha256 (answers true) true
    (.deliver 0)

/-- A run that sends the leaflet, each of its sections under a condition. -/
private def LeafletRun (condition : Engines → Section → Prop) (s : Engines) :
    Prop :=
  ∃ trace, hallway.system.Run (fun _ => idle) trace s ∧
    Lts.AllMeet (leaflet.Follows hallway) trace ∧ Lts.AllMeet condition trace

private theorem LeafletRun.start (condition : Engines → Section → Prop) :
    LeafletRun condition fun _ => idle :=
  ⟨[], .refl _, by simp [Lts.AllMeet], by simp [Lts.AllMeet]⟩

private theorem LeafletRun.next {condition : Engines → Section → Prop}
    {s : Engines} (sent : LeafletRun condition s) (side : Side) (event : Event)
    (env : Env) {e : Engine} (genuine : hallway.Genuine (s side.other) event)
    (stepped : (s side).step hallway.sha256 env event = some e)
    (follows : leaflet.Follows hallway s ⟨side, event, env⟩)
    (meets : condition s ⟨side, event, env⟩) :
    LeafletRun condition (Function.update s side e) := by
  obtain ⟨trace, run, followed, met⟩ := sent
  have step : hallway.system.step s ⟨side, event, env⟩
      (Function.update s side e) := ⟨genuine, e, stepped, rfl⟩
  refine ⟨_, run.snoc step, ?_, ?_⟩
  · exact Lts.allMeet_append.mpr ⟨followed, by simpa [Lts.AllMeet]⟩
  · exact Lts.allMeet_append.mpr ⟨met, by simpa [Lts.AllMeet]⟩

/-- Nobody drops a transfer, and no check fails. -/
private def sparing : Event → Bool
  | .cancel _ _ | .forget _ _ | .clearBucket _ _ | .clearAll
  | .settle _ false => false
  | _ => true

private theorem keepsDelivered_of_sparing {s : Engines} {side : Side}
    {event : Event} {env : Env} (isSparing : sparing event = true)
    (delivered : side = .b → .delivered (js "room") (js "x") ∈ (s side).log →
      env.hasMessage (js "room") (js "x") = true) :
    leaflet.KeepsDelivered hallway (js "x") s ⟨side, event, env⟩ where
  kept := by
    intro abandons
    have dropped : event = .cancel hallway.bucketId (js "x") ∨
        event = .forget hallway.bucketId (js "x") ∨
        (∃ forgetPending, event = .clearBucket hallway.bucketId forgetPending) ∨
        event = .clearAll := abandons
    rcases dropped with rfl | rfl | ⟨_, rfl⟩ | rfl <;> cases isSparing
  stores := by
    intro index ref fails
    have fails : event = .settle index false := fails
    subst fails
    cases isSparing
  delivered := delivered

/-- Nothing is asked of a receiver that holds no message yet. -/
private theorem undisturbed_of_sparing {s : Engines} {side : Side} {event : Event}
    {env : Env} (isSparing : sparing event = true)
    (holds : side = .b → (s side).Holds (js "room") (js "x") →
      env.hasMessage (js "room") (js "x") = true) :
    leaflet.Undisturbed hallway (js "x") s ⟨side, event, env⟩ where
  toKeepsDelivered := keepsDelivered_of_sparing isSparing
    fun receives member => holds receives (.inl member)
  known := fun receives member => holds receives (.inr member)

private def leafletStates : Engines :=
  Function.update (Function.update (Function.update (Function.update
    (Function.update (fun _ => idle) .a (idle.suspend (.hashPayload (js "room")
      (leaflet.payload (js "x")) false))) .a leafletSent) .b leafletHashing)
    .b leafletStoring) .b leafletStored

private theorem leaflet_undisturbed :
    LeafletRun (leaflet.Undisturbed hallway (js "x")) leafletStates := by
  have hashing := (LeafletRun.start (leaflet.Undisturbed hallway (js "x"))).next
    .a (.startSend (js "room") (leaflet.payload (js "x")) false)
    (answers false) trivial rfl (by simp [Plan.Follows, leaflet])
    (undisturbed_of_sparing rfl nofun)
  have sent := hashing.next .a (.settle 0 true) (answers false) trivial rfl
    (by simp [Plan.Follows]) (undisturbed_of_sparing rfl nofun)
  have chunk : hallway.Genuine leafletSent
      (.handleChunk (js "room") leafletChunk) :=
    fun _ => List.mem_cons_of_mem _ List.mem_cons_self
  have assembled := sent.next .b (.handleChunk (js "room") leafletChunk)
    (answers false) chunk rfl (by simp [Plan.Follows])
    (undisturbed_of_sparing rfl (by simp [Engine.Holds, idle, Engine.new]))
  have storing := assembled.next .b (.settle 0 true) (answers true) trivial rfl
    (by simp [Plan.Follows]) (undisturbed_of_sparing rfl fun _ _ => rfl)
  exact storing.next .b (.settle 0 true) (answers true) trivial rfl
    (by simp [Plan.Follows]) (undisturbed_of_sparing rfl fun _ _ => rfl)

theorem delivered_intact_once_leaflet :
    (leafletStates .b).log.countP (Call.delivers (js "room") (js "x")) = 1 ∧
    (∀ side msg, .deliver (js "room") msg ∈ (leafletStates side).log →
      side = (leaflet.sender msg.id).other ∧
        msg.data = (leaflet.payload msg.id).data) ∧
    (leafletStates .b).log.countP (Call.delivers (js "room") (js "x")) ≤ 1 := by
  obtain ⟨trace, run, follows, undisturbed⟩ := leaflet_undisturbed
  obtain ⟨whole, once⟩ := delivered_intact_once (fun _ => rfl) run follows
  exact ⟨rfl, whole, once (js "x") undisturbed⟩

/-! ## A message that is said to be there before it is -/

private def leafletAsk : TransferAckPlainMessage Time where
  ts := 0
  id := js "x"
  haves := []
  resend := true
  done := false

private def leafletDone : TransferAckPlainMessage Time :=
  { leafletAsk with resend := false, done := true }

private def leafletUnavailable : TransferCancelPlainMessage Time where
  ts := 0
  id := js "x"
  reason := some (js "unavailable")

/-- The sender asks what the receiver holds of the leaflet. -/
private def leafletQueried : Engine :=
  idle.register (answers false) (js "digest") (js "room")
    (leaflet.payload (js "x")) true

/-- The receiver asks for all of it, and then says that it is done. -/
private def leafletAnswered : Engine :=
  (idle.handleQuery (answers false) (js "room") (js "x")).handleQuery
    (answers true) (js "room") (js "x")

/-- The sender sends the leaflet, hears that it is done and is asked again. -/
private def leafletDropped : Engine :=
  ((leafletQueried.handleAck (answers false) (js "room") leafletAsk).handleAck
    (answers false) (js "room") leafletDone).handleAck (answers false)
    (js "room") leafletAsk

/-- The receiver is about to store the leaflet when the sender has it no
more. -/
private def leafletCancelled : Engine :=
  (((leafletAnswered.handleChunk (answers false) (js "room")
    leafletChunk).unsuspend 0).settle hallway.sha256 (answers false) true
    (.hashData 0 [1, 2, 3] 3)).handleCancel (js "room") leafletUnavailable

/-- The chunk comes again, and the leaflet is stored twice. -/
private def leafletTwice : Engine :=
  (((((leafletCancelled.handleChunk (answers false) (js "room")
    leafletChunk).unsuspend 1).settle hallway.sha256 (answers false) true
    (.hashData 1 [1, 2, 3] 3)).unsuspend 0).settle hallway.sha256
    (answers true) true (.deliver 0)).unsuspend 0 |>.settle hallway.sha256
    (answers true) true (.deliver 1)

/-- Nothing has been delivered yet. -/
private theorem undelivered {e : Engine} {stored : Bool}
    (none : e.log.countP (Call.delivers (js "room") (js "x")) = 0)
    (member : .delivered (js "room") (js "x") ∈ e.log) :
    (answers stored).hasMessage (js "room") (js "x") = true := by
  have delivers := List.countP_eq_zero.mp none _ member
  simp [Call.delivers] at delivers

private def SentOnce (a b : Engine) : Prop :=
  LeafletRun (leaflet.KeepsDelivered hallway (js "x")) fun
    | .a => a
    | .b => b

private theorem SentOnce.sender {a b a' : Engine} (sent : SentOnce a b)
    (event : Event) (genuine : hallway.Genuine b event)
    (stepped : a.step hallway.sha256 (answers false) event = some a')
    (follows : leaflet.Follows hallway (fun _ => a)
      ⟨.a, event, answers false⟩) (isSparing : sparing event = true) :
    SentOnce a' b := by
  have next := LeafletRun.next sent .a event (answers false) genuine stepped
    follows (keepsDelivered_of_sparing isSparing nofun)
  unfold SentOnce
  convert next using 1
  funext side
  cases side <;> rfl

private theorem SentOnce.receiver {a b b' : Engine} (sent : SentOnce a b)
    (event : Event) (stored : Bool) (genuine : hallway.Genuine a event)
    (stepped : b.step hallway.sha256 (answers stored) event = some b')
    (follows : leaflet.Follows hallway (fun _ => b)
      ⟨.b, event, answers stored⟩) (isSparing : sparing event = true)
    (delivered : .delivered (js "room") (js "x") ∈ b.log →
      (answers stored).hasMessage (js "room") (js "x") = true) :
    SentOnce a b' := by
  have next := LeafletRun.next sent .b event (answers stored) genuine stepped
    follows (keepsDelivered_of_sparing isSparing fun _ => delivered)
  unfold SentOnce
  convert next using 1
  funext side
  cases side <;> rfl

private theorem SentOnce.start : SentOnce idle idle := by
  have start := LeafletRun.start (leaflet.KeepsDelivered hallway (js "x"))
  unfold SentOnce
  convert start using 1
  funext side
  cases side <;> rfl

/-- The sender is told that the leaflet is there, and drops it, before it has
been asked for it the last time. -/
private theorem leafletDropped_sent :
    SentOnce leafletDropped leafletAnswered := by
  have hashing := SentOnce.start.sender
    (.startSend (js "room") (leaflet.payload (js "x")) true) trivial rfl
    (by simp [Plan.Follows, leaflet]) rfl
  have queried : SentOnce leafletQueried idle :=
    hashing.sender (.settle 0 true) trivial rfl (by simp [Plan.Follows]) rfl
  have query : hallway.Genuine leafletQueried
      (.handleQuery (js "room") (js "x")) :=
    fun _ => ⟨0, List.mem_of_getElem? (i := 1) rfl⟩
  have asked := queried.receiver (.handleQuery (js "room") (js "x")) false
    query rfl (by simp [Plan.Follows]) rfl (undelivered rfl)
  have answered : SentOnce leafletQueried leafletAnswered :=
    asked.receiver (.handleQuery (js "room") (js "x")) true query rfl
      (by simp [Plan.Follows]) rfl fun _ => rfl
  have ask : hallway.Genuine leafletAnswered
      (.handleAck (js "room") leafletAsk) :=
    fun _ => List.mem_of_getElem? (i := 0) rfl
  have done : hallway.Genuine leafletAnswered
      (.handleAck (js "room") leafletDone) :=
    fun _ => List.mem_of_getElem? (i := 2) rfl
  have chunked := answered.sender (.handleAck (js "room") leafletAsk) ask rfl
    (by simp [Plan.Follows]) rfl
  have dropped := chunked.sender (.handleAck (js "room") leafletDone) done rfl
    (by simp [Plan.Follows]) rfl
  exact dropped.sender (.handleAck (js "room") leafletAsk) ask rfl
    (by simp [Plan.Follows]) rfl

private theorem leafletTwice_sent : SentOnce leafletDropped leafletTwice := by
  have chunk : hallway.Genuine leafletDropped
      (.handleChunk (js "room") leafletChunk) :=
    fun _ => List.mem_of_getElem? (i := 4) rfl
  have cancel : hallway.Genuine leafletDropped
      (.handleCancel (js "room") leafletUnavailable) :=
    fun _ => List.mem_of_getElem? (i := 8) rfl
  have hashing := leafletDropped_sent.receiver
    (.handleChunk (js "room") leafletChunk) false chunk rfl
    (by simp [Plan.Follows]) rfl (undelivered rfl)
  have storing := hashing.receiver (.settle 0 true) false trivial rfl
    (by simp [Plan.Follows]) rfl (undelivered rfl)
  have cancelled : SentOnce leafletDropped leafletCancelled :=
    storing.receiver (.handleCancel (js "room") leafletUnavailable) false
      cancel rfl (by simp [Plan.Follows]) rfl (undelivered rfl)
  have again := cancelled.receiver (.handleChunk (js "room") leafletChunk)
    false chunk rfl (by simp [Plan.Follows]) rfl (undelivered rfl)
  have storingBoth := again.receiver (.settle 1 true) false trivial rfl
    (by simp [Plan.Follows]) rfl (undelivered rfl)
  have stored := storingBoth.receiver (.settle 0 true) true trivial rfl
    (by simp [Plan.Follows]) rfl fun _ => rfl
  exact stored.receiver (.settle 0 true) true trivial rfl
    (by simp [Plan.Follows]) rfl fun _ => rfl

/-- `hasMessage` is true once the leaflet has been delivered, and `deliver`
resolves twice: it was true for a moment before, and the sender has dropped the
transfer for that. -/
theorem leaflet_delivered_twice :
    ∃ (plan : Plan) (link : Link) (id : JSString) (start s : Engines)
      (trace : List (Engines × Section)),
      link.system.init start ∧ link.system.Run start trace s ∧
      Lts.AllMeet (plan.Follows link) trace ∧
      Lts.AllMeet (plan.KeepsDelivered link id) trace ∧
      (s (plan.sender id).other).log.countP
        (Call.delivers link.bucketId id) = 2 := by
  obtain ⟨trace, run, follows, keeps⟩ := leafletTwice_sent
  exact ⟨leaflet, hallway, js "x", _, _, trace, fun _ => rfl, run, follows,
    keeps, rfl⟩

end Byteln.Client

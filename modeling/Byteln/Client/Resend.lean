import Byteln.Client.TransferTurns

/-!
# What a resend ack asks for

An ack with `resend` should put every chunk the receiver does not hold back on
the sender's schedule.  `handleAck` leaves out the chunks of all earlier acks,
so a chunk that the receiver has lost since is not sent again.
-/

namespace Byteln.Client

open Byteln.Library

namespace Engine

/-- The chunk is queued, in flight, or being sent by the pump. -/
def Scheduled (s : Engine) (ref : Ref) (o : Outgoing) (index : Nat) : Prop :=
  index ∈ o.queue ∨ o.inFlight.contains index = true ∨
    .send ref index ∈ s.suspended

variable {s : Engine}

/-- What the pump does to the schedule of its transfer. -/
structure PumpedTo (s : Engine) (ref : Ref) (o : Outgoing) (s' : Engine)
    (o' : Outgoing) : Prop where
  out : s'.out = s.out
  allocated : s'.outgoing[ref]? = some o'
  total : o'.total = o.total
  acked : o'.acked = o.acked
  inFlight : o'.inFlight = o.inFlight
  queued : ∀ index ∈ o'.queue, index ∈ o.queue
  sending : ∀ index, .send ref index ∈ s'.suspended →
    .send ref index ∈ s.suspended ∨ index ∈ o.queue
  stillSending : ∀ task ∈ s.suspended, task ∈ s'.suspended
  kept : ∀ index ∈ o.queue, index ∉ o.acked →
    o.inFlight.contains index = false →
    index ∈ o'.queue ∨ .send ref index ∈ s'.suspended

theorem pump_pumpedTo (env : Env) {ref : Ref} {o : Outgoing}
    (found : s.outgoing[ref]? = some o) :
    ∃ o', s.PumpedTo ref o (s.pump env ref) o' := by
  unfold pump
  rw [found]
  simp only
  split
  · exact ⟨o, rfl, found, rfl, rfl, rfl, fun _ member => member,
      fun _ member => .inl member, fun _ member => member,
      fun _ member _ _ => .inl member⟩
  · have pumped := ({ o with pumping := true } : Outgoing).pumpLoop_pumped
      s.limits.window (s.isLiveOut ref { o with pumping := true })
      (env.canSend o.bucketId) o.queue
    unfold pumpOn
    simp only
    split
    · rename_i o₁ index result
      rw [result] at pumped
      obtain ⟨-, -, -, -, total, acked, inFlight⟩ := pumped.identity
      refine ⟨o₁, rfl, ?_, total, acked, inFlight, pumped.queued, ?_, ?_, ?_⟩
      · simp [suspend, record, setOut, getElem?_set_of_some found]
      · intro i member
        rcases List.mem_append.mp member with before | new
        · exact .inl before
        · obtain ⟨-, rfl⟩ := Suspended.send.inj (List.mem_singleton.mp new)
          exact .inr (pumped.chosen i rfl).1
      · exact fun task member => List.mem_append_left _ member
      · intro i member notAcked notInFlight
        rcases pumped.kept i member notAcked notInFlight with queued | chosen
        · exact .inl queued
        · obtain rfl := Option.some.inj chosen
          exact .inr (List.mem_append_right _ List.mem_cons_self)
    · rename_i o₁ result
      rw [result] at pumped
      obtain ⟨-, -, -, -, total, acked, inFlight⟩ := pumped.identity
      refine ⟨{ o₁ with pumping := false }, rfl, ?_, total, acked, inFlight,
        pumped.queued, fun _ member => .inl member, fun _ member => member, ?_⟩
      · simp [publish, record, setOut, getElem?_set_of_some found]
      · intro i member notAcked notInFlight
        rcases pumped.kept i member notAcked notInFlight with queued | chosen
        · exact .inl queued
        · exact absurd chosen (by simp)

/-- The chunks an ack newly reports and those of earlier acks are acked. -/
theorem mem_applyAck_acked (env : Env) (stallMs : Time)
    (ack : TransferAckPlainMessage Time) (o : Outgoing) (index : Nat) :
    index ∈ (applyAck env stallMs ack o).acked ↔
      index ∈ o.acked ∨ index ∈ ack.haves ∧ index < o.total := by
  unfold applyAck
  simp only
  split <;> simp

/-- A resend ack queues what is neither acked nor in flight. -/
theorem mem_applyAck_queue (env : Env) (stallMs : Time)
    {ack : TransferAckPlainMessage Time} (resend : ack.resend = true)
    (o : Outgoing) (index : Nat) :
    index ∈ (applyAck env stallMs ack o).queue ↔
      index < o.total ∧ index ∉ (applyAck env stallMs ack o).acked ∧
        (applyAck env stallMs ack o).inFlight.contains index = false := by
  unfold applyAck
  simp only [resend, if_true, List.mem_filter, List.mem_range,
    Bool.not_eq_true, Bool.decide_and, Bool.and_eq_true, decide_eq_true_eq]

/-- A live transfer after an ack that is not `done`: the ack is applied, then
the pump runs. -/
theorem handleAck_pumpedTo (env : Env) {bucketId : JSString}
    {ack : TransferAckPlainMessage Time} {ref : Ref} {o : Outgoing}
    (found : s.findOut bucketId ack.id = some (ref, o))
    (notDone : ack.done = false) :
    ∃ (s₁ : Engine) (o' : Outgoing), s₁.suspended = s.suspended ∧
      (s.handleAck env bucketId ack).findOut bucketId ack.id =
        some (ref, o') ∧
      s₁.PumpedTo ref (applyAck env s.limits.stallMs ack o)
        (s.handleAck env bucketId ack) o' := by
  obtain ⟨listed, allocated⟩ := findOut_eq_some_iff.mp found
  set o₁ := applyAck env s.limits.stallMs ack o
  have found₁ : ((s.setOut ref o₁).publish bucketId).outgoing[ref]? =
      some o₁ := by
    simp [publish, record, setOut, getElem?_set_of_some allocated]
  obtain ⟨o', pumped⟩ := pump_pumpedTo env found₁
  have handled : s.handleAck env bucketId ack =
      ((s.setOut ref o₁).publish bucketId).pump env ref := by
    simp [handleAck, found, notDone, o₁]
  rw [handled]
  refine ⟨(s.setOut ref o₁).publish bucketId, o', rfl, ?_, pumped⟩
  rw [findOut_eq_some_iff, pumped.out]
  exact ⟨listed, pumped.allocated⟩

/-- After a resend ack everything the receiver lacks is scheduled if and only
if it still holds what earlier acks reported, up to a chunk on its way out. -/
theorem resend_scheduled_iff (env : Env) {bucketId : JSString}
    {ack : TransferAckPlainMessage Time} {ref : Ref} {o : Outgoing}
    (sound : s.Sound) (found : s.findOut bucketId ack.id = some (ref, o))
    (resend : ack.resend = true) (notDone : ack.done = false) :
    ∃ o', (s.handleAck env bucketId ack).findOut bucketId ack.id =
        some (ref, o') ∧ o'.total = o.total ∧
      ((∀ index < o.total, index ∉ ack.haves →
          (s.handleAck env bucketId ack).Scheduled ref o' index) ↔
        ∀ index < o.total, index ∈ o.acked →
          index ∈ ack.haves ∨ .send ref index ∈ s.suspended) := by
  obtain ⟨s₁, o', sameTasks, found', pumped⟩ :=
    handleAck_pumpedTo env found notDone
  have adjusts := applyAck_adjusts env s.limits.stallMs ack o
  have wellFormed : (applyAck env s.limits.stallMs ack o).WellFormed := by
    apply adjusts.wellFormed
    exact sound.outgoing o (List.mem_of_getElem? (sound.findOut found).2.1)
  have stillSending : ∀ index, .send ref index ∈ s.suspended →
      .send ref index ∈ (s.handleAck env bucketId ack).suspended := by
    intro index sending
    rw [← sameTasks] at sending
    exact pumped.stillSending _ sending
  refine ⟨o', found', pumped.total.trans adjusts.total, ?_⟩
  constructor
  · intro scheduled index bound acked
    by_contra missing
    simp only [not_or] at missing
    have acked' := (mem_applyAck_acked env s.limits.stallMs ack o index).mpr
      (.inl acked)
    rcases scheduled index bound missing.1 with queued | inFlight | sending
    · have queued' := pumped.queued index queued
      rw [mem_applyAck_queue env _ resend] at queued'
      exact queued'.2.1 acked'
    · rw [pumped.inFlight, wellFormed.apart index acked'] at inFlight
      exact Bool.false_ne_true inFlight
    · rcases pumped.sending index sending with before | queued
      · exact missing.2 (sameTasks ▸ before)
      · rw [mem_applyAck_queue env _ resend] at queued
        exact queued.2.1 acked'
  · intro held index bound lacking
    by_cases acked : index ∈ o.acked
    · rcases held index bound acked with reported | sending
      · exact absurd reported lacking
      · exact .inr (.inr (stillSending index sending))
    · have notAcked : index ∉ (applyAck env s.limits.stallMs ack o).acked := by
        rw [mem_applyAck_acked]
        simp [acked, lacking]
      cases inFlight : (applyAck env s.limits.stallMs ack
          o).inFlight.contains index with
      | true =>
          right
          left
          rw [pumped.inFlight]
          exact inFlight
      | false =>
          have queued := (mem_applyAck_queue env s.limits.stallMs resend o
            index).mpr ⟨bound, notAcked, inFlight⟩
          rcases pumped.kept index queued notAcked inFlight with
            stays | sending
          · exact .inl stays
          · exact .inr (.inr sending)

/-- In every state an engine can reach, a resend ack asks for everything the
receiver does not hold if and only if the receiver still holds every chunk it
has acked before, except one that the pump is sending again. -/
theorem resend_asks_for_missing {sha256 : Bytes → JSString}
    {limits : TransferLimits} {checksStorage : Bool}
    (reachable : (Engine.system sha256 limits checksStorage).Reachable s)
    (env : Env) {bucketId : JSString} {ack : TransferAckPlainMessage Time}
    {ref : Ref} {o : Outgoing}
    (found : s.findOut bucketId ack.id = some (ref, o))
    (resend : ack.resend = true) (notDone : ack.done = false) :
    ∃ o', (s.handleAck env bucketId ack).findOut bucketId ack.id =
        some (ref, o') ∧ o'.total = o.total ∧
      ((∀ index < o.total, index ∉ ack.haves →
          (s.handleAck env bucketId ack).Scheduled ref o' index) ↔
        ∀ index < o.total, index ∈ o.acked →
          index ∈ ack.haves ∨ .send ref index ∈ s.suspended) := by
  have sound := sound_of_reachable reachable
  exact resend_scheduled_iff env sound found resend notDone

/-! ## A resumed transfer of two chunks -/

private def room : JSString := js "room"

private def twoChunks : OutgoingPayload where
  id := js "x"
  kind := .file
  ts := 0
  mime := js "application/pdf"
  data := List.replicate (TRANSFER_CHUNK_BYTES + 1) 0
  name := some (js "doc.pdf")
  w := none
  h := none
  replyTo := none

private def online : Env where
  now := 0
  canSend := fun _ => true
  hasMessage := fun _ _ => false

private def digest : Bytes → JSString :=
  fun _ => js "digest"

/-- A receiver that holds these chunks asks for the others. -/
private def asking (haves : List Nat) : TransferAckPlainMessage Time where
  ts := 0
  id := js "x"
  haves := haves
  resend := true
  done := false

/-- The sender after it has reloaded and asked what the receiver holds. -/
private def resumed : Engine :=
  (Engine.new DEFAULT_TRANSFER_LIMITS false).register online
    (digest twoChunks.data) room twoChunks true

private theorem resumed_reachable :
    (Engine.system digest DEFAULT_TRANSFER_LIMITS false).Reachable resumed := by
  have started : (Engine.system digest DEFAULT_TRANSFER_LIMITS false).Reachable
      (Engine.new DEFAULT_TRANSFER_LIMITS false) := .start rfl
  have small : ¬ twoChunks.data.length > MAX_TRANSFER_BYTES := by
    rw [twoChunks, List.length_replicate]
    decide
  have hashing : (Engine.new DEFAULT_TRANSFER_LIMITS false).step digest online
      (.startSend room twoChunks true) =
      some ((Engine.new DEFAULT_TRANSFER_LIMITS false).suspend
        (.hashPayload room twoChunks true)) := by
    simp [step, startSend, small, Engine.new]
  have queried : ((Engine.new DEFAULT_TRANSFER_LIMITS false).suspend
      (.hashPayload room twoChunks true)).step digest online (.settle 0 true) =
      some resumed := rfl
  exact reachable_step (reachable_step started hashing) queried

private theorem resumed_lists :
    resumed.suspended = [] ∧ ∃ o : Outgoing,
      resumed.findOut room (js "x") = some (0, o) ∧ o.total = 2 := by
  have total : transferChunkCount twoChunks.data.length = 2 := by
    rw [twoChunks, List.length_replicate]
    decide
  refine ⟨rfl, { Outgoing.open 0 (digest twoChunks.data) room twoChunks true
    with lastActivityAt := 0 }, ?_, total⟩
  rw [findOut_eq_some_iff]
  exact ⟨by decide, rfl⟩

theorem resend_asks_for_missing_resumed :
    ∃ o o' : Outgoing,
      (resumed.handleAck online room (asking [])).findOut room (js "x") =
        some (0, o') ∧ o'.total = o.total ∧
      ((∀ index < o.total, index ∉ (asking []).haves →
          (resumed.handleAck online room (asking [])).Scheduled 0 o' index) ↔
        ∀ index < o.total, index ∈ o.acked →
          index ∈ (asking []).haves ∨ .send 0 index ∈ resumed.suspended) := by
  obtain ⟨_, o, found, _⟩ := resumed_lists
  exact ⟨o, resend_asks_for_missing resumed_reachable online found rfl rfl⟩

/-- The receiver reports chunk 0, reloads, and asks for everything: chunk 0
is not sent again. -/
theorem lost_chunk_not_resent :
    ∃ (s : Engine) (o o' : Outgoing),
      (Engine.system digest DEFAULT_TRANSFER_LIMITS false).Reachable s ∧
      s.findOut room (js "x") = some (0, o) ∧ o.total = 2 ∧
      (s.handleAck online room (asking [])).findOut room (js "x") =
        some (0, o') ∧
      ¬ ∀ index < o.total, index ∉ (asking []).haves →
        (s.handleAck online room (asking [])).Scheduled 0 o' index := by
  obtain ⟨noTasks, o, found, total⟩ := resumed_lists
  obtain ⟨s₁, o₁, sameTasks, found₁, pumped⟩ : ∃ (s₁ : Engine) (o₁ : Outgoing),
      s₁.suspended = resumed.suspended ∧
      (resumed.handleAck online room (asking [0])).findOut room (js "x") =
        some (0, o₁) ∧
      s₁.PumpedTo 0 (applyAck online resumed.limits.stallMs (asking [0]) o)
        (resumed.handleAck online room (asking [0])) o₁ :=
    handleAck_pumpedTo online found rfl
  have handled : resumed.step digest online (.handleAck room (asking [0])) =
      some (resumed.handleAck online room (asking [0])) := rfl
  have reachable := reachable_step resumed_reachable handled
  have acked : 0 ∈ (applyAck online resumed.limits.stallMs (asking [0])
      o).acked := by
    rw [mem_applyAck_acked, total]
    exact .inr (by decide)
  obtain ⟨o', found', -, scheduled⟩ := @resend_scheduled_iff _ online room
    (asking []) 0 o₁ (sound_of_reachable reachable) found₁ rfl rfl
  have total₁ : o₁.total = 2 :=
    (pumped.total.trans (applyAck_adjusts _ _ _ _).total).trans total
  refine ⟨_, o₁, o', reachable, found₁, total₁, found', ?_⟩
  rw [scheduled]
  intro held
  rcases held 0 (by omega) (by rwa [pumped.acked]) with reported | sending
  · exact absurd reported (by decide)
  · rcases pumped.sending 0 sending with before | queued
    · rw [sameTasks, noTasks] at before
      exact absurd before (by simp)
    · rw [mem_applyAck_queue online _ rfl] at queued
      exact queued.2.1 acked

end Engine

end Byteln.Client

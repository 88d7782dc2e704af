import Byteln.Client.Assembly
import Byteln.Client.Link
import Byteln.Client.Window

/-!
# Cancelled transfers

A sender that has been told of a cancel keeps the transfer as failed, with an
empty queue.  Disconnects, reconnects, queries, ticks, retries and reloads all
leave that queue empty; an ack that asks for chunks it lacks, a chunk on its
way that could not be sent after all and a new send fill it again
(`Event.Revives`).  A receiver that has cancelled may open the transfer anew for
a chunk that was still in flight, but as long as one part is missing it is not
assembled, so that nothing is delivered.
-/

namespace Byteln.Client

open Byteln.Library

namespace Engine

/-! ## A sender with nothing to send -/

/-- Nothing of the transfer waits to be sent. -/
def Rests (s : Engine) (bucketId id : JSString) : Prop :=
  ∀ ref o, s.findOut bucketId id = some (ref, o) → o.queue = []

/-- The chunks of a transfer that have been sent. -/
def chunksSent (s : Engine) (bucketId id : JSString) :
    List (JSString × TransferChunkPlainMessage Time) :=
  s.sending.chunks.filter fun sent => sent.1 = bucketId ∧ sent.2.id = id

/-- While nothing of the transfer waits, nothing of it is queued or sent. -/
def Leaves (bucketId id : JSString) (s s' : Engine) : Prop :=
  s.Rests bucketId id →
    s'.Rests bucketId id ∧ s'.chunksSent bucketId id = s.chunksSent bucketId id

namespace Leaves

variable {bucketId id : JSString} {s s' : Engine}

theorem refl (s : Engine) : s.Leaves bucketId id s :=
  fun rests => ⟨rests, rfl⟩

theorem trans {s₁ s₂ s₃ : Engine} (first : Leaves bucketId id s₁ s₂)
    (second : Leaves bucketId id s₂ s₃) : Leaves bucketId id s₁ s₃ := by
  intro rests
  obtain ⟨rests₂, sent₂⟩ := first rests
  obtain ⟨rests₃, sent₃⟩ := second rests₂
  exact ⟨rests₃, sent₃.trans sent₂⟩

/-- No transfer changes and no chunk is sent; transfers may leave their
room. -/
theorem of_kept (outgoing : s'.outgoing = s.outgoing)
    (chunks : s'.sending.chunks = s.sending.chunks)
    (out : ∀ ref, s'.out.find bucketId id = some ref →
      s.out.find bucketId id = some ref) : Leaves bucketId id s s' := by
  intro rests
  refine ⟨fun ref o found => ?_, ?_⟩
  · obtain ⟨listed, allocated⟩ := findOut_eq_some_iff.mp found
    rw [outgoing] at allocated
    exact rests ref o (findOut_eq_some_iff.mpr ⟨out ref listed, allocated⟩)
  · unfold chunksSent
    rw [chunks]

theorem of_sending (same : s'.sending = s.sending)
    (out : ∀ ref, s'.out.find bucketId id = some ref →
      s.out.find bucketId id = some ref) : Leaves bucketId id s s' :=
  .of_kept (congrArg Sending.outgoing same) (congrArg Sending.chunks same) out

theorem of_same (same : s'.sending = s.sending) (out : s'.out = s.out) :
    Leaves bucketId id s s' := by
  apply of_sending same
  rw [out]
  exact fun _ listed => listed

/-- A transfer changes; if it is the one, its queue stays empty. -/
theorem setOut {ref : Ref} {o o' : Outgoing}
    (found : s.outgoing[ref]? = some o)
    (queue : s.out.find bucketId id = some ref → o.queue = [] →
      o'.queue = []) : Leaves bucketId id s (s.setOut ref o') := by
  intro rests
  refine ⟨fun other o₁ found' => ?_, rfl⟩
  obtain ⟨listed, allocated⟩ := findOut_eq_some_iff.mp found'
  simp only [Engine.setOut, getElem?_set_of_some found] at allocated listed
  split at allocated
  · rename_i here
    subst here
    obtain rfl := Option.some.inj allocated
    apply queue listed
    exact rests other o (findOut_eq_some_iff.mpr ⟨listed, found⟩)
  · exact rests other o₁ (findOut_eq_some_iff.mpr ⟨listed, allocated⟩)

/-- A transfer is listed; if it is the one, its queue is empty. -/
theorem addOut (sound : s.Sound) {o : Outgoing}
    (queue : o.bucketId = bucketId → o.id = id → o.queue = []) :
    Leaves bucketId id s (s.addOut o) := by
  intro rests
  refine ⟨fun ref o' found => ?_, rfl⟩
  obtain ⟨listed, allocated⟩ := findOut_eq_some_iff.mp found
  simp only [Engine.addOut, Rooms.find_put] at listed allocated
  split at listed
  · rename_i here
    obtain rfl := Option.some.inj listed
    rw [List.getElem?_concat_length, Option.some.injEq] at allocated
    subst allocated
    exact queue here.1.symm here.2.symm
  · obtain ⟨o₁, found₁, -⟩ := sound.outKeys _ _ _ listed
    have inBounds := (List.getElem?_eq_some_iff.mp found₁).1
    rw [List.getElem?_append_left inBounds] at allocated
    exact rests ref o' (findOut_eq_some_iff.mpr ⟨listed, allocated⟩)

theorem publish (leaves : Leaves bucketId id s s') (room : JSString) :
    Leaves bucketId id s (s'.publish room) :=
  leaves.trans (.of_same (sending_publish room) rfl)

/-- A pump works on a transfer it has been entered for. -/
theorem pumpOn {env : Env} {ref : Ref} {o o' : Outgoing}
    (found : s.outgoing[ref]? = some o)
    (queue : s.out.find bucketId id = some ref → o.queue = [] →
      o'.queue = []) : Leaves bucketId id s (s.pumpOn env ref o') := by
  intro rests
  have pumped := o'.pumpLoop_pumped s.limits.window (s.isLiveOut ref o')
    (env.canSend o'.bucketId) o'.queue
  have empty : s.out.find bucketId id = some ref → o'.queue = [] := by
    intro listed
    exact queue listed (rests ref o (findOut_eq_some_iff.mpr ⟨listed, found⟩))
  unfold Engine.pumpOn
  split
  · rename_i o₁ index result
    rw [result] at pumped
    have chosen := (pumped.chosen index rfl).1
    have unlisted : s.out.find bucketId id ≠ some ref := by
      intro listed
      rw [empty listed] at chosen
      simp at chosen
    have set : Leaves bucketId id s (s.setOut ref o₁) :=
      .setOut found fun listed => absurd listed unlisted
    obtain ⟨rests₁, sent₁⟩ := set rests
    refine ⟨rests₁, ?_⟩
    have live := (Outgoing.pumpLoop_sends result).1
    rw [isLiveOut, decide_eq_true_eq] at live
    have identity := pumped.identity
    have other : ¬ (o₁.bucketId = bucketId ∧ (o₁.chunk index).id = id) := by
      rintro ⟨sameBucket, sameId⟩
      apply unlisted
      rw [← sameBucket, ← sameId]
      have kept : (o₁.chunk index).id = o'.id := identity.2.1
      rw [kept, identity.1]
      exact live
    rw [← sent₁]
    unfold chunksSent
    rw [sending_launch]
    simp [Sending.launch, List.filter_append, other]
  · rename_i o₁ result
    rw [result] at pumped
    refine publish (.setOut found fun listed _ => ?_) _ rests
    have none : ∀ index ∈ o₁.queue, index ∈ o'.queue := pumped.queued
    rw [empty listed] at none
    exact List.eq_nil_iff_forall_not_mem.mpr fun index member =>
      List.not_mem_nil (none index member)

theorem pump (env : Env) (ref : Ref) :
    Leaves bucketId id s (s.pump env ref) := by
  unfold Engine.pump
  split
  · exact .refl s
  · rename_i o found
    split
    · exact .refl s
    · exact .pumpOn found fun _ empty => empty

theorem query {env : Env} {ref : Ref} {o o' : Outgoing}
    (found : s.outgoing[ref]? = some o) (queue : o'.queue = o.queue) :
    Leaves bucketId id s (s.query env ref o') := by
  unfold Engine.query
  dsimp only
  split
  · refine trans (.setOut found ?_) (.of_same (sending_record rfl) rfl)
    exact fun _ empty => queue.trans empty
  · exact .setOut found fun _ empty => queue.trans empty

end Leaves

/-! ### The sections of the sender -/

section

variable {bucketId id : JSString} {s s' : Engine} {env : Env}

theorem eachOut_leaves {visit : Ref → Outgoing → Engine → Engine}
    (visits : ∀ {s : Engine} {ref : Ref} {o : Outgoing},
      s.outgoing[ref]? = some o → Leaves bucketId id s (visit ref o s))
    (refs : List Ref) : Leaves bucketId id s (s.eachOut refs visit) :=
  eachOut_rule (P := Leaves bucketId id s)
    (fun before found => before.trans (visits found)) refs (.refl s)

theorem eachIn_leaves {visit : Ref → Incoming → Engine → Engine}
    (visits : ∀ {s : Engine} {ref : Ref} {i : Incoming},
      Leaves bucketId id s (visit ref i s))
    (refs : List Ref) : Leaves bucketId id s (s.eachIn refs visit) :=
  eachIn_rule (P := Leaves bucketId id s)
    (fun before _ => before.trans visits) refs (.refl s)

theorem onConnected_leaves (room : JSString) :
    Leaves bucketId id s (s.onConnected env room) := by
  unfold onConnected
  refine Leaves.publish (Leaves.trans (eachOut_leaves ?_ _)
    (eachIn_leaves ?_ _)) room
  · intro s ref o found
    exact .query found rfl
  · intro s ref i
    split
    · exact .refl s
    · dsimp only
      split
      · exact .of_same (sending_sendAck _ _ _) rfl
      · exact .of_same rfl rfl

theorem onDisconnected_leaves (room : JSString) :
    Leaves bucketId id s (s.onDisconnected room) := by
  unfold onDisconnected
  refine Leaves.publish (Leaves.trans (eachOut_leaves ?_ _)
    (eachIn_leaves ?_ _)) room
  · intro s ref o found
    split
    · exact .refl s
    · exact .setOut found fun _ empty => empty
  · intro s ref i
    split
    · exact .refl s
    · exact .of_same rfl rfl

theorem retry_leaves (room other : JSString) :
    Leaves bucketId id s (s.retry env room other) := by
  unfold retry
  refine Leaves.publish (Leaves.trans ?_ (.of_same sending_ensureTimer rfl))
    room
  dsimp only
  cases listed : s.findOut room other with
  | none =>
      dsimp only
      split
      · exact .refl s
      · split
        · exact .refl s
        · exact .of_same (sending_sendAck _ _ _) rfl
  | some pair =>
      have queried : Leaves bucketId id s (s.query env pair.1 { pair.2 with
          attempts := 0, status := .active, detail := none,
          inFlight := .empty }) :=
        .query (findOut_eq_some_iff.mp listed).2 rfl
      dsimp only
      split
      · exact queried
      · split
        · exact queried
        · exact queried.trans (.of_same (sending_sendAck _ _ _) rfl)

/-- The transfer a cancel leaves. -/
def cancelled (msg : TransferCancelPlainMessage Time) (o : Outgoing) :
    Outgoing :=
  { o with
    status := .failed, detail := some (cancelDetail msg.reason),
    inFlight := .empty, queue := [] }

theorem handleCancel_found {room : JSString}
    {msg : TransferCancelPlainMessage Time} {ref : Ref} {o : Outgoing}
    (found : s.findOut room msg.id = some (ref, o)) :
    (s.handleCancel room msg).sending =
        (s.setOut ref (cancelled msg o)).sending ∧
      (s.handleCancel room msg).out = s.out := by
  unfold handleCancel
  rw [found]
  cases s.findIn room msg.id with
  | none => exact ⟨sending_publish room, rfl⟩
  | some pair =>
      refine ⟨?_, out_stopTimerIfIdle⟩
      exact (sending_publish room).trans (sending_deleteIn pair.2)

theorem handleCancel_unknown {room : JSString}
    {msg : TransferCancelPlainMessage Time}
    (unknown : s.findOut room msg.id = none) :
    (s.handleCancel room msg).sending = s.sending ∧
      (s.handleCancel room msg).out = s.out := by
  unfold handleCancel
  rw [unknown]
  cases s.findIn room msg.id with
  | none => exact ⟨rfl, rfl⟩
  | some pair =>
      refine ⟨?_, out_stopTimerIfIdle⟩
      exact (sending_publish room).trans (sending_deleteIn pair.2)

/-- A cancel empties the queue of its transfer. -/
theorem rests_handleCancel (msg : TransferCancelPlainMessage Time) :
    (s.handleCancel bucketId msg).Rests bucketId msg.id := by
  intro ref o found
  obtain ⟨listed, allocated⟩ := findOut_eq_some_iff.mp found
  cases before : s.findOut bucketId msg.id with
  | none =>
      obtain ⟨sending, out⟩ := handleCancel_unknown before
      have outgoing := congrArg Sending.outgoing sending
      change (s.handleCancel bucketId msg).outgoing = s.outgoing at outgoing
      rw [out] at listed
      rw [outgoing] at allocated
      have still := findOut_eq_some_iff.mpr ⟨listed, allocated⟩
      rw [before] at still
      simp at still
  | some pair =>
      obtain ⟨sending, out⟩ := handleCancel_found before
      have outgoing := congrArg Sending.outgoing sending
      obtain ⟨listed₁, found₁⟩ := findOut_eq_some_iff.mp before
      obtain rfl := Option.some.inj (listed₁.symm.trans (out ▸ listed))
      change (s.handleCancel bucketId msg).outgoing =
        s.outgoing.set pair.1 _ at outgoing
      rw [outgoing, getElem?_set_of_some found₁, if_pos rfl] at allocated
      rw [← Option.some.inj allocated]
      rfl

theorem handleCancel_leaves (room : JSString)
    (msg : TransferCancelPlainMessage Time) :
    Leaves bucketId id s (s.handleCancel room msg) := by
  cases before : s.findOut room msg.id with
  | none =>
      obtain ⟨sending, out⟩ := handleCancel_unknown before
      exact .of_same sending out
  | some pair =>
      obtain ⟨sending, out⟩ := handleCancel_found before
      have found := (findOut_eq_some_iff.mp before).2
      have fails : Leaves bucketId id s
          (s.setOut pair.1 (cancelled msg pair.2)) :=
        .setOut found fun _ _ => rfl
      exact fails.trans (.of_same sending out)

/-! ### Acks -/

/-- An ack asks for a chunk again that is neither acked nor on its way. -/
def AsksFor (env : Env) (stallMs : Time) (o : Outgoing)
    (ack : TransferAckPlainMessage Time) : Prop :=
  ack.resend = true ∧ ∃ index < o.total, index ∉ o.acked ∧
    index ∉ ack.haves ∧ ∀ sentAt, o.inFlight.get? index = some sentAt →
      stallMs ≤ env.now - sentAt

/-- An ack that asks for nothing leaves an empty queue empty. -/
theorem queue_applyAck {stallMs : Time} {ack : TransferAckPlainMessage Time}
    {o : Outgoing} (empty : o.queue = [])
    (asks : ¬ AsksFor env stallMs o ack) :
    (applyAck env stallMs ack o).queue = [] := by
  unfold applyAck
  dsimp only
  split
  · rename_i resend
    rw [List.filter_eq_nil_iff]
    intro index inRange wanted
    rw [List.mem_range] at inRange
    rw [decide_eq_true_eq] at wanted
    obtain ⟨missing, grounded⟩ := wanted
    rw [Finset.mem_union, List.mem_toFinset, List.mem_filter,
      decide_eq_true_eq] at missing
    apply asks
    refine ⟨resend, index, inRange, fun acked => missing (.inl acked),
      fun reported => missing (.inr ⟨reported, inRange⟩), ?_⟩
    intro sentAt flies
    by_contra recent
    apply grounded
    rw [InsertionMap.contains_iff]
    refine ⟨sentAt, ?_⟩
    rw [InsertionMap.get?_filter, InsertionMap.get?_filter, flies]
    have unreported : index ∉ ack.haves.filter fun i => i < o.total :=
      fun reported => missing (.inr (by simpa using reported))
    simp [unreported, not_le.mp recent]
  · exact empty

theorem handleAck_leaves (sound : s.Sound) (room : JSString)
    (ack : TransferAckPlainMessage Time)
    (asks : room = bucketId → ack.id = id → ack.done = false →
      ∀ ref o, s.findOut bucketId id = some (ref, o) →
        ¬ AsksFor env s.limits.stallMs o ack) :
    Leaves bucketId id s (s.handleAck env room ack) := by
  unfold handleAck
  split
  · split
    · exact .of_same (sending_sendCancel _ _ _) rfl
    · exact .refl s
  · rename_i ref o listed
    have found := (findOut_eq_some_iff.mp listed).2
    split
    · apply Leaves.of_sending
      · rw [sending_record rfl, sending_publish, sending_deleteOut]
      · intro other still
        have out : (((s.deleteOut o).publish room).record
            (.onDelivered room o.id)).out = s.out.remove o.bucketId o.id :=
          out_stopTimerIfIdle
        rw [out, Rooms.find_remove] at still
        split at still
        · simp at still
        · exact still
    · rename_i going
      rw [Bool.not_eq_true] at going
      refine Leaves.trans (Leaves.publish (.setOut found ?_) room)
        (.pump env ref)
      intro here empty
      obtain ⟨-, -, sameBucket, sameId⟩ := sound.findOut listed
      obtain ⟨o₁, found₁, bucketId₁, id₁⟩ := sound.outKeys _ _ _ here
      obtain rfl := Option.some.inj (found.symm.trans found₁)
      refine queue_applyAck empty (asks ?_ ?_ going ref o ?_)
      · exact sameBucket.symm.trans bucketId₁
      · exact sameId.symm.trans id₁
      · exact findOut_eq_some_iff.mpr ⟨here, found⟩

/-! ### Ticks -/

theorem tickOut_leaves {ref : Ref} {o : Outgoing}
    (found : s.outgoing[ref]? = some o) :
    Leaves bucketId id s (s.tickOut env ref o).1 := by
  unfold tickOut
  split
  · exact .refl s
  · split
    · split
      · exact .query found rfl
      · exact .refl s
    · split
      · exact .pump env ref
      · split
        · exact .refl s
        · dsimp only
          split
          · exact .setOut found fun _ empty => empty
          · exact .query found rfl

theorem visitOut_leaves (env : Env) (refs : List Ref)
    (visited : Engine × List JSString) :
    Leaves bucketId id visited.1 (refs.foldl (visitOut env) visited).1 := by
  induction refs generalizing visited with
  | nil => exact .refl _
  | cons ref refs induction =>
      refine Leaves.trans ?_ (induction _)
      obtain ⟨s, touched⟩ := visited
      simp only [visitOut]
      split
      · rename_i o found
        rw [touch_fst]
        exact tickOut_leaves found
      · exact .refl s

theorem tick_leaves : Leaves bucketId id s (s.tick env) := by
  have visited : Leaves bucketId id s
      (s.out.allRefs.foldl (visitOut env) (s, [])).1 :=
    visitOut_leaves env s.out.allRefs (s, [])
  unfold tick
  dsimp only
  refine visited.trans (.of_same ?_ ?_)
  · rw [(publishAll_sends _ _).1, (visitIn_sends _ _).1]
  · rw [(publishAll_sends _ _).2, (visitIn_sends _ _).2]

/-! ### Suspended functions -/

theorem unsuspend_leaves {pos : Nat} :
    Leaves bucketId id s (s.unsuspend pos) :=
  .of_kept rfl rfl fun _ listed => listed

theorem out_hashed (ref : Ref) (data : Bytes) (offset : Nat)
    (sha : JSString) : (s.hashed env ref data offset sha).out = s.out := by
  unfold hashed
  split
  · rfl
  · split
    · rfl
    · split
      · dsimp only
        split
        · exact out_stopTimerIfIdle
        · rfl
      · rfl

theorem out_stored (ref : Ref) (ok : Bool) :
    (s.stored env ref ok).out = s.out := by
  unfold stored
  split
  · rfl
  · split
    · exact out_stopTimerIfIdle
    · rfl

theorem out_storageChecked (ref : Ref) (ok : Bool) :
    (s.storageChecked env ref ok).out = s.out := by
  unfold storageChecked
  split
  · rfl
  · split
    · rfl
    · exact out_stopTimerIfIdle

/-- A pump goes on with a chunk that has been sent, or is for another
transfer. -/
theorem pumpSent_leaves {ref : Ref} {index : Nat} {ok : Bool}
    (sent : ok = false → s.out.find bucketId id ≠ some ref) :
    Leaves bucketId id s (s.pumpSent env ref index ok) := by
  unfold pumpSent
  split
  · exact .refl s
  · rename_i o found
    split
    · exact .setOut found fun _ empty => empty
    · split
      · rename_i failed
        rw [Bool.not_eq_true] at failed
        refine Leaves.publish (.setOut found fun here => ?_) _
        exact absurd here (sent failed)
      · exact .pumpOn found fun _ empty => empty

/-- A send that resumes queues nothing. -/
theorem register_leaves (sound : s.Sound) {sha256 room : JSString}
    {payload : OutgoingPayload} {resume : Bool}
    (resumes : room = bucketId → payload.id = id → resume = true) :
    Leaves bucketId id s (s.register env sha256 room payload resume) := by
  unfold register
  dsimp only
  set o := Outgoing.open env.now sha256 room payload resume with opened
  have added : Leaves bucketId id s
      ((s.addOut o).persist room |>.ensureTimer) := by
    refine Leaves.trans (.addOut sound ?_)
      (.of_same (sending_ensureTimer.trans (sending_persist room)) rfl)
    intro sameBucket sameId
    simp [opened, Outgoing.open, resumes sameBucket sameId]
  refine Leaves.publish (added.trans ?_) room
  split
  · apply Leaves.query _ rfl
    exact List.getElem?_concat_length
  · exact .pump env _

/-! ### Sections -/

/-- What lets the sender go on with a transfer whose queue is empty: an ack
that asks for a chunk, a chunk of it that could not be sent after all, or a
send that starts again. -/
def Revives (s : Engine) (env : Env) (bucketId id : JSString) : Event → Prop
  | .handleAck room ack =>
      room = bucketId ∧ ack.id = id ∧ ack.done = false ∧
        ∃ ref o, s.findOut bucketId id = some (ref, o) ∧
          AsksFor env s.limits.stallMs o ack
  | .settle pos ok =>
      (∃ payload, payload.id = id ∧
        s.suspended[pos]? = some (.hashPayload bucketId payload false)) ∨
      ok = false ∧ ∃ ref index, s.out.find bucketId id = some ref ∧
        s.suspended[pos]? = some (.send ref index)
  | _ => False

theorem settle_leaves (sha256 : Bytes → JSString) (sound : s.Sound)
    {pos : Nat} {ok : Bool} {task : Suspended}
    (waiting : s.suspended[pos]? = some task)
    (calm : ¬ s.Revives env bucketId id (.settle pos ok)) :
    Leaves bucketId id s ((s.unsuspend pos).settle sha256 env ok task) := by
  apply unsuspend_leaves.trans
  cases task with
  | hashPayload room payload resume =>
      apply register_leaves (sound.unsuspend pos)
      rintro rfl rfl
      by_contra fresh
      rw [Bool.not_eq_true] at fresh
      subst fresh
      exact calm (.inl ⟨payload, rfl, waiting⟩)
  | send ref index =>
      apply pumpSent_leaves
      intro failed here
      exact calm (.inr ⟨failed, ref, index, here, waiting⟩)
  | hashData ref data offset =>
      exact .of_same (sending_hashed ref data offset _)
        (out_hashed ref data offset _)
  | deliver ref => exact .of_same (sending_stored ref ok) (out_stored ref ok)
  | storage ref =>
      exact .of_same (sending_storageChecked ref ok)
        (out_storageChecked ref ok)

end

end Engine

/-- Only a payload whose hash has come is listed. -/
theorem Moves.out_shrinks {sha256 : Bytes → JSString} {turn : Turn}
    {s s' : Engine} (moves : Moves sha256 turn s s')
    (fresh : ∀ pos ok, turn.event ≠ .settle pos ok)
    {bucketId id : JSString} {ref : Ref}
    (listed : s'.out.find bucketId id = some ref) :
    s.out.find bucketId id = some ref := by
  induction moves with
  | refl => exact listed
  | tail _ move induction =>
      apply induction
      cases move with
      | removeOut kept =>
          rcases kept bucketId id with same | ⟨gone, -⟩
          · exact same ▸ listed
          · rw [gone] at listed
            simp at listed
      | register event => exact absurd event (fresh _ _)
      | _ => exact listed

namespace Engine

variable {bucketId id : JSString} {s s' : Engine} {env : Env}

/-- What one section does for a transfer whose queue is empty. -/
theorem step_leaves {sha256 : Bytes → JSString} {event : Event}
    (sound : s.Sound) (stepped : s.step sha256 env event = some s')
    (calm : ¬ s.Revives env bucketId id event) :
    Leaves bucketId id s s' := by
  have moves : Moves sha256 (.of s event env) s s' :=
    step_moves sound rfl stepped
  have quiet : (∀ pos ok, event ≠ .settle pos ok) →
      s'.sending = s.sending → Leaves bucketId id s s' :=
    fun fresh same => .of_sending same fun ref => moves.out_shrinks fresh
  cases event with
  | settle pos ok =>
      obtain ⟨task, waiting, rfl⟩ := Option.map_eq_some_iff.mp stepped
      exact settle_leaves sha256 sound waiting calm
  | startSend room payload resume =>
      cases stepped
      exact quiet (by simp) (sending_startSend room payload resume)
  | handleAck room ack =>
      cases stepped
      apply handleAck_leaves sound
      intro here same going ref o found asks
      exact calm ⟨here, same, going, ref, o, found, asks⟩
  | handleCancel room msg =>
      cases stepped
      exact handleCancel_leaves room msg
  | handleQuery room other =>
      cases stepped
      exact quiet (by simp) (sending_handleQuery room other)
  | handleChunk room c =>
      cases stepped
      exact quiet (by simp) (sending_handleChunk room c)
  | onConnected room =>
      cases stepped
      exact onConnected_leaves room
  | onDisconnected room =>
      cases stepped
      exact onDisconnected_leaves room
  | retry room other =>
      cases stepped
      exact retry_leaves room other
  | cancel room other =>
      cases stepped
      exact quiet (by simp) (sending_cancel room other)
  | forget room other =>
      cases stepped
      exact quiet (by simp) (sending_forget room other)
  | clearBucket room forgetPending =>
      cases stepped
      exact quiet (by simp) (sending_clearBucket room forgetPending)
  | clearAll =>
      cases stepped
      exact quiet (by simp) sending_stopTimerIfIdle
  | tick =>
      cases stepped
      exact tick_leaves

/-! ## A receiver that misses a part -/

end Engine

/-- The message is handed to `deliver`, or stored by it. -/
def Call.storing (bucketId id : JSString) : Call → Bool
  | .deliver room msg => room = bucketId && msg.id = id
  | .delivered room other => room = bucketId && other = id
  | _ => false

namespace Engine

/-- The message is being stored. -/
def Saves (s : Engine) (bucketId id : JSString) : Prop :=
  ∃ ref i, .deliver ref ∈ s.suspended ∧ s.incoming[ref]? = some i ∧
    i.bucketId = bucketId ∧ i.id = id

/-- The transfer misses the part at an index, whenever it is listed. -/
structure Lacks (s : Engine) (bucketId id : JSString) (index : Nat) :
    Prop where
  part : ∀ ref, s.inc.find bucketId id = some ref →
    ∃ i, s.incoming[ref]? = some i ∧ i.parts[index]? = some none
  hashing : ∀ ref data offset, s.inc.find bucketId id = some ref →
    .hashData ref data offset ∉ s.suspended
  saving : ¬ s.Saves bucketId id

/-- The calls of `deliver` for a message, and the ones that have resolved. -/
def deliveries (s : Engine) (bucketId id : JSString) : List Call :=
  s.log.filter (Call.storing bucketId id)

end Engine

/-- No chunk of the transfer brings the part at an index. -/
def Event.Spares (bucketId id : JSString) (index : Nat) : Event → Prop
  | .handleChunk room c =>
      room = bucketId → c.id = id → c.index ≠ index ∧ index < c.total
  | _ => True

/-- No chunk but its own brings a missing part. -/
theorem Refills.missing {turn : Turn} {i : Incoming}
    {parts : List (Option Bytes)} {index : Nat} (refills : Refills turn i parts)
    (missing : i.parts[index]? = some none)
    (spares : turn.event.Spares i.bucketId i.id index) :
    parts[index]? = some none := by
  cases refills with
  | unchanged same => exact same ▸ missing
  | cleared same =>
      rw [same, List.getElem?_map, missing]
      rfl
  | @filled room c event sameBucket sameId same =>
      rw [event] at spares
      obtain ⟨other, -⟩ := spares sameBucket.symm sameId.symm
      rw [same, setPart, List.getElem?_set_ne other,
        List.getElem?_append_left (List.getElem?_eq_some_iff.mp missing).1]
      exact missing

/-- An incoming transfer is listed anew for a chunk of it only. -/
theorem Move.inc_listed {sha256 : Bytes → JSString} {turn : Turn}
    {s s' : Engine} (move : Move sha256 turn s s') {bucketId id : JSString}
    {ref : Ref} (listed : s'.inc.find bucketId id = some ref) :
    s.inc.find bucketId id = some ref ∨
      ∃ c, turn.event = .handleChunk bucketId c ∧ c.id = id ∧
        ref = s.incoming.length ∧
        s' = s.addIn (.open turn.env.now bucketId c) := by
  cases move with
  | removeIn kept =>
      rcases kept bucketId id with same | ⟨gone, -⟩
      · exact .inl (same ▸ listed)
      · rw [gone] at listed
        simp at listed
  | resolve | reject =>
      simp only [Rooms.find_remove] at listed
      split at listed
      · simp at listed
      · exact .inl listed
  | openIn event =>
      simp only [Engine.addIn, Rooms.find_put] at listed
      split at listed
      · rename_i here
        obtain ⟨rfl, rfl⟩ := here
        exact .inr ⟨_, event, rfl, (Option.some.inj listed).symm, rfl⟩
      · exact .inl listed
  | _ => exact .inl listed

namespace Engine

/-- What a function completes is allocated. -/
theorem Sound.completed {s : Engine} (sound : s.Sound) {ref : Ref}
    {task : Suspended} (waiting : task ∈ s.suspended)
    (completes : task.completes ref = true) :
    ∃ i, s.incoming[ref]? = some i := by
  have one : 0 < s.suspended.countP (Suspended.completes ref) :=
    List.countP_pos_iff.mpr ⟨task, waiting, completes⟩
  have bound := sound.completing ref
  cases found : s.incoming[ref]? with
  | none =>
      rw [found, Option.any_none, if_neg Bool.false_ne_true] at bound
      exact absurd one (not_lt.mpr bound)
  | some i => exact ⟨i, rfl⟩

section

variable {sha256 : Bytes → JSString} {turn : Turn} {s s' : Engine}
  {bucketId id : JSString} {index : Nat}

/-- No move brings the missing part, unless its chunk arrives. -/
theorem Lacks.move (lacks : s.Lacks bucketId id index) (sound : s.Sound)
    (spares : turn.event.Spares bucketId id index)
    (move : Move sha256 turn s s') : s'.Lacks bucketId id index where
  part := by
    intro ref listed
    rcases move.inc_listed listed with before | ⟨c, event, about, rfl, rfl⟩
    · obtain ⟨i, found, missing⟩ := lacks.part ref before
      obtain ⟨i', found', same⟩ := move.incoming_kept found
      refine ⟨i', found', ?_⟩
      rcases move.incoming found' with
        ⟨i₁, found₁, -, refills⟩ | ⟨room, c, -, rfl, -⟩
      · obtain rfl := Option.some.inj (found.symm.trans found₁)
        obtain ⟨i₁, found₁, bucketId₁, id₁⟩ := sound.inKeys _ _ _ before
        obtain rfl := Option.some.inj (found.symm.trans found₁)
        exact refills.missing missing (bucketId₁.symm ▸ id₁.symm ▸ spares)
      · simp at found
    · rw [event] at spares
      obtain ⟨-, inRange⟩ := spares rfl about
      refine ⟨_, List.getElem?_concat_length, ?_⟩
      simp [Incoming.open, inRange]
  hashing := by
    intro ref data offset listed waits
    rcases move.inc_listed listed with before | ⟨c, event, about, rfl, rfl⟩
    · rcases move.suspended waits with waited | ⟨reason, -⟩
      · exact lacks.hashing ref data offset before waited
      · cases reason with
        | hashData found live filled =>
            obtain ⟨i, found₁, missing⟩ := lacks.part ref before
            obtain rfl := Option.some.inj (found.symm.trans found₁)
            rcases assemble_missing _ missing with fails | fails
            · rw [fails] at filled
              simp at filled
            · rw [fails] at filled
              simp at filled
    · have completes : (Suspended.hashData s.incoming.length data
          offset).completes s.incoming.length = true := by
        simp [Suspended.completes]
      obtain ⟨i, found⟩ := sound.completed waits completes
      simp at found
  saving := by
    rintro ⟨ref, i', waits, found', sameBucket, sameId⟩
    rcases move.suspended waits with waited | ⟨reason, -⟩
    · have completes : (Suspended.deliver ref).completes ref = true := by
        simp [Suspended.completes]
      obtain ⟨i, found⟩ := sound.completed waited completes
      obtain ⟨i₁, found₁, same⟩ := move.incoming_kept found
      obtain rfl := Option.some.inj (found'.symm.trans found₁)
      exact lacks.saving ⟨ref, i, waited, found,
        same.bucketId.symm.trans sameBucket, same.id.symm.trans sameId⟩
    · cases reason with
      | deliver hashing found live =>
          rename_i i
          obtain ⟨i₁, found₁, same⟩ := move.incoming_kept found
          obtain rfl := Option.some.inj (found'.symm.trans found₁)
          rw [isLiveIn, decide_eq_true_eq, ← same.bucketId, ← same.id,
            sameBucket, sameId] at live
          exact lacks.hashing ref _ _ live hashing

theorem Lacks.deliveries_move (lacks : s.Lacks bucketId id index)
    (move : Move sha256 turn s s') :
    s'.deliveries bucketId id = s.deliveries bucketId id := by
  have quiet : ∀ {call : Call}, call.storing bucketId id = false →
      (s.log ++ [call]).filter (Call.storing bucketId id) =
        s.log.filter (Call.storing bucketId id) := by
    intro call other
    simp [List.filter_append, other]
  cases move with
  | @note call silent =>
      apply quiet
      cases call <;> first | rfl | simp [Call.quiet] at silent
  | @startDeliver pos ok ref i data offset event waiting found live =>
      apply quiet
      rw [← Bool.not_eq_true]
      intro delivers
      simp only [Call.storing, Bool.and_eq_true, decide_eq_true_eq]
        at delivers
      rw [isLiveIn, decide_eq_true_eq, delivers.1] at live
      have sameId : i.id = id := delivers.2
      rw [sameId] at live
      exact lacks.hashing ref data offset live (List.mem_of_getElem? waiting)
  | @resolve pos ref i event waiting found =>
      apply quiet
      rw [← Bool.not_eq_true]
      intro delivers
      simp only [Call.storing, Bool.and_eq_true, decide_eq_true_eq]
        at delivers
      exact lacks.saving ⟨ref, i, List.mem_of_getElem? waiting, found,
        delivers.1, delivers.2⟩
  | pumped | query | ack | known | ackDone | cancelMsg => exact quiet rfl
  | _ => rfl

/-- A section brings no missing part and delivers nothing, unless it handles
the chunk. -/
theorem Lacks.moves (lacks : s.Lacks bucketId id index) (sound : s.Sound)
    (spares : turn.event.Spares bucketId id index)
    (moves : Moves sha256 turn s s') :
    s'.Lacks bucketId id index ∧
      s'.deliveries bucketId id = s.deliveries bucketId id := by
  induction moves with
  | refl => exact ⟨lacks, rfl⟩
  | tail earlier move induction =>
      obtain ⟨lacks₁, same⟩ := induction
      refine ⟨lacks₁.move (sound.of_moves earlier) spares move, ?_⟩
      exact (lacks₁.deliveries_move move).trans same

end

@[simp] theorem stopTimerIfIdle_suspended (s : Engine) :
    s.stopTimerIfIdle.suspended = s.suspended := by
  unfold stopTimerIfIdle
  split <;> rfl

/-- What a cancel leaves of the receiver's side. -/
theorem cancel_receiver {s : Engine} (sound : s.Sound) (env : Env)
    (bucketId id : JSString) :
    (s.cancel env bucketId id).incoming = s.incoming ∧
      (s.cancel env bucketId id).suspended = s.suspended ∧
      (s.cancel env bucketId id).inc.find bucketId id = none := by
  have dropped : (s.drop bucketId id).1.incoming = s.incoming ∧
      (s.drop bucketId id).1.suspended = s.suspended ∧
      (s.drop bucketId id).1.inc.find bucketId id = none := by
    unfold drop
    dsimp only
    cases found : s.findIn bucketId id with
    | none =>
        have missing := sound.find_of_findIn_none found
        cases s.findOut bucketId id with
        | none => exact ⟨rfl, rfl, missing⟩
        | some pair => simp [deleteOut, persist, record, missing]
    | some listed =>
        obtain ⟨ref, i⟩ := listed
        obtain ⟨-, -, sameBucket, sameId⟩ := sound.findIn found
        cases s.findOut bucketId id with
        | none => simp [deleteIn, sameBucket, sameId]
        | some pair =>
            simp [deleteIn, deleteOut, persist, record, sameBucket, sameId]
  unfold cancel
  split
  · rename_i s₁ result
    rw [result] at dropped
    exact dropped
  · rename_i s₁ result
    rw [result] at dropped
    exact dropped

theorem lacks_cancel {s : Engine} (sound : s.Sound) (env : Env)
    {bucketId id : JSString} (unsaved : ¬ s.Saves bucketId id)
    (index : Nat) : (s.cancel env bucketId id).Lacks bucketId id index := by
  obtain ⟨incoming, suspended, gone⟩ := cancel_receiver sound env bucketId id
  constructor
  · simp [gone]
  · simp [gone]
  · unfold Saves
    rw [incoming, suspended]
    exact unsaved

end Engine

/-! ## Runs of two engines -/

namespace Link

variable {link : Link}

/-- The sender keeps quiet about a transfer, whatever happens to it but a
revival. -/
theorem rests_of_run {side : Side} {id : JSString} {s s' : Engines}
    {trace : List (Engines × Section)} (ready : Ready s)
    (rests : (s side).Rests link.bucketId id)
    (run : link.system.Run s trace s')
    (calm : Lts.AllMeet (fun state label => label.side = side →
      ¬ (state side).Revives label.env link.bucketId id label.event) trace) :
    Ready s' ∧ (s' side).Rests link.bucketId id ∧
      (s' side).chunksSent link.bucketId id =
        (s side).chunksSent link.bucketId id := by
  induction run with
  | refl => exact ⟨ready, rests, rfl⟩
  | snoc earlier step induction =>
      obtain ⟨before, last⟩ := Lts.allMeet_append.mp calm
      obtain ⟨ready₁, rests₁, sent₁⟩ := induction before
      refine ⟨ready₁.step step, ?_⟩
      rename_i middle finish trace label
      have condition := last (middle, label) List.mem_cons_self
      by_cases here : label.side = side
      · subst here
        obtain ⟨-, e, stepped, rfl⟩ := step
        rw [Function.update_self]
        obtain ⟨rests₂, sent₂⟩ := Engine.step_leaves (ready₁.sound _) stepped
          (condition rfl) rests₁
        exact ⟨rests₂, sent₂.trans sent₁⟩
      · obtain ⟨-, e, stepped, rfl⟩ := step
        rw [Function.update_of_ne (Ne.symm here)]
        exact ⟨rests₁, sent₁⟩

/-- The receiver delivers nothing while it misses a part. -/
theorem lacks_of_run {side : Side} {id : JSString} {index : Nat}
    {s s' : Engines} {trace : List (Engines × Section)} (ready : Ready s)
    (lacks : (s side).Lacks link.bucketId id index)
    (run : link.system.Run s trace s')
    (spares : Lts.AllMeet (fun _ label => label.side = side →
      label.event.Spares link.bucketId id index) trace) :
    Ready s' ∧ (s' side).Lacks link.bucketId id index ∧
      (s' side).deliveries link.bucketId id =
        (s side).deliveries link.bucketId id := by
  induction run with
  | refl => exact ⟨ready, lacks, rfl⟩
  | snoc earlier step induction =>
      obtain ⟨before, last⟩ := Lts.allMeet_append.mp spares
      obtain ⟨ready₁, lacks₁, same₁⟩ := induction before
      refine ⟨ready₁.step step, ?_⟩
      rename_i middle finish trace label
      have condition := last (middle, label) List.mem_cons_self
      obtain ⟨moves, kept⟩ := step_moves (ready₁.sound _) step
      by_cases here : label.side = side
      · subst here
        obtain ⟨lacks₂, same₂⟩ := lacks₁.moves (ready₁.sound _)
          (condition rfl) moves
        exact ⟨lacks₂, same₂.trans same₁⟩
      · rcases label.side.eq_or_eq_other side with same | other
        · exact absurd same.symm here
        · rw [other, kept, ← other]
          exact ⟨lacks₁, same₁⟩

/-- Once the receiver's user has cancelled a transfer and the sender has
processed a cancel of it, the sender sends no chunk of it as long as nothing
revives it, and nothing of it is delivered as long as one of its chunks has
not arrived since. -/
theorem cancel_lasts {side : Side} {id : JSString} (index : Nat)
    {env env' : Env} {msg : TransferCancelPlainMessage Time}
    {s₁ s₂ s₃ s₄ s₅ : Engines} {between after : List (Engines × Section)}
    (reachable : link.system.Reachable s₁)
    (unsaved : ¬ (s₁ side).Saves link.bucketId id)
    (cancelled : link.system.step s₁
      ⟨side, .cancel link.bucketId id, env⟩ s₂)
    (meanwhile : link.system.Run s₂ between s₃)
    (processed : link.system.step s₃
      ⟨side.other, .handleCancel link.bucketId msg, env'⟩ s₄)
    (about : msg.id = id)
    (later : link.system.Run s₄ after s₅) :
    (Lts.AllMeet (fun state label => label.side = side.other →
        ¬ (state side.other).Revives label.env link.bucketId id label.event)
        after →
      (s₅ side.other).chunksSent link.bucketId id =
        (s₄ side.other).chunksSent link.bucketId id) ∧
    (Lts.AllMeet (fun _ label => label.side = side →
        label.event.Spares link.bucketId id index) (between ++ after) →
      (s₅ side).deliveries link.bucketId id =
        (s₂ side).deliveries link.bucketId id) := by
  have ready₁ := ready_of_reachable reachable
  have ready₂ := ready₁.step cancelled
  have ready₃ : Ready s₃ := meanwhile.preserves ready₂
    fun _ _ _ ready step => ready.step step
  have ready₄ := ready₃.step processed
  obtain ⟨-, e, stepped, rfl⟩ := cancelled
  obtain rfl := Option.some.inj stepped
  obtain ⟨-, e, stepped, rfl⟩ := processed
  obtain rfl := Option.some.inj stepped
  constructor
  · intro calm
    refine (rests_of_run ready₄ ?_ later calm).2.2
    rw [Function.update_self, ← about]
    exact Engine.rests_handleCancel msg
  · intro spares
    obtain ⟨early, late⟩ := Lts.allMeet_append.mp spares
    have lacks := Engine.lacks_cancel (ready₁.sound side) env unsaved index
    have lacks₂ : (Function.update s₁ side
        ((s₁ side).cancel env link.bucketId id) side).Lacks
          link.bucketId id index := by
      rw [Function.update_self]
      exact lacks
    obtain ⟨-, lacks₃, same₃⟩ := lacks_of_run ready₂ lacks₂ meanwhile early
    have kept : Function.update s₃ side.other
        ((s₃ side.other).handleCancel link.bucketId msg) side = s₃ side :=
      Function.update_of_ne side.other_ne.symm _ _
    have lacks₄ : (Function.update s₃ side.other
        ((s₃ side.other).handleCancel link.bucketId msg) side).Lacks
          link.bucketId id index := by
      rw [kept]
      exact lacks₃
    obtain ⟨-, -, same₅⟩ := lacks_of_run ready₄ lacks₄ later late
    rw [same₅, kept, same₃]

/-! ### A cancel while the only chunk is hashed -/

private def byteLink : Link where
  sha256 := fun _ => []
  bucketId := js "room"
  limits := fun _ => DEFAULT_TRANSFER_LIMITS
  checksStorage := fun _ => false

private def online : Env where
  now := 0
  canSend := fun _ => true
  hasMessage := fun _ _ => false

private def blank : Engine :=
  .new DEFAULT_TRANSFER_LIMITS false

private def byteChunk : TransferChunkPlainMessage Time :=
  (Outgoing.open 0 [] (js "room") Engine.oneByte false).chunk 0

private def aborts : TransferCancelPlainMessage Time where
  ts := 0
  id := js "x"
  reason := some (js "cancelled")

/-- The sender has sent the payload, and the receiver hashes it. -/
private def hashingByte : Engines :=
  Function.update (Function.update (Function.update (fun _ => blank) .a
    (blank.suspend (.hashPayload (js "room") Engine.oneByte false))) .a
      Engine.byteSent) .b (blank.handleChunk online (js "room") byteChunk)

/-- The receiver's user has cancelled. -/
private def cancelledByte : Engines :=
  Function.update hashingByte .b
    ((hashingByte .b).cancel online (js "room") (js "x"))

/-- The sender knows. -/
private def abortedByte : Engines :=
  Function.update cancelledByte .a
    ((cancelledByte .a).handleCancel (js "room") aborts)

private theorem hashingByte_reachable :
    byteLink.system.Reachable hashingByte := by
  have started : byteLink.system.Reachable fun _ => blank :=
    .start fun _ => rfl
  have first := reachable_next started .a
    (.startSend (js "room") Engine.oneByte false) online trivial rfl
  have sent := reachable_next first .a (.settle 0 true) online trivial rfl
  have chunk : byteLink.Genuine Engine.byteSent
      (.handleChunk (js "room") byteChunk) := by
    intro _
    exact List.mem_cons_of_mem _ List.mem_cons_self
  exact reachable_next sent .b (.handleChunk (js "room") byteChunk) online
    chunk rfl

private theorem cancelledByte_step :
    byteLink.system.step hashingByte
      ⟨.b, .cancel (js "room") (js "x"), online⟩ cancelledByte :=
  ⟨trivial, _, rfl, rfl⟩

private theorem abortedByte_step :
    byteLink.system.step cancelledByte
      ⟨.a, .handleCancel (js "room") aborts, online⟩ abortedByte := by
  refine ⟨fun _ => ?_, _, rfl, rfl⟩
  exact List.mem_cons_self

private theorem saves_hashingByte :
    ¬ (hashingByte .b).Saves (js "room") (js "x") := by
  rintro ⟨ref, i, waits, -⟩
  have waiting : (hashingByte .b).suspended = [.hashData 0 [7] 1] := rfl
  rw [waiting] at waits
  simp at waits

/-- The sender after the cancel, once it has reconnected. -/
private def reconnectedByte : Engines :=
  Function.update abortedByte .a
    ((abortedByte .a).onConnected online (js "room"))

theorem cancel_lasts_reconnected :
    (reconnectedByte .a).chunksSent (js "room") (js "x") =
        (abortedByte .a).chunksSent (js "room") (js "x") ∧
      (reconnectedByte .b).deliveries (js "room") (js "x") =
        (cancelledByte .b).deliveries (js "room") (js "x") := by
  have step : byteLink.system.step abortedByte
      ⟨.a, .onConnected (js "room"), online⟩ reconnectedByte :=
    ⟨trivial, _, rfl, rfl⟩
  have lasts := cancel_lasts 0 hashingByte_reachable saves_hashingByte
    cancelledByte_step (.refl _) abortedByte_step rfl
    ((Lts.Run.refl _).snoc step)
  constructor
  · apply lasts.1
    simp [Lts.AllMeet, Engine.Revives]
  · apply lasts.2
    simp [Lts.AllMeet, Event.Spares]

/-- A user calls for the transfer again. -/
def restarts : Event → Bool
  | .retry _ _ | .startSend _ _ _ => true
  | _ => false

/-- What happens without a user who does. -/
private def GoesOn (s s' : Engines) : Prop :=
  ∃ trace, byteLink.system.Run s trace s' ∧
    ∀ entry ∈ trace, restarts entry.2.event = false

private theorem GoesOn.next {s s' : Engines} (goesOn : GoesOn s s')
    (side : Side) (event : Event) {e : Engine}
    (genuine : byteLink.Genuine (s' side.other) event)
    (stepped : (s' side).step (fun _ => []) online event = some e)
    (unforced : restarts event = false) :
    GoesOn s (Function.update s' side e) := by
  obtain ⟨trace, run, calm⟩ := goesOn
  have step : byteLink.system.step s' ⟨side, event, online⟩
      (Function.update s' side e) := ⟨genuine, e, stepped, rfl⟩
  refine ⟨_, run.snoc step, ?_⟩
  intro entry member
  rcases List.mem_append.mp member with before | last
  · exact calm entry before
  · rw [List.mem_singleton.mp last]
    exact unforced

private def asks : TransferAckPlainMessage Time where
  ts := 0
  id := js "x"
  haves := []
  resend := true
  done := false

/-- The pump has returned, the sender has reconnected and asked what the
receiver holds. -/
private def askingByte : Engines :=
  Function.update (Function.update abortedByte .a
    (((abortedByte .a).unsuspend 0).pumpSent online 0 0 true)) .a
    ((((abortedByte .a).unsuspend 0).pumpSent online 0 0 true).onConnected
      online (js "room"))

/-- The receiver has asked for all of it, and the sender has sent it. -/
private def resentByte : Engines :=
  let told := (askingByte .b).handleQuery online (js "room") (js "x")
  Function.update (Function.update askingByte .b told) .a
    ((askingByte .a).handleAck online (js "room") asks)

/-- The receiver has stored it. -/
private def storedByte : Engines :=
  let filled := (resentByte .b).handleChunk online (js "room") byteChunk
  let hashed := (filled.unsuspend 1).hashed online 1 [7] 1 []
  let stored := (hashed.unsuspend 1).stored online 1 true
  Function.update (Function.update (Function.update resentByte .b filled) .b
    hashed) .b stored

private theorem resentByte_goesOn : GoesOn abortedByte resentByte := by
  have start : GoesOn abortedByte abortedByte := ⟨[], .refl _, by simp⟩
  have returned := start.next .a (.settle 0 true) trivial rfl rfl
  have asking : GoesOn abortedByte askingByte :=
    returned.next .a (.onConnected (js "room")) trivial rfl rfl
  have asked : byteLink.Genuine (askingByte .a)
      (.handleQuery (js "room") (js "x")) :=
    fun _ => ⟨0, List.mem_of_getElem? (i := 5) rfl⟩
  have told := asking.next .b (.handleQuery (js "room") (js "x")) asked rfl rfl
  have answered : byteLink.Genuine
      ((askingByte .b).handleQuery online (js "room") (js "x"))
      (.handleAck (js "room") asks) :=
    fun _ => List.mem_of_getElem? (i := 2) rfl
  exact told.next .a (.handleAck (js "room") asks) answered rfl rfl

private theorem storedByte_goesOn : GoesOn abortedByte storedByte := by
  have sent : byteLink.Genuine (resentByte .a)
      (.handleChunk (js "room") byteChunk) :=
    fun _ => List.mem_of_getElem? (i := 8) rfl
  have filled := resentByte_goesOn.next .b
    (.handleChunk (js "room") byteChunk) sent rfl rfl
  have hashed := filled.next .b (.settle 1 true) trivial rfl rfl
  exact hashed.next .b (.settle 1 true) trivial rfl rfl

/-- A sender that reconnects resumes failed sends too: after the cancel it
sends the chunk again, and the receiver stores the message its user has
cancelled, though nobody has called for it again. -/
theorem cancelled_resumes :
    ∃ (s₁ s₂ s₃ s₄ : Engines) (trace : List (Engines × Section)),
      byteLink.system.Reachable s₁ ∧
      ((s₁ .b).findIn (js "room") (js "x")).isSome = true ∧
      byteLink.system.step s₁ ⟨.b, .cancel (js "room") (js "x"), online⟩ s₂ ∧
      byteLink.system.step s₂
        ⟨.a, .handleCancel (js "room") aborts, online⟩ s₃ ∧
      byteLink.system.Run s₃ trace s₄ ∧
      (∀ entry ∈ trace, restarts entry.2.event = false) ∧
      ((s₃ .a).chunksSent (js "room") (js "x")).length = 1 ∧
      ((s₄ .a).chunksSent (js "room") (js "x")).length = 2 ∧
      ((s₃ .b).deliveries (js "room") (js "x")).length = 0 ∧
      ((s₄ .b).deliveries (js "room") (js "x")).length = 2 := by
  obtain ⟨trace, run, calm⟩ := storedByte_goesOn
  refine ⟨hashingByte, cancelledByte, abortedByte, storedByte, trace,
    hashingByte_reachable, rfl, cancelledByte_step, abortedByte_step, run,
    calm, ?_, ?_, ?_, ?_⟩
  · rfl
  · rfl
  · rfl
  · rfl

end Link

end Byteln.Client

import Byteln.Client.TransferTurns

/-!
# The window of the sender

A pump takes a chunk out of the queue, waits until it has been sent, and only
then counts it as in flight.  Meanwhile acks rebuild the queue, a reconnection
clears the window, and the transfer may be dropped.  That the window holds
nevertheless is an invariant of what the engine knows about sending
(`Sending.Paced`): a suspended pump is the only one of its transfer, and there
is room for its chunk.
-/

namespace Byteln.Client

open Byteln.Library

/-! ## Schedules -/

/-- The schedule of a transfer respects the window and names its own chunks. -/
structure Outgoing.Fits (window : Nat) (o : Outgoing) : Prop
    extends o.WellFormed where
  size : o.inFlight.size ≤ window
  flying : ∀ index, o.inFlight.contains index = true → index < o.total
  acked : ∀ index ∈ o.acked, index < o.total

/-- A transfer that no pump has been started or left for, and for which no
more is in flight than before. -/
structure Outgoing.Eases (o o' : Outgoing) : Prop where
  same : o.Adjusts o'
  pumping : o'.pumping = o.pumping
  size : o'.inFlight.size ≤ o.inFlight.size
  fits : ∀ {window}, o.Fits window → o'.Fits window

theorem Outgoing.Fits.of_fewer {window : Nat} {o o' : Outgoing}
    (fits : o.Fits window) (total : o'.total = o.total)
    (acked : o'.acked = o.acked)
    (queue : ∀ index ∈ o'.queue, index ∈ o.queue)
    (size : o'.inFlight.size ≤ o.inFlight.size)
    (inFlight : ∀ index, o'.inFlight.contains index = true →
      o.inFlight.contains index = true) : o'.Fits window where
  queued := by
    intro index queued
    rw [total]
    exact fits.queued index (queue index queued)
  apart := by
    intro index member
    rw [acked] at member
    have landed := fits.apart index member
    rw [← Bool.not_eq_true] at landed ⊢
    exact fun flies => landed (inFlight index flies)
  size := size.trans fits.size
  flying := by
    intro index flies
    rw [total]
    exact fits.flying index (inFlight index flies)
  acked := by
    rw [total, acked]
    exact fits.acked

theorem Outgoing.Eases.of_fewer {o o' : Outgoing}
    (bucketId : o'.bucketId = o.bucketId) (id : o'.id = o.id)
    (header : o'.header = o.header) (data : o'.data = o.data)
    (total : o'.total = o.total) (acked : o'.acked = o.acked)
    (pumping : o'.pumping = o.pumping)
    (queue : ∀ index ∈ o'.queue, index ∈ o.queue)
    (size : o'.inFlight.size ≤ o.inFlight.size)
    (inFlight : ∀ index, o'.inFlight.contains index = true →
      o.inFlight.contains index = true) : o.Eases o' where
  same := by
    apply Adjusts.of_schedule bucketId id header data total acked queue
    intro index absent
    rw [← Bool.not_eq_true] at absent ⊢
    exact fun flies => absent (inFlight index flies)
  pumping := pumping
  size := size
  fits := fun fits => fits.of_fewer total acked queue size inFlight

theorem Outgoing.Adjusts.refl (o : Outgoing) : o.Adjusts o :=
  ⟨rfl, rfl, rfl, rfl, rfl, fun wellFormed => wellFormed⟩

/-- Chunks are cut from what never changes. -/
theorem Outgoing.Adjusts.chunk {o o' : Outgoing} (adjusts : o.Adjusts o')
    (index : Nat) : o'.chunk index = o.chunk index := by
  simp [Outgoing.chunk, adjusts.id, adjusts.header, adjusts.data,
    adjusts.total]

theorem rel_trans {a b c : Option Outgoing}
    (first : Option.Rel Outgoing.Adjusts a b)
    (second : Option.Rel Outgoing.Adjusts b c) :
    Option.Rel Outgoing.Adjusts a c := by
  cases first with
  | none => exact second
  | some first =>
      cases second with
      | some second => exact .some (first.trans second)

/-- Status, attempts and times are no part of a schedule. -/
theorem Outgoing.Eases.of_schedule {o o' : Outgoing}
    (same : o' = { o with
      status := o'.status, detail := o'.detail, attempts := o'.attempts,
      lastActivityAt := o'.lastActivityAt }) : o.Eases o' := by
  rw [same]
  exact .of_fewer rfl rfl rfl rfl rfl rfl rfl
    (fun _ queued => queued) le_rfl fun _ flies => flies

theorem Outgoing.Eases.trans {o₁ o₂ o₃ : Outgoing} (first : o₁.Eases o₂)
    (second : o₂.Eases o₃) : o₁.Eases o₃ where
  same := first.same.trans second.same
  pumping := second.pumping.trans first.pumping
  size := second.size.trans first.size
  fits := fun fits => second.fits (first.fits fits)

/-- The window is emptied, perhaps with the queue. -/
theorem Outgoing.Eases.of_cleared {o o' : Outgoing}
    (same : o' = { o with
      status := o'.status, detail := o'.detail, attempts := o'.attempts,
      lastActivityAt := o'.lastActivityAt, queue := o'.queue,
      inFlight := .empty })
    (queue : ∀ index ∈ o'.queue, index ∈ o.queue) : o.Eases o' := by
  rw [same]
  exact .of_fewer rfl rfl rfl rfl rfl rfl rfl queue (Nat.zero_le _)
    (by simp)

/-- An ack takes chunks out of flight and names only chunks there are. -/
theorem applyAck_eases (env : Env) (stallMs : Time)
    (ack : TransferAckPlainMessage Time) (o : Outgoing) :
    o.Eases (Engine.applyAck env stallMs ack o) := by
  have adjusts := Engine.applyAck_adjusts env stallMs ack o
  have few : (Engine.applyAck env stallMs ack o).inFlight.size ≤
      o.inFlight.size := by
    unfold Engine.applyAck
    dsimp only
    split
    · exact (InsertionMap.size_filter_le _ _).trans
        (InsertionMap.size_filter_le _ _)
    · exact InsertionMap.size_filter_le _ _
  have flew : ∀ index,
      (Engine.applyAck env stallMs ack o).inFlight.contains index = true →
        o.inFlight.contains index = true := by
    intro index
    unfold Engine.applyAck
    dsimp only
    split
    · intro flies
      exact InsertionMap.contains_of_filter
        (InsertionMap.contains_of_filter flies)
    · exact InsertionMap.contains_of_filter
  have named : ∀ index ∈ (Engine.applyAck env stallMs ack o).acked,
      index ∈ o.acked ∨ index < o.total := by
    intro index
    have acked : (Engine.applyAck env stallMs ack o).acked =
        o.acked ∪ (ack.haves.filter fun i => i < o.total).toFinset := by
      unfold Engine.applyAck
      dsimp only
      split <;> rfl
    rw [acked, Finset.mem_union, List.mem_toFinset, List.mem_filter,
      decide_eq_true_eq]
    exact Or.imp_right And.right
  refine ⟨adjusts, ?_, few, fun fits => ?_⟩
  · unfold Engine.applyAck
    dsimp only
    split <;> rfl
  · refine ⟨adjusts.wellFormed fits.toWellFormed, few.trans fits.size, ?_, ?_⟩
    · intro index flies
      rw [adjusts.total]
      exact fits.flying index (flew index flies)
    · intro index member
      rw [adjusts.total]
      exact (named index member).elim (fits.acked index) id

/-! ## What the engine knows about sending -/

/-- A suspended pump: its transfer, and the chunk it waits for. -/
def Suspended.sending? : Suspended → Option (Ref × Nat)
  | .send ref index => some (ref, index)
  | _ => none

/-- The room and the chunk, if a chunk is sent. -/
def Call.chunk? : Call → Option (JSString × TransferChunkPlainMessage Time)
  | .send bucketId (.xferChunk c) => some (bucketId, c)
  | _ => none

/-- The part of the engine that its pumps work on. -/
structure Sending where
  window : Nat
  outgoing : List Outgoing
  /-- The pumps that are suspended, oldest first. -/
  waiting : List (Ref × Nat)
  /-- The chunks that have been sent. -/
  chunks : List (JSString × TransferChunkPlainMessage Time)

def Engine.sending (s : Engine) : Sending where
  window := s.limits.window
  outgoing := s.outgoing
  waiting := s.suspended.filterMap Suspended.sending?
  chunks := s.log.filterMap Call.chunk?

namespace Sending

/-- The chunk that a suspended pump has sent. -/
def chunkOf (p : Sending) (pump : Ref × Nat) :
    Option (JSString × TransferChunkPlainMessage Time) :=
  p.outgoing[pump.1]?.map fun o => (o.bucketId, o.chunk pump.2)

/-- How many pumps of a transfer are suspended. -/
def pumps (p : Sending) (ref : Ref) : Nat :=
  p.waiting.countP fun pump => pump.1 = ref

/-- No transfer has more than one pump, and for each suspended one the window
has room for its chunk. -/
structure Paced (p : Sending) : Prop where
  fits : ∀ o ∈ p.outgoing, o.Fits p.window
  pumps : ∀ ref, p.pumps ref =
    if p.outgoing[ref]?.any Outgoing.pumping then 1 else 0
  room : ∀ ref index, (ref, index) ∈ p.waiting →
    ∃ o, p.outgoing[ref]? = some o ∧ index < o.total ∧
      o.inFlight.size < p.window

/-- Everything else is paced while the only pump of a transfer is running. -/
structure Running (ref : Ref) (p : Sending) : Prop where
  fits : ∀ o ∈ p.outgoing, o.Fits p.window
  alone : p.pumps ref = 0
  pumps : ∀ other, other ≠ ref → p.pumps other =
    if p.outgoing[other]?.any Outgoing.pumping then 1 else 0
  room : ∀ other index, other ≠ ref → (other, index) ∈ p.waiting →
    ∃ o, p.outgoing[other]? = some o ∧ index < o.total ∧
      o.inFlight.size < p.window

def setOut (ref : Ref) (o : Outgoing) (p : Sending) : Sending :=
  { p with outgoing := p.outgoing.set ref o }

def add (o : Outgoing) (p : Sending) : Sending :=
  { p with outgoing := p.outgoing ++ [o] }

/-- A pump sends a chunk and is suspended. -/
def launch (ref : Ref) (index : Nat) (o : Outgoing) (p : Sending) : Sending :=
  { p with
    waiting := p.waiting ++ [(ref, index)]
    chunks := p.chunks ++ [(o.bucketId, o.chunk index)] }

variable {p p' : Sending} {ref : Ref} {o o' : Outgoing}

theorem pumps_launch (index : Nat) (other : Ref) :
    (p.launch ref index o).pumps other =
      p.pumps other + if ref = other then 1 else 0 := by
  simp [pumps, launch, List.countP_append, List.countP_cons]

theorem pumps_eq_zero_iff :
    p.pumps ref = 0 ↔ ∀ index, (ref, index) ∉ p.waiting := by
  unfold pumps
  rw [List.countP_eq_zero]
  constructor
  · intro none index member
    exact none _ member (by simp)
  · intro absent pump member same
    obtain ⟨other, index⟩ := pump
    rw [decide_eq_true_eq] at same
    exact absent index (same ▸ member)

theorem chunkOf_of_kept {pump : Ref × Nat}
    (kept : Option.Rel Outgoing.Adjusts p.outgoing[pump.1]?
      p'.outgoing[pump.1]?) : p'.chunkOf pump = p.chunkOf pump := by
  unfold chunkOf
  generalize p.outgoing[pump.1]? = before at kept ⊢
  generalize p'.outgoing[pump.1]? = after at kept ⊢
  cases kept with
  | none => rfl
  | some adjusts => simp [adjusts.bucketId, adjusts.chunk]

theorem kept_setOut (found : p.outgoing[ref]? = some o)
    (adjusts : o.Adjusts o') (other : Ref) :
    Option.Rel Outgoing.Adjusts p.outgoing[other]?
      (p.setOut ref o').outgoing[other]? := by
  rw [setOut, getElem?_set_of_some found]
  split
  · rename_i same
    rw [same, found]
    exact .some adjusts
  · cases p.outgoing[other]? with
    | none => exact .none
    | some o => exact .some (.refl o)

/-- A transfer that is not pumped may be pumped now. -/
theorem Paced.running (paced : p.Paced) (found : p.outgoing[ref]? = some o)
    (idle : o.pumping = false) : p.Running ref where
  fits := paced.fits
  alone := by simp [paced.pumps ref, found, idle]
  pumps := fun other _ => paced.pumps other
  room := fun other index _ member => paced.room other index member

theorem Running.setOut (running : p.Running ref)
    (fits : o.Fits p.window) : (p.setOut ref o).Running ref where
  fits := by
    intro o' member
    rcases List.mem_or_eq_of_mem_set member with before | rfl
    · exact running.fits o' before
    · exact fits
  alone := running.alone
  pumps := by
    intro other different
    refine (running.pumps other different).trans ?_
    rw [Sending.setOut, List.getElem?_set_ne different.symm]
  room := by
    intro other index different member
    obtain ⟨o', found, bounds⟩ := running.room other index different member
    refine ⟨o', ?_, bounds⟩
    rw [Sending.setOut, List.getElem?_set_ne different.symm]
    exact found

/-- The pump is left. -/
theorem Running.left (running : p.Running ref)
    (found : p.outgoing[ref]? = some o) (idle : o.pumping = false) :
    p.Paced where
  fits := running.fits
  pumps := by
    intro other
    by_cases same : other = ref
    · subst same
      simp [running.alone, found, idle]
    · exact running.pumps other same
  room := by
    intro other index member
    by_cases same : other = ref
    · subst same
      exact absurd member (pumps_eq_zero_iff.mp running.alone index)
    · exact running.room other index same member

/-- The pump is suspended again. -/
theorem Running.launch (running : p.Running ref) {index : Nat}
    (found : p.outgoing[ref]? = some o) (busy : o.pumping = true)
    (bound : index < o.total) (room : o.inFlight.size < p.window) :
    (p.launch ref index o).Paced where
  fits := running.fits
  pumps := by
    intro other
    rw [pumps_launch]
    change _ = if p.outgoing[other]?.any Outgoing.pumping then 1 else 0
    by_cases same : ref = other
    · subst same
      simp [running.alone, found, busy]
    · rw [if_neg same, Nat.add_zero]
      exact running.pumps other (Ne.symm same)
  room := by
    intro other i member
    change ∃ o, p.outgoing[other]? = some o ∧ _
    rcases List.mem_append.mp member with before | new
    · apply running.room other i ?_ before
      rintro rfl
      exact pumps_eq_zero_iff.mp running.alone i before
    · obtain ⟨rfl, rfl⟩ := Prod.mk.inj (List.mem_singleton.mp new)
      exact ⟨o, found, bound, room⟩

/-! ### Without a pump -/

/-- Nothing is sent, and what is known of sending stays right. -/
structure Carries (p p' : Sending) : Prop where
  window : p'.window = p.window
  waiting : p'.waiting = p.waiting
  chunks : p'.chunks = p.chunks
  kept : ∀ ref : Ref,
    Option.Rel Outgoing.Adjusts p.outgoing[ref]? p'.outgoing[ref]?
  paced : p.Paced → p'.Paced

theorem Carries.refl (p : Sending) : p.Carries p where
  window := rfl
  waiting := rfl
  chunks := rfl
  kept := by
    intro ref
    cases p.outgoing[ref]? with
    | none => exact .none
    | some o => exact .some (.refl o)
  paced := fun paced => paced

theorem Carries.of_eq (same : p' = p) : p.Carries p' :=
  same ▸ .refl p

theorem Carries.trans {p₁ p₂ p₃ : Sending} (first : p₁.Carries p₂)
    (second : p₂.Carries p₃) : p₁.Carries p₃ where
  window := second.window.trans first.window
  waiting := second.waiting.trans first.waiting
  chunks := second.chunks.trans first.chunks
  kept := fun ref => rel_trans (first.kept ref) (second.kept ref)
  paced := fun paced => second.paced (first.paced paced)

theorem Carries.setOut (found : p.outgoing[ref]? = some o)
    (eases : o.Eases o') : p.Carries (p.setOut ref o') where
  window := rfl
  waiting := rfl
  chunks := rfl
  kept := kept_setOut found eases.same
  paced := by
    intro paced
    have lookup : ∀ other, (p.setOut ref o').outgoing[other]? =
        if other = ref then some o' else p.outgoing[other]? :=
      getElem?_set_of_some found o'
    constructor
    · intro o₁ member
      rcases List.mem_or_eq_of_mem_set member with before | rfl
      · exact paced.fits o₁ before
      · exact eases.fits (paced.fits o (List.mem_of_getElem? found))
    · intro other
      refine (paced.pumps other).trans ?_
      rw [lookup]
      by_cases same : other = ref
      · simp [same, found, eases.pumping]
      · rw [if_neg same]
    · intro other index member
      obtain ⟨o₁, found₁, bound, room⟩ := paced.room other index member
      rw [lookup]
      split
      · rename_i same
        rw [same, found] at found₁
        obtain rfl := Option.some.inj found₁
        exact ⟨o', rfl, eases.same.total ▸ bound, eases.size.trans_lt room⟩
      · exact ⟨o₁, found₁, bound, room⟩

/-- A transfer nobody pumps yet is allocated. -/
theorem Paced.add (paced : p.Paced) (fits : o.Fits p.window)
    (idle : o.pumping = false) :
    (p.add o).Paced where
  fits := by
    intro o' member
    rcases List.mem_append.mp member with before | new
    · exact paced.fits o' before
    · rw [List.mem_singleton.mp new]
      exact fits
  pumps := by
    intro ref
    refine (paced.pumps ref).trans ?_
    unfold Sending.add
    rcases Nat.lt_trichotomy ref p.outgoing.length with old | new | unused
    · rw [List.getElem?_append_left old]
    · simp [new, idle]
    · rw [List.getElem?_eq_none unused.le,
        List.getElem?_eq_none (by simpa using unused)]
  room := by
    intro ref index member
    obtain ⟨o', found, bounds⟩ := paced.room ref index member
    have inBounds := (List.getElem?_eq_some_iff.mp found).1
    exact ⟨o', (List.getElem?_append_left inBounds).trans found, bounds⟩

end Sending

/-! ## Sections that pump nothing -/

namespace Engine

variable {s s' : Engine} {env : Env}

@[simp] theorem sending_record {call : Call} (quiet : call.chunk? = none) :
    (s.record call).sending = s.sending := by
  simp [sending, record, quiet]

@[simp] theorem sending_publish (bucketId : JSString) :
    (s.publish bucketId).sending = s.sending :=
  sending_record rfl

@[simp] theorem sending_persist (bucketId : JSString) :
    (s.persist bucketId).sending = s.sending :=
  sending_record rfl

@[simp] theorem sending_ensureTimer : s.ensureTimer.sending = s.sending :=
  rfl

@[simp] theorem sending_stopTimerIfIdle :
    s.stopTimerIfIdle.sending = s.sending := by
  unfold stopTimerIfIdle
  split <;> rfl

@[simp] theorem sending_deleteOut (o : Outgoing) :
    (s.deleteOut o).sending = s.sending := by
  unfold deleteOut
  rw [sending_stopTimerIfIdle, sending_persist]
  rfl

@[simp] theorem sending_deleteIn (i : Incoming) :
    (s.deleteIn i).sending = s.sending :=
  sending_stopTimerIfIdle

@[simp] theorem sending_setIn (ref : Ref) (i : Incoming) :
    (s.setIn ref i).sending = s.sending :=
  rfl

@[simp] theorem sending_addIn (i : Incoming) :
    (s.addIn i).sending = s.sending :=
  rfl

@[simp] theorem sending_sendAck (i : Incoming) (resend done : Bool) :
    (s.sendAck env i resend done).sending = s.sending :=
  sending_record rfl

@[simp] theorem sending_sendCancel (bucketId id reason : JSString) :
    (s.sendCancel env bucketId id reason).sending = s.sending :=
  sending_record rfl

@[simp] theorem sending_ackKnown (bucketId id : JSString) :
    (s.ackKnown env bucketId id).sending = s.sending := by
  unfold ackKnown sendCtl
  rw [sending_record rfl, sending_record rfl]

theorem sending_suspend {task : Suspended} (other : task.sending? = none) :
    (s.suspend task).sending = s.sending := by
  simp [sending, suspend, other]

/-- A function that is no pump goes on. -/
theorem sending_unsuspend {pos : Nat} {task : Suspended}
    (waiting : s.suspended[pos]? = some task)
    (other : task.sending? = none) :
    (s.unsuspend pos).sending = s.sending := by
  obtain ⟨inBounds, rfl⟩ := List.getElem?_eq_some_iff.mp waiting
  have whole : s.suspended =
      s.suspended.take pos ++ s.suspended[pos] :: s.suspended.drop (pos + 1) := by
    simp
  have same : (s.suspended.eraseIdx pos).filterMap Suspended.sending? =
      s.suspended.filterMap Suspended.sending? := by
    conv_rhs => rw [whole]
    rw [List.eraseIdx_eq_take_drop_succ, List.filterMap_append,
      List.filterMap_append, List.filterMap_cons_none other]
  simp only [sending, unsuspend, same]

theorem sending_startSend (bucketId : JSString) (payload : OutgoingPayload)
    (resume : Bool) :
    (s.startSend bucketId payload resume).sending = s.sending := by
  unfold startSend
  split
  · rfl
  · split
    · rfl
    · exact sending_suspend rfl

theorem sending_complete (ref : Ref) (i : Incoming) :
    (s.complete ref i).sending = s.sending := by
  unfold complete
  split
  · rfl
  · rfl
  · exact sending_suspend rfl

theorem sending_fill (ref : Ref) (i : Incoming)
    (c : TransferChunkPlainMessage Time) :
    (s.fill env ref i c).sending = s.sending := by
  unfold fill
  split
  · rfl
  · dsimp only
    split
    · exact sending_complete ref _
    · split <;> simp

theorem sending_handleQuery (bucketId id : JSString) :
    (s.handleQuery env bucketId id).sending = s.sending := by
  unfold handleQuery
  split
  · split
    · rfl
    · simp
  · split
    · exact sending_ackKnown bucketId id
    · exact sending_record rfl

theorem sending_handleChunk (bucketId : JSString)
    (c : TransferChunkPlainMessage Time) :
    (s.handleChunk env bucketId c).sending = s.sending := by
  unfold handleChunk
  split
  · split
    · rfl
    · exact sending_fill _ _ c
  · split
    · rfl
    · split
      · exact sending_ackKnown bucketId c.id
      · dsimp only
        split
        · exact sending_sendCancel _ _ _
        · rw [sending_fill]
          split
          · exact sending_suspend rfl
          · rfl

theorem sending_storageChecked (ref : Ref) (ok : Bool) :
    (s.storageChecked env ref ok).sending = s.sending := by
  unfold storageChecked
  split
  · rfl
  · split
    · rfl
    · simp

theorem sending_hashed (ref : Ref) (data : Bytes) (offset : Nat)
    (sha : JSString) :
    (s.hashed env ref data offset sha).sending = s.sending := by
  unfold hashed
  split
  · rfl
  · split
    · rfl
    · split
      · dsimp only
        split <;> simp
      · rw [sending_suspend rfl, sending_record rfl]

theorem sending_stored (ref : Ref) (ok : Bool) :
    (s.stored env ref ok).sending = s.sending := by
  unfold stored
  split
  · rfl
  · split
    · rw [sending_publish, sending_sendAck, sending_deleteIn,
        sending_record rfl]
    · simp

theorem sending_drop (bucketId id : JSString) :
    (s.drop bucketId id).1.sending = s.sending := by
  unfold drop
  dsimp only
  split <;> split <;> simp

theorem sending_cancel (bucketId id : JSString) :
    (s.cancel env bucketId id).sending = s.sending := by
  have dropped := sending_drop (s := s) bucketId id
  unfold cancel
  split
  · rename_i s₁ result
    rw [result] at dropped
    rw [sending_publish, sending_sendCancel, dropped]
  · rename_i s₁ result
    rw [result] at dropped
    exact dropped

theorem sending_forget (bucketId id : JSString) :
    (s.forget bucketId id).sending = s.sending := by
  have dropped := sending_drop (s := s) bucketId id
  unfold forget
  split
  · rename_i s₁ result
    rw [result] at dropped
    rw [sending_publish, dropped]
  · rename_i s₁ result
    rw [result] at dropped
    exact dropped

theorem sending_clearBucket (bucketId : JSString) (forgetPending : Bool) :
    (s.clearBucket bucketId forgetPending).sending = s.sending := by
  unfold clearBucket
  dsimp only
  rw [sending_record rfl, sending_stopTimerIfIdle]
  split
  · exact sending_record rfl
  · rfl

/-! ### The receiver's part of a section -/

theorem sending_eachIn {visit : Ref → Incoming → Engine → Engine}
    (same : ∀ ref i s, (visit ref i s).sending = s.sending)
    (refs : List Ref) : (s.eachIn refs visit).sending = s.sending :=
  eachIn_rule (P := fun next => next.sending = s.sending)
    (fun before _ => (same _ _ _).trans before) refs rfl

theorem sending_tickIn (ref : Ref) (i : Incoming) :
    (s.tickIn env ref i).1.sending = s.sending := by
  unfold tickIn
  split
  · rfl
  · split
    · split
      · exact sending_deleteIn i
      · rfl
    · split
      · rfl
      · dsimp only
        split
        · split <;> rfl
        · split
          · rfl
          · simp

theorem out_stopTimerIfIdle : s.stopTimerIfIdle.out = s.out := by
  unfold stopTimerIfIdle
  split <;> rfl

theorem out_tickIn (ref : Ref) (i : Incoming) :
    (s.tickIn env ref i).1.out = s.out := by
  unfold tickIn
  split
  · rfl
  · split
    · split
      · exact out_stopTimerIfIdle
      · rfl
    · split
      · rfl
      · dsimp only
        split
        · split <;> rfl
        · split <;> rfl

/-! ### Asking about a transfer -/

theorem query_carries {ref : Ref} {o o' : Outgoing}
    (found : s.outgoing[ref]? = some o) (eases : o.Eases o') :
    s.sending.Carries (s.query env ref o').sending := by
  have asked : o'.Eases { o' with lastActivityAt := env.now } :=
    .of_schedule rfl
  have waits : o'.Eases
      { o' with lastActivityAt := env.now, status := .waiting } :=
    .of_schedule rfl
  unfold query
  dsimp only
  split
  · apply (Sending.Carries.setOut found (eases.trans asked)).trans
    exact .of_eq (sending_record rfl)
  · exact .setOut found (eases.trans waits)

theorem eachOut_carries {visit : Ref → Outgoing → Engine → Engine}
    (visits : ∀ {s : Engine} {ref : Ref} {o : Outgoing},
      s.outgoing[ref]? = some o →
        s.sending.Carries (visit ref o s).sending) (refs : List Ref) :
    s.sending.Carries (s.eachOut refs visit).sending :=
  eachOut_rule (P := fun next => s.sending.Carries next.sending)
    (fun before found => before.trans (visits found)) refs (.refl _)

theorem onConnected_carries (bucketId : JSString) :
    s.sending.Carries (s.onConnected env bucketId).sending := by
  unfold onConnected
  rw [sending_publish, sending_eachIn]
  · apply eachOut_carries
    intro s ref o found
    exact query_carries found (.of_cleared rfl fun _ queued => queued)
  · intro ref i s
    split
    · rfl
    · dsimp only
      split <;> simp

theorem onDisconnected_carries (bucketId : JSString) :
    s.sending.Carries (s.onDisconnected bucketId).sending := by
  unfold onDisconnected
  rw [sending_publish, sending_eachIn]
  · apply eachOut_carries
    intro s ref o found
    split
    · exact .refl _
    · exact .setOut found (.of_cleared rfl fun _ queued => queued)
  · intro ref i s
    split <;> rfl

theorem retry_carries (bucketId id : JSString) :
    s.sending.Carries (s.retry env bucketId id).sending := by
  unfold retry
  rw [sending_publish, sending_ensureTimer]
  dsimp only
  cases listed : s.findOut bucketId id with
  | none =>
      apply Sending.Carries.of_eq
      dsimp only
      split
      · rfl
      · split
        · rfl
        · simp
  | some pair =>
      have found := (findOut_eq_some_iff.mp listed).2
      have eases : pair.2.Eases { pair.2 with
          attempts := 0, status := .active, detail := none,
          inFlight := .empty } :=
        .of_cleared rfl fun _ queued => queued
      have asked : s.sending.Carries (s.query env pair.1 { pair.2 with
          attempts := 0, status := .active, detail := none,
          inFlight := .empty }).sending := query_carries found eases
      apply asked.trans
      apply Sending.Carries.of_eq
      dsimp only
      split
      · rfl
      · split
        · rfl
        · simp

theorem handleCancel_carries (bucketId : JSString)
    (msg : TransferCancelPlainMessage Time) :
    s.sending.Carries (s.handleCancel bucketId msg).sending := by
  unfold handleCancel
  cases listed : s.findOut bucketId msg.id with
  | none =>
      apply Sending.Carries.of_eq
      dsimp only
      split <;> split <;> simp
  | some pair =>
      have found := (findOut_eq_some_iff.mp listed).2
      have eases : pair.2.Eases { pair.2 with
          status := .failed, detail := some (cancelDetail msg.reason),
          inFlight := .empty, queue := [] } :=
        .of_cleared rfl (by simp)
      apply (Sending.Carries.setOut found eases).trans
      apply Sending.Carries.of_eq
      dsimp only
      split <;> split <;> first | rfl | simp; rfl

/-! ## Pumps -/

/-- The transfer at a reference is the one its room lists. -/
def Lists (s : Engine) (ref : Ref) : Prop :=
  ∃ o, s.outgoing[ref]? = some o ∧ s.isLiveOut ref o = true

/-- Some pumps have each sent a chunk and are suspended. -/
structure Starts (started : List (Ref × Nat)) (s s' : Engine) : Prop where
  out : s'.out = s.out
  waiting : s'.sending.waiting = s.sending.waiting ++ started
  chunks : s'.sending.chunks =
    s.sending.chunks ++ started.filterMap s.sending.chunkOf
  kept : ∀ ref : Ref,
    Option.Rel Outgoing.Adjusts s.outgoing[ref]? s'.outgoing[ref]?
  listed : ∀ pump ∈ started, s.Lists pump.1

theorem Lists.of_kept {ref : Ref} (listed : s.Lists ref)
    (out : s'.out = s.out)
    (kept : Option.Rel Outgoing.Adjusts s.outgoing[ref]? s'.outgoing[ref]?) :
    s'.Lists ref := by
  obtain ⟨o, found, live⟩ := listed
  rw [found] at kept
  generalize after : s'.outgoing[ref]? = o' at kept
  cases kept with
  | some adjusts =>
      refine ⟨_, after, ?_⟩
      rw [isLiveOut, adjusts.bucketId, adjusts.id, out]
      exact live

theorem Lists.before_kept {ref : Ref} (listed : s'.Lists ref)
    (out : s'.out = s.out)
    (kept : Option.Rel Outgoing.Adjusts s.outgoing[ref]? s'.outgoing[ref]?) :
    s.Lists ref := by
  obtain ⟨o', found, live⟩ := listed
  rw [found] at kept
  generalize before : s.outgoing[ref]? = o at kept
  cases kept with
  | some adjusts =>
      refine ⟨_, before, ?_⟩
      rw [isLiveOut, ← adjusts.bucketId, ← adjusts.id, ← out]
      exact live

theorem Starts.of_carries (carries : s.sending.Carries s'.sending)
    (out : s'.out = s.out) : Starts [] s s' where
  out := out
  waiting := by simp [carries.waiting]
  chunks := by simp [carries.chunks]
  kept := carries.kept
  listed := by simp

theorem Starts.trans {s₁ s₂ s₃ : Engine} {first second : List (Ref × Nat)}
    (before : Starts first s₁ s₂) (after : Starts second s₂ s₃) :
    Starts (first ++ second) s₁ s₃ where
  out := after.out.trans before.out
  waiting := by
    rw [after.waiting, before.waiting, List.append_assoc]
  chunks := by
    have same : s₂.sending.chunkOf = s₁.sending.chunkOf := by
      funext pump
      exact Sending.chunkOf_of_kept (before.kept pump.1)
    rw [after.chunks, before.chunks, same, List.filterMap_append,
      List.append_assoc]
  kept := fun ref => rel_trans (before.kept ref) (after.kept ref)
  listed := by
    intro pump member
    rcases List.mem_append.mp member with here | later
    · exact before.listed pump here
    · exact (after.listed pump later).before_kept before.out
        (before.kept pump.1)

/-- Part of a section that may pump, and leaves the engine paced. -/
structure Pumps (s s' : Engine) : Prop where
  starts : ∃ started, Starts started s s'
  window : s'.sending.window = s.sending.window
  paced : s.sending.Paced → s'.sending.Paced

theorem Pumps.of_carries (carries : s.sending.Carries s'.sending)
    (out : s'.out = s.out) : s.Pumps s' where
  starts := ⟨[], .of_carries carries out⟩
  window := carries.window
  paced := carries.paced

theorem Pumps.refl (s : Engine) : s.Pumps s :=
  .of_carries (.refl _) rfl

theorem Pumps.trans {s₁ s₂ s₃ : Engine} (first : s₁.Pumps s₂)
    (second : s₂.Pumps s₃) : s₁.Pumps s₃ where
  starts := by
    obtain ⟨before, starts⟩ := first.starts
    obtain ⟨after, goesOn⟩ := second.starts
    exact ⟨before ++ after, starts.trans goesOn⟩
  window := second.window.trans first.window
  paced := fun paced => second.paced (first.paced paced)

end Engine

/-- A pump only sends for a listed transfer, and with room for the chunk. -/
theorem Outgoing.pumpLoop_sends {window : Nat} {live canSend : Bool}
    {o o' : Outgoing} {queue : List Nat} {index : Nat}
    (sends : o.pumpLoop window live canSend queue = (o', some index)) :
    live = true ∧ o.inFlight.size < window := by
  induction queue with
  | nil => simp [pumpLoop] at sends
  | cons head queue induction =>
      unfold pumpLoop at sends
      split at sends
      · rename_i goesOn
        exact ⟨goesOn.2.1, goesOn.2.2⟩
      · simp at sends

namespace Engine

variable {s s' : Engine} {env : Env}

theorem sending_setOut (ref : Ref) (o : Outgoing) :
    (s.setOut ref o).sending = s.sending.setOut ref o :=
  rfl

theorem sending_launch (ref : Ref) (index : Nat) (o : Outgoing) :
    ((s.record (.send o.bucketId (.xferChunk (o.chunk index)))).suspend
      (.send ref index)).sending = s.sending.launch ref index o := by
  simp [sending, suspend, record, Sending.launch, Suspended.sending?,
    Call.chunk?]

/-- A pump that has been entered leaves, or sends a chunk and waits. -/
theorem pumpOn_starts {ref : Ref} {o o' : Outgoing}
    (found : s.outgoing[ref]? = some o) (adjusts : o.Adjusts o') :
    ∃ started, Starts started s (s.pumpOn env ref o') := by
  have pumped := o'.pumpLoop_pumped s.limits.window (s.isLiveOut ref o')
    (env.canSend o'.bucketId) o'.queue
  unfold pumpOn
  split
  · rename_i o₁ index result
    rw [result] at pumped
    have live := (Outgoing.pumpLoop_sends result).1
    have sent : o.Adjusts o₁ := adjusts.trans pumped.adjusts
    refine ⟨[(ref, index)], rfl, ?_, ?_, ?_, ?_⟩
    · rw [sending_launch]
      rfl
    · have chunk : s.sending.chunkOf (ref, index) =
          some (o₁.bucketId, o₁.chunk index) := by
        simp [Sending.chunkOf, sending, found, sent.bucketId, sent.chunk]
      rw [sending_launch, List.filterMap_cons_some chunk]
      rfl
    · exact Sending.kept_setOut (p := s.sending) found sent
    · intro pump member
      rw [List.mem_singleton.mp member]
      refine ⟨o, found, ?_⟩
      rw [isLiveOut, adjusts.bucketId, adjusts.id] at live
      exact live
  · rename_i o₁ result
    rw [result] at pumped
    have left : o.Adjusts { o₁ with pumping := false } :=
      (adjusts.trans pumped.adjusts).trans (.of_schedule rfl rfl rfl rfl rfl
        rfl (fun _ queued => queued) fun _ absent => absent)
    have kept := Sending.kept_setOut (p := s.sending) found left
    refine ⟨[], rfl, ?_, ?_, kept, by simp⟩
    · rw [sending_publish, List.append_nil]
      rfl
    · rw [sending_publish, List.filterMap_nil, List.append_nil]
      rfl

theorem pumpOn_paced {ref : Ref} {o o' : Outgoing}
    (found : s.outgoing[ref]? = some o)
    (running : s.sending.Running ref) (fits : o'.Fits s.limits.window)
    (busy : o'.pumping = true) : (s.pumpOn env ref o').sending.Paced := by
  have pumped := o'.pumpLoop_pumped s.limits.window (s.isLiveOut ref o')
    (env.canSend o'.bucketId) o'.queue
  have lookup : ∀ o₁, (s.sending.setOut ref o₁).outgoing[ref]? = some o₁ := by
    intro o₁
    exact (getElem?_set_of_some found o₁ ref).trans (if_pos rfl)
  have stays : ∀ {o₁ sent}, o'.Pumped o'.queue o₁ sent →
      o₁.Fits s.limits.window := by
    intro o₁ sent pumped
    obtain ⟨-, -, -, -, total, acked, inFlight⟩ := pumped.identity
    apply fits.of_fewer total acked pumped.queued
    · rw [inFlight]
    · rw [inFlight]
      exact fun _ flies => flies
  unfold pumpOn
  split
  · rename_i o₁ index result
    rw [result] at pumped
    have room := (Outgoing.pumpLoop_sends result).2
    obtain ⟨-, -, -, -, total, acked, inFlight⟩ := pumped.identity
    have chosen := (pumped.chosen index rfl).1
    rw [sending_launch, sending_setOut]
    apply (running.setOut (stays pumped)).launch (lookup o₁)
    · have same := congrArg Outgoing.pumping pumped.rest
      exact Eq.trans same busy
    · exact total ▸ fits.queued index chosen
    · exact inFlight ▸ room
  · rename_i o₁ result
    rw [result] at pumped
    have left : ({ o₁ with pumping := false } : Outgoing).Fits
        s.limits.window :=
      (stays pumped).of_fewer rfl rfl (fun _ queued => queued) le_rfl
        fun _ flies => flies
    rw [sending_publish, sending_setOut]
    exact (running.setOut left).left (lookup _) rfl

theorem window_pumpOn (ref : Ref) (o : Outgoing) :
    (s.pumpOn env ref o).sending.window = s.sending.window := by
  unfold pumpOn
  split <;> rfl

theorem pump_pumps (ref : Ref) : s.Pumps (s.pump env ref) := by
  unfold pump
  split
  · exact .refl s
  · rename_i o found
    split
    · exact .refl s
    · rename_i idle
      rw [Bool.not_eq_true] at idle
      have adjusts : o.Adjusts { o with pumping := true } :=
        .of_schedule rfl rfl rfl rfl rfl rfl (fun _ queued => queued)
          fun _ absent => absent
      refine ⟨pumpOn_starts found adjusts, window_pumpOn ref _, ?_⟩
      intro paced
      apply pumpOn_paced found (paced.running found idle) ?_ rfl
      exact (paced.fits o (List.mem_of_getElem? found)).of_fewer rfl rfl
        (fun _ queued => queued) le_rfl fun _ flies => flies

/-! ### A pump goes on -/

theorem unsuspend_perm {pos : Nat} {ref : Ref} {index : Nat}
    (waiting : s.suspended[pos]? = some (.send ref index)) :
    s.sending.waiting.Perm
      ((ref, index) :: (s.unsuspend pos).sending.waiting) := by
  obtain ⟨inBounds, here⟩ := List.getElem?_eq_some_iff.mp waiting
  have split := List.getElem_cons_eraseIdx_perm inBounds
  rw [here] at split
  exact (split.filterMap Suspended.sending?).symm

/-- Once a pump goes on, it is the only one of its transfer. -/
theorem unsuspend_running {pos : Nat} {ref : Ref} {index : Nat}
    (paced : s.sending.Paced)
    (waiting : s.suspended[pos]? = some (.send ref index)) :
    (s.unsuspend pos).sending.Running ref ∧
      ∃ o, s.outgoing[ref]? = some o ∧ o.pumping = true ∧
        index < o.total ∧ o.inFlight.size < s.limits.window := by
  have perm := unsuspend_perm waiting
  have member : (ref, index) ∈ s.sending.waiting :=
    perm.mem_iff.mpr List.mem_cons_self
  have counted : ∀ other, s.sending.pumps other =
      (s.unsuspend pos).sending.pumps other +
        if ref = other then 1 else 0 := by
    intro other
    unfold Sending.pumps
    rw [perm.countP_eq, List.countP_cons]
    simp
  obtain ⟨o, found, bound, room⟩ := paced.room ref index member
  have one := counted ref
  rw [if_pos rfl, paced.pumps ref] at one
  have busy : o.pumping = true := by
    by_contra idle
    simp [found, idle] at one
  rw [found, Option.any_some, if_pos busy] at one
  refine ⟨⟨paced.fits, by omega, ?_, ?_⟩, o, found, busy, bound, room⟩
  · intro other different
    have same := counted other
    rw [if_neg different.symm, Nat.add_zero] at same
    exact same.symm.trans (paced.pumps other)
  · intro other i _ member
    exact paced.room other i
      (perm.mem_iff.mpr (List.mem_cons_of_mem _ member))

/-- The chunk that has been sent is in flight, unless it is acked already. -/
theorem fits_landed {window : Nat} {o : Outgoing} {index : Nat}
    (fits : o.Fits window) (now : Time) (bound : index < o.total)
    (room : o.inFlight.size < window) :
    Outgoing.Fits window { o with
      lastActivityAt := now
      inFlight := if index ∈ o.acked then o.inFlight
        else o.inFlight.set index now } where
  toWellFormed := Outgoing.Adjusts.landed.wellFormed fits.toWellFormed
  size := by
    dsimp only
    split
    · exact fits.size
    · exact (InsertionMap.size_set_le _ _ _).trans room
  flying := by
    intro i
    dsimp only
    split
    · exact fits.flying i
    · rw [InsertionMap.contains_set, Bool.or_eq_true, decide_eq_true_eq]
      rintro (rfl | flies)
      · exact bound
      · exact fits.flying i flies
  acked := fits.acked

theorem pumpSent_paced {pos : Nat} {ref : Ref} {index : Nat} {ok : Bool}
    (paced : s.sending.Paced)
    (waiting : s.suspended[pos]? = some (.send ref index)) :
    ((s.unsuspend pos).pumpSent env ref index ok).sending.Paced := by
  obtain ⟨running, o, found, busy, bound, room⟩ :=
    unsuspend_running paced waiting
  have fits : o.Fits s.limits.window :=
    paced.fits o (List.mem_of_getElem? found)
  have found' : (s.unsuspend pos).outgoing[ref]? = some o := found
  have lookup : ∀ o₁,
      ((s.unsuspend pos).sending.setOut ref o₁).outgoing[ref]? = some o₁ := by
    intro o₁
    exact (getElem?_set_of_some found o₁ ref).trans (if_pos rfl)
  unfold pumpSent
  rw [found']
  dsimp only
  split
  · have left : ({ o with pumping := false } : Outgoing).Fits
        s.limits.window :=
      fits.of_fewer rfl rfl (fun _ queued => queued) le_rfl
        fun _ flies => flies
    exact (running.setOut left).left (lookup _) rfl
  · split
    · have requeued : ({ o with
          queue := index :: o.queue
          status := .waiting
          pumping := false } : Outgoing).Fits s.limits.window := by
        have adjusts := Outgoing.Adjusts.requeued bound
        exact ⟨adjusts.wellFormed fits.toWellFormed, fits.size, fits.flying,
          fits.acked⟩
      rw [sending_publish, sending_setOut]
      exact (running.setOut requeued).left (lookup _) rfl
    · exact pumpOn_paced found' running
        (fits_landed fits env.now bound room) busy

theorem Starts.setOut {ref : Ref} {o o' : Outgoing}
    (found : s.outgoing[ref]? = some o) (adjusts : o.Adjusts o') :
    Starts [] s (s.setOut ref o') where
  out := rfl
  waiting := (List.append_nil _).symm
  chunks := (List.append_nil _).symm
  kept := Sending.kept_setOut (p := s.sending) found adjusts
  listed := by simp

theorem Starts.publish {started : List (Ref × Nat)}
    (starts : Starts started s s') (bucketId : JSString) :
    Starts started s (s'.publish bucketId) where
  out := starts.out
  waiting := by
    rw [sending_publish]
    exact starts.waiting
  chunks := by
    rw [sending_publish]
    exact starts.chunks
  kept := starts.kept
  listed := starts.listed

theorem pumpSent_starts {ref : Ref} {index : Nat} {ok : Bool} {o : Outgoing}
    (found : s.outgoing[ref]? = some o) (bound : index < o.total) :
    ∃ started, Starts started s (s.pumpSent env ref index ok) := by
  unfold pumpSent
  rw [found]
  dsimp only
  split
  · refine ⟨[], .setOut found ?_⟩
    exact .of_schedule rfl rfl rfl rfl rfl rfl (fun _ queued => queued)
      fun _ absent => absent
  · split
    · exact ⟨[], Starts.publish (.setOut found (.requeued bound)) _⟩
    · exact pumpOn_starts found .landed

/-! ### A tick -/

theorem out_query (ref : Ref) (o : Outgoing) :
    (s.query env ref o).out = s.out := by
  unfold query
  dsimp only
  split <;> rfl

theorem tickOut_pumps {ref : Ref} {o : Outgoing}
    (found : s.outgoing[ref]? = some o) :
    s.Pumps (s.tickOut env ref o).1 := by
  unfold tickOut
  split
  · exact .refl s
  · split
    · split
      · exact .of_carries (query_carries found (.of_schedule rfl))
          (out_query ref _)
      · exact .refl s
    · split
      · exact pump_pumps ref
      · split
        · exact .refl s
        · dsimp only
          split
          · have gives : o.Eases { o with
                attempts := o.attempts + 1
                status := .failed
                detail := some "Partner not responding"
                inFlight := .empty } :=
              .of_cleared rfl fun _ queued => queued
            exact .of_carries (.setOut found gives) rfl
          · exact .of_carries (query_carries found (.of_schedule rfl))
              (out_query ref _)

theorem visitOut_pumps (env : Env) (refs : List Ref)
    (visited : Engine × List JSString) :
    visited.1.Pumps (refs.foldl (visitOut env) visited).1 := by
  induction refs generalizing visited with
  | nil => exact .refl _
  | cons ref refs induction =>
      refine Pumps.trans ?_ (induction _)
      obtain ⟨s, touched⟩ := visited
      simp only [visitOut]
      split
      · rename_i o found
        rw [touch_fst]
        exact tickOut_pumps found
      · exact .refl s

theorem visitIn_sends (refs : List Ref)
    (visited : Engine × List JSString) :
    (refs.foldl (visitIn env) visited).1.sending = visited.1.sending ∧
      (refs.foldl (visitIn env) visited).1.out = visited.1.out := by
  induction refs generalizing visited with
  | nil => exact ⟨rfl, rfl⟩
  | cons ref refs induction =>
      obtain ⟨s, touched⟩ := visited
      have visit : (visitIn env (s, touched) ref).1.sending = s.sending ∧
          (visitIn env (s, touched) ref).1.out = s.out := by
        simp only [visitIn]
        split
        · rw [touch_fst]
          exact ⟨sending_tickIn ref _, out_tickIn ref _⟩
        · exact ⟨rfl, rfl⟩
      obtain ⟨sending, out⟩ := induction (visitIn env (s, touched) ref)
      exact ⟨sending.trans visit.1, out.trans visit.2⟩

theorem publishAll_sends (rooms : List JSString) (s : Engine) :
    (rooms.foldl (fun s bucketId => s.publish bucketId) s).sending =
        s.sending ∧
      (rooms.foldl (fun s bucketId => s.publish bucketId) s).out = s.out := by
  induction rooms generalizing s with
  | nil => exact ⟨rfl, rfl⟩
  | cons bucketId rooms induction =>
      obtain ⟨sending, out⟩ := induction (s.publish bucketId)
      exact ⟨sending.trans (sending_publish bucketId), out⟩

theorem tick_pumps : s.Pumps (s.tick env) := by
  have sent := visitOut_pumps env s.out.allRefs (s, [])
  unfold tick
  dsimp only
  refine sent.trans (.of_carries (.of_eq ?_) ?_)
  · rw [(publishAll_sends _ _).1, (visitIn_sends _ _).1]
  · rw [(publishAll_sends _ _).2, (visitIn_sends _ _).2]

/-! ## Sections -/

/-- The engine once the function that an event continues is taken out. -/
def resuming (s : Engine) : Event → Engine
  | .settle pos _ => s.unsuspend pos
  | _ => s

/-- Every chunk sent has its own pump that now waits, and the transfer of that
pump is listed now, and was before if there was one. -/
def SendsListed (s s' : Engine) : Prop :=
  ∃ started,
    s'.sending.waiting = s.sending.waiting ++ started ∧
    s'.sending.chunks =
      s.sending.chunks ++ started.filterMap s'.sending.chunkOf ∧
    ∀ pump ∈ started,
      s'.Lists pump.1 ∧ (pump.1 < s.outgoing.length → s.Lists pump.1)

theorem Starts.chunkOf_eq {started : List (Ref × Nat)}
    (starts : Starts started s s') :
    s'.sending.chunkOf = s.sending.chunkOf := by
  funext pump
  exact Sending.chunkOf_of_kept (starts.kept pump.1)

theorem Starts.sendsListed {started : List (Ref × Nat)}
    (starts : Starts started s s') : s.SendsListed s' := by
  refine ⟨started, starts.waiting, ?_, fun pump member => ?_⟩
  · rw [starts.chunkOf_eq]
    exact starts.chunks
  · have listed := starts.listed pump member
    exact ⟨listed.of_kept starts.out (starts.kept pump.1), fun _ => listed⟩

theorem sendsListed_of_carries (carries : s.sending.Carries s'.sending) :
    s.SendsListed s' := by
  refine ⟨[], ?_, ?_, by simp⟩
  · rw [carries.waiting, List.append_nil]
  · rw [carries.chunks, List.filterMap_nil, List.append_nil]

/-- A transfer that is listed after another one has been added was before. -/
theorem Lists.of_addOut {ref : Ref} {o : Outgoing}
    (listed : (s.addOut o).Lists ref) (old : ref < s.outgoing.length) :
    s.Lists ref := by
  obtain ⟨o₁, found, live⟩ := listed
  simp only [addOut, List.getElem?_append_left old] at found
  refine ⟨o₁, found, ?_⟩
  simp only [isLiveOut, addOut, Rooms.find_put, decide_eq_true_eq] at live ⊢
  split at live
  · exact absurd (Option.some.inj live) old.ne'
  · exact live

/-- What a section that an event starts does for the pumps. -/
structure Paces (s : Engine) (event : Event) (s' : Engine) : Prop where
  window : s'.sending.window = s.sending.window
  paced : s.sending.Paced → s'.sending.Paced
  sends : s.sending.Paced → (s.resuming event).SendsListed s'

theorem Paces.of_carries {event : Event}
    (other : (s.resuming event).sending = s.sending)
    (carries : s.sending.Carries s'.sending) : s.Paces event s' where
  window := carries.window
  paced := carries.paced
  sends := by
    rw [← other] at carries
    exact fun _ => sendsListed_of_carries carries

theorem Paces.of_eq {event : Event}
    (other : (s.resuming event).sending = s.sending)
    (same : s'.sending = s.sending) : s.Paces event s' :=
  .of_carries other (.of_eq same)

theorem Paces.of_pumps {event : Event} (fresh : s.resuming event = s)
    (pumps : s.Pumps s') : s.Paces event s' where
  window := pumps.window
  paced := pumps.paced
  sends := by
    intro _
    obtain ⟨_, starts⟩ := pumps.starts
    rw [fresh]
    exact starts.sendsListed

theorem Pumps.publish (pumps : s.Pumps s') (bucketId : JSString) :
    s.Pumps (s'.publish bucketId) :=
  pumps.trans (.of_carries (.of_eq (sending_publish bucketId)) rfl)

theorem fits_open (window : Nat) (now : Time) (sha256 bucketId : JSString)
    (payload : OutgoingPayload) (resume : Bool) :
    (Outgoing.open now sha256 bucketId payload resume).Fits window where
  queued := by
    intro index queued
    simp only [Outgoing.open] at queued
    split at queued
    · simp at queued
    · exact List.mem_range.mp queued
  apart := by simp [Outgoing.open]
  size := Nat.zero_le _
  flying := by simp [Outgoing.open]
  acked := by simp [Outgoing.open]

/-- Registering a transfer adds it before anything is asked or sent. -/
theorem register_sends (env : Env) (sha256 bucketId : JSString)
    (payload : OutgoingPayload) (resume : Bool) :
    (s.register env sha256 bucketId payload resume).sending.window =
        s.sending.window ∧
      (s.sending.Paced →
        (s.register env sha256 bucketId payload resume).sending.Paced) ∧
      s.SendsListed (s.register env sha256 bucketId payload resume) := by
  unfold register
  dsimp only
  set o := Outgoing.open env.now sha256 bucketId payload resume with opened
  set added := (s.addOut o).persist bucketId |>.ensureTimer with addedEq
  have sends : added.sending = s.sending.add o := by
    rw [addedEq, sending_ensureTimer, sending_persist]
    rfl
  have found : added.outgoing[s.outgoing.length]? = some o := by
    simp [addedEq, ensureTimer, persist, record, addOut]
  have asked : added.Pumps (if resume then added.query env s.outgoing.length o
      else added.pump env s.outgoing.length) := by
    split
    · exact .of_carries (query_carries found (.of_schedule rfl))
        (out_query _ _)
    · exact pump_pumps _
  have pumps := asked.publish bucketId
  refine ⟨?_, fun paced => ?_, ?_⟩
  · have window := congrArg Sending.window sends
    exact pumps.window.trans window
  · apply pumps.paced
    rw [sends]
    exact paced.add (fits_open _ _ _ _ _ _) rfl
  · obtain ⟨started, starts⟩ := pumps.starts
    refine ⟨started, ?_, ?_, fun pump member => ?_⟩
    · have waiting := starts.waiting
      rw [sends] at waiting
      exact waiting
    · have chunks := starts.chunks
      rw [← starts.chunkOf_eq, sends] at chunks
      exact chunks
    · have listed := starts.listed pump member
      exact ⟨listed.of_kept starts.out (starts.kept pump.1),
        Lists.of_addOut (o := o) listed⟩

theorem window_pumpSent (ref : Ref) (index : Nat) (ok : Bool) :
    (s.pumpSent env ref index ok).sending.window = s.sending.window := by
  unfold pumpSent
  split
  · rfl
  · split
    · rfl
    · split
      · rfl
      · exact window_pumpOn ref _

/-- A suspended function goes on. -/
theorem settle_paces (sha256 : Bytes → JSString) {pos : Nat} {ok : Bool}
    {task : Suspended} (waiting : s.suspended[pos]? = some task) :
    s.Paces (.settle pos ok)
      ((s.unsuspend pos).settle sha256 env ok task) := by
  cases task with
  | hashPayload bucketId payload resume =>
      have other := sending_unsuspend waiting rfl
      obtain ⟨window, paced, sends⟩ := register_sends
        (s := s.unsuspend pos) env (sha256 payload.data) bucketId payload
        resume
      rw [other] at window paced
      exact ⟨window, paced, fun _ => sends⟩
  | send ref index =>
      refine ⟨window_pumpSent ref index ok, fun paced => ?_, fun paced => ?_⟩
      · exact pumpSent_paced paced waiting
      · obtain ⟨-, o, found, -, bound, -⟩ := unsuspend_running paced waiting
        obtain ⟨_, starts⟩ := pumpSent_starts (s := s.unsuspend pos)
          found bound
        exact starts.sendsListed
  | hashData ref data offset =>
      have other := sending_unsuspend waiting rfl
      exact .of_eq other ((sending_hashed ref data offset _).trans other)
  | deliver ref =>
      have other := sending_unsuspend waiting rfl
      exact .of_eq other ((sending_stored ref ok).trans other)
  | storage ref =>
      have other := sending_unsuspend waiting rfl
      exact .of_eq other ((sending_storageChecked ref ok).trans other)

theorem handleAck_paces (bucketId : JSString)
    (ack : TransferAckPlainMessage Time) :
    s.Paces (.handleAck bucketId ack) (s.handleAck env bucketId ack) := by
  unfold handleAck
  split
  · split
    · exact .of_eq rfl (sending_sendCancel _ _ _)
    · exact .of_eq rfl rfl
  · rename_i ref o listed
    split
    · apply Paces.of_eq rfl
      rw [sending_record rfl, sending_publish, sending_deleteOut]
    · have found := (findOut_eq_some_iff.mp listed).2
      have applied : s.Pumps (s.setOut ref
          (applyAck env s.limits.stallMs ack o)) :=
        .of_carries (.setOut found (applyAck_eases _ _ _ _)) rfl
      exact .of_pumps rfl ((applied.publish bucketId).trans (pump_pumps ref))

/-- What one section does, whatever starts it. -/
theorem step_paces {sha256 : Bytes → JSString} {event : Event}
    (stepped : s.step sha256 env event = some s') : s.Paces event s' := by
  cases event with
  | settle pos ok =>
      obtain ⟨task, waiting, rfl⟩ := Option.map_eq_some_iff.mp stepped
      exact settle_paces sha256 waiting
  | startSend bucketId payload resume =>
      cases stepped
      exact .of_eq rfl (sending_startSend bucketId payload resume)
  | handleAck bucketId ack =>
      cases stepped
      exact handleAck_paces bucketId ack
  | handleCancel bucketId msg =>
      cases stepped
      exact .of_carries rfl (handleCancel_carries bucketId msg)
  | handleQuery bucketId id =>
      cases stepped
      exact .of_eq rfl (sending_handleQuery bucketId id)
  | handleChunk bucketId c =>
      cases stepped
      exact .of_eq rfl (sending_handleChunk bucketId c)
  | onConnected bucketId =>
      cases stepped
      exact .of_carries rfl (onConnected_carries bucketId)
  | onDisconnected bucketId =>
      cases stepped
      exact .of_carries rfl (onDisconnected_carries bucketId)
  | retry bucketId id =>
      cases stepped
      exact .of_carries rfl (retry_carries bucketId id)
  | cancel bucketId id =>
      cases stepped
      exact .of_eq rfl (sending_cancel bucketId id)
  | forget bucketId id =>
      cases stepped
      exact .of_eq rfl (sending_forget bucketId id)
  | clearBucket bucketId forgetPending =>
      cases stepped
      exact .of_eq rfl (sending_clearBucket bucketId forgetPending)
  | clearAll =>
      cases stepped
      exact .of_eq rfl sending_stopTimerIfIdle
  | tick =>
      cases stepped
      exact .of_pumps rfl tick_pumps

/-! ## Runs -/

theorem new_paced (limits : TransferLimits) (checksStorage : Bool) :
    (Engine.new limits checksStorage).sending.Paced where
  fits := by simp [Engine.new, sending]
  pumps := by simp [Engine.new, sending, Sending.pumps]
  room := by simp [Engine.new, sending]

theorem paced_of_reachable {sha256 : Bytes → JSString}
    {limits : TransferLimits} {checksStorage : Bool}
    (reachable : (Engine.system sha256 limits checksStorage).Reachable s) :
    s.sending.Paced ∧ s.sending.window = limits.window := by
  apply Lts.Reachable.invariant
    (fun s => s.sending.Paced ∧ s.sending.window = limits.window) ?_ ?_
    reachable
  · rintro _ rfl
    exact ⟨new_paced limits checksStorage, rfl⟩
  · rintro s ⟨event, env⟩ s' ⟨paced, window⟩ stepped
    have paces : s.Paces event s' := step_paces stepped
    exact ⟨paces.paced paced, paces.window.trans window⟩

/-- Whatever happens while pumps wait, no transfer has more than a window of
chunks in flight or two pumps, and no pump sends for a transfer that has been
dropped. -/
theorem sends_within_window {sha256 : Bytes → JSString}
    {limits : TransferLimits} {checksStorage : Bool}
    (reachable : (Engine.system sha256 limits checksStorage).Reachable s) :
    (∀ o ∈ s.outgoing, o.Fits limits.window) ∧
      (∀ ref, s.sending.pumps ref ≤ 1) ∧
      ∀ event env s', s.step sha256 env event = some s' →
        (s.resuming event).SendsListed s' := by
  obtain ⟨paced, window⟩ := paced_of_reachable reachable
  refine ⟨fun o member => ?_, fun ref => ?_, fun event env s' stepped => ?_⟩
  · rw [← window]
    exact paced.fits o member
  · rw [paced.pumps ref]
    split <;> decide
  · exact (step_paces stepped).sends paced

/-- A payload of one byte. -/
def oneByte : OutgoingPayload where
  id := js "x"
  kind := .file
  ts := 0
  mime := js "text/plain"
  data := [7]
  name := none
  w := none
  h := none
  replyTo := none

/-- The engine once it has sent the only chunk of that payload. -/
def byteSent : Engine :=
  (Engine.new DEFAULT_TRANSFER_LIMITS false).register
    ⟨0, fun _ => true, fun _ _ => false⟩ [] (js "room") oneByte false

theorem byteSent_reachable :
    (Engine.system (fun _ => []) DEFAULT_TRANSFER_LIMITS false).Reachable
      byteSent := by
  have started : (Engine.new DEFAULT_TRANSFER_LIMITS false).step
      (fun _ => []) ⟨0, fun _ => true, fun _ _ => false⟩
      (.startSend (js "room") oneByte false) =
      some ((Engine.new DEFAULT_TRANSFER_LIMITS false).suspend
        (.hashPayload (js "room") oneByte false)) := by
    simp [step, startSend, Engine.new, oneByte, MAX_TRANSFER_BYTES]
  have hashed : ((Engine.new DEFAULT_TRANSFER_LIMITS false).suspend
      (.hashPayload (js "room") oneByte false)).step (fun _ => [])
      ⟨0, fun _ => true, fun _ _ => false⟩ (.settle 0 true) =
      some byteSent := rfl
  exact reachable_step (reachable_step (.start rfl) started) hashed

theorem sends_within_window_byteSent :
    byteSent.sending.waiting = [(0, 0)] ∧
      (∀ o ∈ byteSent.outgoing, o.Fits 12) ∧
      (∀ ref, byteSent.sending.pumps ref ≤ 1) ∧
      ∀ event env s', byteSent.step (fun _ => []) env event = some s' →
        (byteSent.resuming event).SendsListed s' :=
  ⟨by decide, sends_within_window byteSent_reachable⟩

end Engine

end Byteln.Client

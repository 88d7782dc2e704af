import Byteln.Client.TransferTurns

/-!
# What a move changes

One lemma for each component of the engine: which calls a move records, which
transfers it may change and how, which functions it suspends and which entries
of the rooms it touches.  Invariants of several engines are checked against
these.
-/

namespace Byteln.Client

open Byteln.Library

/-- Two states of one outgoing transfer. -/
structure Outgoing.Same (o o' : Outgoing) : Prop where
  bucketId : o'.bucketId = o.bucketId
  id : o'.id = o.id
  header : o'.header = o.header
  data : o'.data = o.data
  total : o'.total = o.total

theorem Outgoing.Same.refl (o : Outgoing) : o.Same o :=
  ⟨rfl, rfl, rfl, rfl, rfl⟩

theorem Outgoing.Adjusts.same {o o' : Outgoing} (adjusts : o.Adjusts o') :
    o.Same o' :=
  ⟨adjusts.bucketId, adjusts.id, adjusts.header, adjusts.data, adjusts.total⟩

theorem Outgoing.Same.chunk {o o' : Outgoing} (same : o.Same o')
    (index : Nat) : o'.chunk index = o.chunk index := by
  simp [Outgoing.chunk, same.id, same.header, same.data, same.total]

section

variable (sha256 : Bytes → JSString) (turn : Turn)

/-- The calls a move may record, and why. -/
inductive Records (s : Engine) : Call → Prop where
  | quiet {call : Call} : call.quiet = true → Records s call
  | chunk {o : Outgoing} {index : Nat} :
      o ∈ s.outgoing → index ∈ o.queue →
      Records s (.send o.bucketId (.xferChunk (o.chunk index)))
  | query {o : Outgoing} {ts : Time} :
      o ∈ s.outgoing →
      Records s (.send o.bucketId (.xferQuery { ts := ts, id := o.id }))
  | deliver {ref : Ref} {i : Incoming} {data : Bytes} {offset : Nat} :
      .hashData ref data offset ∈ s.suspended → s.incoming[ref]? = some i →
      sha256 data = i.header.sha256 →
      Records s (.deliver i.bucketId (i.toStored data))
  | delivered {pos : Nat} {ref : Ref} {i : Incoming} :
      turn.event = .settle pos true → .deliver ref ∈ s.suspended →
      s.incoming[ref]? = some i → Records s (.delivered i.bucketId i.id)
  | ack {bucketId id : JSString} {haves : List Nat} {resend : Bool}
      {ts : Time} :
      (∃ i ∈ s.incoming, i.bucketId = bucketId ∧ i.id = id) ∨
        turn.event = .handleQuery bucketId id →
      Records s (.send bucketId (.xferAck
        { ts := ts, id := id, haves := haves, resend := resend,
          done := false }))
  | known {bucketId id : JSString} :
      turn.env.hasMessage bucketId id = true → s.findIn bucketId id = none →
      Records s (.known bucketId id)
  | ackDone {bucketId id : JSString} {haves : List Nat} {ts : Time} :
      .delivered bucketId id ∈ s.log ∨ .known bucketId id ∈ s.log →
      Records s (.send bucketId (.xferAck
        { ts := ts, id := id, haves := haves, resend := false,
          done := true }))
  | cancel {bucketId id reason : JSString} {ts : Time} :
      turn.Cancels s bucketId id →
      Records s (.send bucketId (.xferCancel
        { ts := ts, id := id, reason := some reason }))

/-- Why the parts of an incoming transfer change. -/
inductive Refills (i : Incoming) (parts : List (Option Bytes)) : Prop where
  | unchanged : parts = i.parts → Refills i parts
  | cleared : parts = i.parts.map (fun _ => none) → Refills i parts
  | filled {bucketId : JSString} {c : TransferChunkPlainMessage Time} :
      turn.event = .handleChunk bucketId c → i.bucketId = bucketId →
      i.id = c.id → parts = setPart i.parts c.index c.data → Refills i parts

/-- The functions a move may suspend, and why. -/
inductive Suspends (s : Engine) : Suspended → Prop where
  | hashPayload {bucketId : JSString} {payload : OutgoingPayload}
      {resume : Bool} :
      turn.event = .startSend bucketId payload resume →
      Suspends s (.hashPayload bucketId payload resume)
  | send {ref : Ref} {index : Nat} : Suspends s (.send ref index)
  | storage {ref : Ref} : Suspends s (.storage ref)
  | hashData {ref : Ref} {i : Incoming} {data : Bytes} {offset : Nat} :
      s.incoming[ref]? = some i → s.isLiveIn ref i = true →
      assemble i.header.size i.parts [] = .filled data offset →
      Suspends s (.hashData ref data offset)
  | deliver {ref : Ref} {data : Bytes} {offset : Nat} {i : Incoming} :
      .hashData ref data offset ∈ s.suspended →
      s.incoming[ref]? = some i → s.isLiveIn ref i = true →
      Suspends s (.deliver ref)

/-- Why an incoming transfer leaves its room. -/
inductive Unlists (s s' : Engine) (bucketId id : JSString) : Prop where
  | resolved {pos : Nat} {ref : Ref} {i : Incoming} :
      s.suspended[pos]? = some (.deliver ref) →
      s'.suspended = s.suspended.eraseIdx pos →
      s.incoming[ref]? = some i → i.bucketId = bucketId → i.id = id →
      Unlists s s' bucketId id
  | rejected {pos : Nat} {ref : Ref} :
      turn.event = .settle pos false → turn.task = some (.storage ref) →
      Unlists s s' bucketId id
  | dropped : turn.DropsIn s bucketId id → Unlists s s' bucketId id

variable {sha256 turn} {s s' : Engine}

theorem Move.log (move : Move sha256 turn s s') :
    s'.log = s.log ∨ ∃ call, Records sha256 turn s call ∧
      s'.log = s.log ++ [call] := by
  cases move with
  | note quiet => exact .inr ⟨_, .quiet quiet, rfl⟩
  | pumped found adjusts queued =>
      refine .inr ⟨_, .chunk (List.mem_of_getElem? found) queued, ?_⟩
      rw [← adjusts.same.chunk, ← adjusts.bucketId]
      rfl
  | query member => exact .inr ⟨_, .query member, rfl⟩
  | startDeliver event waiting found live offset sha =>
      exact .inr ⟨_, .deliver (List.mem_of_getElem? waiting) found sha, rfl⟩
  | resolve event waiting found =>
      exact .inr ⟨_, .delivered event (List.mem_of_getElem? waiting) found,
        rfl⟩
  | ack reason => exact .inr ⟨_, .ack reason, rfl⟩
  | known known missing => exact .inr ⟨_, .known known missing, rfl⟩
  | ackDone held => exact .inr ⟨_, .ackDone held, rfl⟩
  | cancelMsg reason => exact .inr ⟨_, .cancel reason, rfl⟩
  | _ => exact .inl rfl

theorem Move.mem_log (move : Move sha256 turn s s') {call : Call}
    (member : call ∈ s'.log) :
    call ∈ s.log ∨ Records sha256 turn s call := by
  rcases move.log with same | ⟨new, records, appended⟩
  · exact .inl (same ▸ member)
  · rw [appended] at member
    rcases List.mem_append.mp member with before | last
    · exact .inl before
    · obtain rfl := List.mem_singleton.mp last
      exact .inr records

theorem Move.log_subset (move : Move sha256 turn s s') : s.log ⊆ s'.log := by
  rcases move.log with same | ⟨new, -, appended⟩
  · rw [same]
    exact List.Subset.refl _
  · rw [appended]
    exact List.subset_append_left _ _

theorem Moves.log_subset (moves : Moves sha256 turn s s') :
    s.log ⊆ s'.log := by
  induction moves with
  | refl => exact List.Subset.refl _
  | tail _ move induction => exact List.Subset.trans induction move.log_subset

/-- Outgoing transfers keep their identity, and a new one carries the payload
whose hash it waited for and is listed in its room. -/
theorem Move.outgoing (move : Move sha256 turn s s') (sound : s.Sound)
    {o' : Outgoing} (member : o' ∈ s'.outgoing) :
    (∃ o ∈ s.outgoing, o.Same o') ∨
      ∃ bucketId payload resume,
        .hashPayload bucketId payload resume ∈ s.suspended ∧
        o' = .open turn.env.now (sha256 payload.data) bucketId payload
          resume ∧
        s'.out.find o'.bucketId o'.id ≠ none := by
  have kept : ∀ {ref : Ref} {o o₁ : Outgoing}, s.outgoing[ref]? = some o →
      o.Same o₁ → o' ∈ s.outgoing.set ref o₁ → ∃ o ∈ s.outgoing, o.Same o' := by
    intro ref o o₁ found same member
    rcases List.mem_or_eq_of_mem_set member with before | rfl
    · exact ⟨o', before, .refl o'⟩
    · exact ⟨o, List.mem_of_getElem? found, same⟩
  cases move with
  | adjustOut found adjusts => exact .inl (kept found adjusts.same member)
  | pumped found adjusts => exact .inl (kept found adjusts.same member)
  | landed event waiting found adjusts =>
      obtain ⟨o, found', bound⟩ := sound.sending _ _
        (List.mem_of_getElem? waiting)
      obtain rfl := Option.some.inj (found.symm.trans found')
      exact .inl (kept found (adjusts bound).same member)
  | register event waiting =>
      rcases List.mem_append.mp member with before | new
      · exact .inl ⟨o', before, .refl o'⟩
      · obtain rfl := List.mem_singleton.mp new
        refine .inr ⟨_, _, _, List.mem_of_getElem? waiting, rfl, ?_⟩
        simp [Engine.addOut, Rooms.find_put]
  | _ => exact .inl ⟨o', member, .refl o'⟩

/-- Outgoing transfers stay allocated. -/
theorem Move.outgoing_kept (move : Move sha256 turn s s') (sound : s.Sound)
    {ref : Ref} {o : Outgoing} (found : s.outgoing[ref]? = some o) :
    ∃ o', s'.outgoing[ref]? = some o' ∧ o.Same o' := by
  have kept : ∀ {other : Ref} {o₁ o₂ : Outgoing},
      s.outgoing[other]? = some o₁ → o₁.Same o₂ →
      ∃ o', (s.outgoing.set other o₂)[ref]? = some o' ∧ o.Same o' := by
    intro other o₁ o₂ found₁ same
    rw [getElem?_set_of_some found₁]
    by_cases here : ref = other
    · subst here
      obtain rfl := Option.some.inj (found.symm.trans found₁)
      exact ⟨o₂, if_pos rfl, same⟩
    · exact ⟨o, (if_neg here).trans found, .refl o⟩
  cases move with
  | adjustOut found₁ adjusts => exact kept found₁ adjusts.same
  | pumped found₁ adjusts => exact kept found₁ adjusts.same
  | landed event waiting found₁ adjusts =>
      obtain ⟨o₁, found', bound⟩ := sound.sending _ _
        (List.mem_of_getElem? waiting)
      obtain rfl := Option.some.inj (found₁.symm.trans found')
      exact kept found₁ (adjusts bound).same
  | register event waiting =>
      obtain ⟨inBounds, -⟩ := List.getElem?_eq_some_iff.mp found
      refine ⟨o, ?_, .refl o⟩
      exact (List.getElem?_append_left inBounds).trans found
  | _ => exact ⟨o, found, .refl o⟩

/-- Incoming transfers keep their identity, and only a chunk of their id
fills a part or opens a new one. -/
theorem Move.incoming (move : Move sha256 turn s s') {ref : Ref}
    {i' : Incoming} (found' : s'.incoming[ref]? = some i') :
    (∃ i, s.incoming[ref]? = some i ∧ i.Same i' ∧
      Refills turn i i'.parts) ∨
      ∃ bucketId c, turn.event = .handleChunk bucketId c ∧
        ref = s.incoming.length ∧
        s.findIn bucketId c.id = none ∧
        turn.env.hasMessage bucketId c.id = false ∧
        i' = .open turn.env.now bucketId c := by
  have kept : ∀ {other : Ref} {i₁ i₂ : Incoming},
      s.incoming[other]? = some i₁ → i₁.Same i₂ →
      Refills turn i₁ i₂.parts →
      (s.incoming.set other i₂)[ref]? = some i' →
      ∃ i, s.incoming[ref]? = some i ∧ i.Same i' ∧
        Refills turn i i'.parts := by
    intro other i₁ i₂ found₁ same refills found'
    rw [getElem?_set_of_some found₁] at found'
    split at found'
    · rename_i here
      subst here
      obtain rfl := Option.some.inj found'
      exact ⟨i₁, found₁, same, refills⟩
    · exact ⟨i', found', .refl i', .unchanged rfl⟩
  cases move with
  | adjustIn found same parts =>
      exact .inl (kept found same (.unchanged parts) found')
  | filled event found sameBucket sameId _ _ same parts =>
      exact .inl (kept found same
        (.filled event sameBucket sameId parts) found')
  | startHash found =>
      refine .inl (kept found ?_ ?_ found')
      · exact ⟨rfl, rfl, rfl, rfl⟩
      · exact .unchanged rfl
  | reset event waiting completes found same parts =>
      exact .inl (kept found same (.cleared parts) found')
  | openIn event missing unknown =>
      by_cases inBounds : ref < s.incoming.length
      · rw [Engine.addIn, List.getElem?_append_left inBounds] at found'
        exact .inl ⟨i', found', .refl i', .unchanged rfl⟩
      · right
        rw [Engine.addIn,
          List.getElem?_append_right (Nat.le_of_not_lt inBounds),
          List.getElem?_singleton] at found'
        split at found'
        · rename_i last
          obtain rfl := Option.some.inj found'
          refine ⟨_, _, event, ?_, missing, unknown, rfl⟩
          exact Nat.le_antisymm (Nat.sub_eq_zero_iff_le.mp last)
            (Nat.le_of_not_lt inBounds)
        · simp at found'
  | _ => exact .inl ⟨i', found', .refl i', .unchanged rfl⟩

/-- Incoming transfers stay allocated. -/
theorem Move.incoming_kept (move : Move sha256 turn s s') {ref : Ref}
    {i : Incoming} (found : s.incoming[ref]? = some i) :
    ∃ i', s'.incoming[ref]? = some i' ∧ i.Same i' := by
  have kept : ∀ {other : Ref} {i₁ i₂ : Incoming},
      s.incoming[other]? = some i₁ → i₁.Same i₂ →
      ∃ i', (s.incoming.set other i₂)[ref]? = some i' ∧ i.Same i' := by
    intro other i₁ i₂ found₁ same
    rw [getElem?_set_of_some found₁]
    by_cases here : ref = other
    · subst here
      obtain rfl := Option.some.inj (found.symm.trans found₁)
      exact ⟨i₂, if_pos rfl, same⟩
    · exact ⟨i, (if_neg here).trans found, .refl i⟩
  cases move with
  | adjustIn found₁ same => exact kept found₁ same
  | filled event found₁ _ _ _ _ same => exact kept found₁ same
  | startHash found₁ => exact kept found₁ ⟨rfl, rfl, rfl, rfl⟩
  | reset event waiting completes found₁ same => exact kept found₁ same
  | openIn =>
      obtain ⟨inBounds, -⟩ := List.getElem?_eq_some_iff.mp found
      refine ⟨i, ?_, .refl i⟩
      exact (List.getElem?_append_left inBounds).trans found
  | _ => exact ⟨i, found, .refl i⟩

theorem Move.suspended (move : Move sha256 turn s s') {task : Suspended}
    (member : task ∈ s'.suspended) :
    task ∈ s.suspended ∨ Suspends turn s task ∧ s'.inc = s.inc := by
  have appended : ∀ {tasks : List Suspended} {new : Suspended},
      tasks ⊆ s.suspended → Suspends turn s new → task ∈ tasks ++ [new] →
      task ∈ s.suspended ∨ Suspends turn s task := by
    intro tasks new kept reason member
    rcases List.mem_append.mp member with before | last
    · exact .inl (kept before)
    · obtain rfl := List.mem_singleton.mp last
      exact .inr reason
  have erased : ∀ pos, s.suspended.eraseIdx pos ⊆ s.suspended :=
    fun pos => List.eraseIdx_subset
  cases move with
  | hashPayload event =>
      exact (appended (fun _ => id) (.hashPayload event) member).imp_right
        fun reason => ⟨reason, rfl⟩
  | pumped =>
      exact (appended (fun _ => id) .send member).imp_right
        fun reason => ⟨reason, rfl⟩
  | checkStorage =>
      exact (appended (fun _ => id) .storage member).imp_right
        fun reason => ⟨reason, rfl⟩
  | startHash found live _ filled =>
      exact (appended (fun _ => id) (.hashData found live filled)
        member).imp_right fun reason => ⟨reason, rfl⟩
  | startDeliver event waiting found live =>
      exact (appended (erased _) (.deliver (List.mem_of_getElem? waiting)
        found live) member).imp_right fun reason => ⟨reason, rfl⟩
  | settled | landed | register | reset | resolve | reject =>
      exact .inl (erased _ member)
  | _ => exact .inl member

/-- What takes an outgoing transfer out of its room. -/
theorem Move.out (move : Move sha256 turn s s') (bucketId id : JSString)
    (listed : s.out.find bucketId id ≠ none) :
    s'.out.find bucketId id ≠ none ∨ turn.DropsOut bucketId id := by
  cases move with
  | removeOut kept =>
      rcases kept bucketId id with same | ⟨-, drops⟩
      · exact .inl (same ▸ listed)
      · exact .inr drops
  | register =>
      left
      simp only [Engine.addOut, Rooms.find_put]
      split
      · simp
      · exact listed
  | _ => exact .inl listed

/-- What becomes of the entry of an incoming transfer. -/
theorem Move.inc (move : Move sha256 turn s s') (bucketId id : JSString) :
    s'.inc.find bucketId id = s.inc.find bucketId id ∨
      s'.inc.find bucketId id = none ∧ Unlists turn s s' bucketId id ∨
      (∃ c, turn.event = .handleChunk bucketId c ∧ c.id = id) ∧
        turn.env.hasMessage bucketId id = false ∧
        s.findIn bucketId id = none := by
  cases move with
  | removeIn kept =>
      rcases kept bucketId id with same | ⟨gone, drops⟩
      · exact .inl same
      · exact .inr (.inl ⟨gone, .dropped drops⟩)
  | @resolve pos ref i event waiting found =>
      simp only [Rooms.find_remove]
      split
      · rename_i here
        refine .inr (.inl ⟨rfl, ?_⟩)
        exact .resolved waiting rfl found here.1.symm here.2.symm
      · exact .inl rfl
  | reject event continues =>
      simp only [Rooms.find_remove]
      split
      · exact .inr (.inl ⟨rfl, .rejected event continues⟩)
      · exact .inl rfl
  | openIn event missing unknown =>
      simp only [Engine.addIn, Rooms.find_put]
      split
      · rename_i here
        obtain ⟨rfl, rfl⟩ := here
        exact .inr (.inr ⟨⟨_, event, rfl⟩, unknown, missing⟩)
      · exact .inl rfl
  | _ => exact .inl rfl

end

/-- A room of a sound engine lists no transfer that is not found. -/
theorem Engine.Sound.find_of_findIn_none {s : Engine} (sound : s.Sound)
    {bucketId id : JSString} (missing : s.findIn bucketId id = none) :
    s.inc.find bucketId id = none := by
  cases listed : s.inc.find bucketId id with
  | none => rfl
  | some ref =>
      obtain ⟨i, found, -⟩ := sound.inKeys _ _ _ listed
      have present := Engine.findIn_eq_some_iff.mpr ⟨listed, found⟩
      rw [missing] at present
      simp at present

theorem Engine.Sound.find_of_findOut_none {s : Engine} (sound : s.Sound)
    {bucketId id : JSString} (missing : s.findOut bucketId id = none) :
    s.out.find bucketId id = none := by
  cases listed : s.out.find bucketId id with
  | none => rfl
  | some ref =>
      obtain ⟨o, found, -⟩ := sound.outKeys _ _ _ listed
      have present := Engine.findOut_eq_some_iff.mpr ⟨listed, found⟩
      rw [missing] at present
      simp at present

/-- The dependencies have said that a message is stored. -/
def Engine.Holds (e : Engine) (bucketId id : JSString) : Prop :=
  .delivered bucketId id ∈ e.log ∨ .known bucketId id ∈ e.log

theorem Engine.Holds.mono {e e' : Engine} {bucketId id : JSString}
    (holds : e.Holds bucketId id) (grows : e.log ⊆ e'.log) :
    e'.Holds bucketId id :=
  holds.imp (fun member => grows member) (fun member => grows member)

/-- A message that is stored has no entry when the dependencies say so. -/
theorem Move.holds {sha256 : Bytes → JSString} {turn : Turn}
    {s s' : Engine} (move : Move sha256 turn s s') (sound : s.Sound)
    {bucketId id : JSString} (holds : s'.Holds bucketId id) :
    s.Holds bucketId id ∨ s'.inc.find bucketId id = none ∧
      (turn.env.hasMessage bucketId id = true ∨
        ∃ pos, turn.event = .settle pos true) := by
  have before : ∀ {call : Call}, call ≠ .delivered bucketId id →
      call ≠ .known bucketId id → s'.log = s.log ++ [call] →
      s.Holds bucketId id := by
    intro call notDelivered notKnown appended
    unfold Engine.Holds at holds ⊢
    rw [appended] at holds
    simpa [Ne.symm notDelivered, Ne.symm notKnown] using holds
  cases move with
  | @note call quiet =>
      left
      apply before _ _ rfl
      · rintro rfl
        simp [Call.quiet] at quiet
      · rintro rfl
        simp [Call.quiet] at quiet
  | @resolve pos ref i event waiting found =>
      by_cases here : i.bucketId = bucketId ∧ i.id = id
      · obtain ⟨rfl, rfl⟩ := here
        exact .inr ⟨Rooms.find_remove_self _ _ _, .inr ⟨pos, event⟩⟩
      · left
        apply before _ (by simp) rfl
        intro same
        exact here (Call.delivered.inj same)
  | @known b x known missing =>
      by_cases here : b = bucketId ∧ x = id
      · obtain ⟨rfl, rfl⟩ := here
        exact .inr ⟨sound.find_of_findIn_none missing, .inl known⟩
      · left
        apply before (by simp) _ rfl
        intro same
        exact here (Call.known.inj same)
  | pumped | query | startDeliver | ack | ackDone | cancelMsg =>
      exact .inl (before (by simp) (by simp) rfl)
  | _ => exact .inl holds

end Byteln.Client

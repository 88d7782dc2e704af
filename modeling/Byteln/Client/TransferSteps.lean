import Byteln.Client.Transfer

/-!
# What a section of the engine does

Every section of the transfer engine is a sequence of moves, each of which
changes one thing: a transfer, the list of a room, a suspended function or the
log.  An invariant of the engine is checked once for each move.
-/

namespace Byteln.Client

open Byteln.Library

/-! ## Objects that keep their identity -/

/-- What holds of the schedule of an outgoing transfer at all times. -/
structure Outgoing.WellFormed (o : Outgoing) : Prop where
  queued : ∀ index ∈ o.queue, index < o.total
  apart : ∀ index ∈ o.acked, o.inFlight.contains index = false

/-- A transfer after some of its schedule and status has changed. -/
structure Outgoing.Adjusts (o o' : Outgoing) : Prop where
  bucketId : o'.bucketId = o.bucketId
  id : o'.id = o.id
  header : o'.header = o.header
  data : o'.data = o.data
  total : o'.total = o.total
  wellFormed : o.WellFormed → o'.WellFormed

/-- Two states of one incoming transfer. -/
structure Incoming.Same (i i' : Incoming) : Prop where
  bucketId : i'.bucketId = i.bucketId
  id : i'.id = i.id
  header : i'.header = i.header
  total : i'.total = i.total

/-- The suspended function completes the incoming transfer at a reference. -/
def Suspended.completes (ref : Ref) : Suspended → Bool
  | .hashData i _ _ | .deliver i => i = ref
  | _ => false

/-! ## Moves -/

/-- The suspended function that a section continues. -/
def Event.task (s : Engine) : Event → Option Suspended
  | .settle index _ => s.suspended[index]?
  | _ => none

/-- What started a section, the function it continues, and what the
dependencies answer in it. -/
structure Turn where
  event : Event
  env : Env
  task : Option Suspended

/-- A section that starts in a state. -/
def Turn.of (s : Engine) (event : Event) (env : Env) : Turn where
  event := event
  env := env
  task := event.task s

/-- The user, or a wipe, drops the transfer. -/
def Turn.Abandons (turn : Turn) (bucketId id : JSString) : Prop :=
  turn.event = .cancel bucketId id ∨ turn.event = .forget bucketId id ∨
    (∃ forgetPending, turn.event = .clearBucket bucketId forgetPending) ∨
    turn.event = .clearAll

/-- Why an outgoing transfer may leave its room. -/
def Turn.DropsOut (turn : Turn) (bucketId id : JSString) : Prop :=
  turn.Abandons bucketId id ∨
    ∃ ack, turn.event = .handleAck bucketId ack ∧ ack.id = id ∧
      ack.done = true

/-- Why an incoming transfer may leave its room: the peer cancels it, or it is
not being completed. -/
def Turn.DropsIn (turn : Turn) (s : Engine) (bucketId id : JSString) : Prop :=
  turn.Abandons bucketId id ∨
    (∃ msg, turn.event = .handleCancel bucketId msg ∧ msg.id = id) ∨
    ∃ ref i, s.incoming[ref]? = some i ∧ i.completing = false ∧
      s.inc.find bucketId id = some ref

/-- Why a cancel is sent. -/
def Turn.Cancels (turn : Turn) (s : Engine) (bucketId id : JSString) : Prop :=
  turn.event = .cancel bucketId id ∨
    (∃ ack, turn.event = .handleAck bucketId ack ∧ ack.id = id ∧
      ack.resend = true ∧ s.findOut bucketId id = none) ∨
    (∃ c, turn.event = .handleChunk bucketId c ∧ c.id = id) ∨
    ∃ i ∈ s.incoming, i.bucketId = bucketId ∧ i.id = id

def Call.quiet : Call → Bool
  | .publish _ _ | .persistPending _ _ | .onDelivered _ _ => true
  | _ => false

section

variable (sha256 : Bytes → JSString) (turn : Turn)

/-- A move of the engine in a section. -/
inductive Move : Engine → Engine → Prop where
  | note {s : Engine} {call : Call} :
      call.quiet = true → Move s (s.record call)
  | timer {s : Engine} {timer : Bool} : Move s { s with timer := timer }
  | hashPayload {s : Engine} {bucketId : JSString}
      {payload : OutgoingPayload} {resume : Bool} :
      turn.event = .startSend bucketId payload resume →
      Move s (s.suspend (.hashPayload bucketId payload resume))
  | settled {s : Engine} {index : Nat} {ok : Bool} :
      turn.event = .settle index ok → Move s (s.unsuspend index)
  | adjustOut {s : Engine} {ref : Ref} {o o' : Outgoing} :
      s.outgoing[ref]? = some o → o.Adjusts o' → Move s (s.setOut ref o')
  | pumped {s : Engine} {ref : Ref} {o o' : Outgoing} {index : Nat} :
      s.outgoing[ref]? = some o → o.Adjusts o' → index ∈ o.queue →
      Move s
        ((s.setOut ref o').record
          (.send o'.bucketId (.xferChunk (o'.chunk index)))
          |>.suspend (.send ref index))
  | landed {s : Engine} {pos : Nat} {ok : Bool} {ref : Ref} {index : Nat}
      {o o' : Outgoing} :
      turn.event = .settle pos ok →
      s.suspended[pos]? = some (.send ref index) →
      s.outgoing[ref]? = some o → (index < o.total → o.Adjusts o') →
      Move s ((s.unsuspend pos).setOut ref o')
  | query {s : Engine} {o : Outgoing} {ts : Time} :
      o ∈ s.outgoing →
      Move s (s.sendCtl o.bucketId (.xferQuery { ts := ts, id := o.id }))
  | register {s : Engine} {pos : Nat} {ok : Bool} {bucketId : JSString}
      {payload : OutgoingPayload} {resume : Bool} :
      turn.event = .settle pos ok →
      s.suspended[pos]? = some (.hashPayload bucketId payload resume) →
      Move s ((s.unsuspend pos).addOut
        (.open turn.env.now (sha256 payload.data) bucketId payload resume))
  | removeOut {s : Engine} {out : Rooms} :
      (∀ bucketId id, out.find bucketId id = s.out.find bucketId id ∨
        out.find bucketId id = none ∧ turn.DropsOut bucketId id) →
      Move s { s with out := out }
  | adjustIn {s : Engine} {ref : Ref} {i i' : Incoming} :
      s.incoming[ref]? = some i → i.Same i' → i'.parts = i.parts →
      (i.completing = true → i'.completing = true) →
      Move s (s.setIn ref i')
  | openIn {s : Engine} {bucketId : JSString}
      {c : TransferChunkPlainMessage Time} :
      turn.event = .handleChunk bucketId c →
      s.findIn bucketId c.id = none →
      turn.env.hasMessage bucketId c.id = false →
      Move s (s.addIn (.open turn.env.now bucketId c))
  | checkStorage {s : Engine} {ref : Ref} :
      Move s (s.suspend (.storage ref))
  | filled {s : Engine} {bucketId : JSString} {ref : Ref} {i i' : Incoming}
      {c : TransferChunkPlainMessage Time} :
      turn.event = .handleChunk bucketId c →
      s.incoming[ref]? = some i → i.bucketId = bucketId → i.id = c.id →
      i.total = c.total → i.completing = false → i.Same i' →
      i'.parts = setPart i.parts c.index c.data → i'.completing = false →
      Move s (s.setIn ref i')
  | startHash {s : Engine} {ref : Ref} {i : Incoming} {data : Bytes}
      {offset : Nat} :
      s.incoming[ref]? = some i → s.isLiveIn ref i = true →
      i.completing = false →
      assemble i.header.size i.parts [] = .filled data offset →
      Move s ((s.setIn ref { i with completing := true }).suspend
        (.hashData ref data offset))
  | reset {s : Engine} {pos : Nat} {ok : Bool} {ref : Ref} {i i' : Incoming}
      {task : Suspended} :
      turn.event = .settle pos ok → s.suspended[pos]? = some task →
      task.completes ref = true → s.incoming[ref]? = some i → i.Same i' →
      i'.parts = i.parts.map (fun _ => none) → i'.completing = false →
      Move s ((s.unsuspend pos).setIn ref i')
  | startDeliver {s : Engine} {pos : Nat} {ok : Bool} {ref : Ref}
      {i : Incoming} {data : Bytes} {offset : Nat} :
      turn.event = .settle pos ok →
      s.suspended[pos]? = some (.hashData ref data offset) →
      s.incoming[ref]? = some i → s.isLiveIn ref i = true →
      offset = i.header.size → sha256 data = i.header.sha256 →
      Move s ((s.unsuspend pos).record
        (.deliver i.bucketId (i.toStored data)) |>.suspend (.deliver ref))
  | resolve {s : Engine} {pos : Nat} {ref : Ref} {i : Incoming} :
      turn.event = .settle pos true →
      s.suspended[pos]? = some (.deliver ref) → s.incoming[ref]? = some i →
      Move s { (s.unsuspend pos).record (.delivered i.bucketId i.id) with
        inc := s.inc.remove i.bucketId i.id }
  | reject {s : Engine} {pos : Nat} {ref : Ref} {i : Incoming} :
      turn.event = .settle pos false →
      turn.task = some (.storage ref) →
      s.suspended[pos]? = some (.storage ref) → s.incoming[ref]? = some i →
      s.isLiveIn ref i = true →
      Move s { s.unsuspend pos with inc := s.inc.remove i.bucketId i.id }
  | removeIn {s : Engine} {inc : Rooms} :
      (∀ bucketId id, inc.find bucketId id = s.inc.find bucketId id ∨
        inc.find bucketId id = none ∧ turn.DropsIn s bucketId id) →
      Move s { s with inc := inc }
  | ack {s : Engine} {bucketId id : JSString} {haves : List Nat}
      {resend : Bool} {ts : Time} :
      (∃ i ∈ s.incoming, i.bucketId = bucketId ∧ i.id = id) ∨
        turn.event = .handleQuery bucketId id →
      Move s (s.sendCtl bucketId (.xferAck
        { ts := ts, id := id, haves := haves, resend := resend,
          done := false }))
  | known {s : Engine} {bucketId id : JSString} :
      turn.env.hasMessage bucketId id = true → s.findIn bucketId id = none →
      Move s (s.record (.known bucketId id))
  | ackDone {s : Engine} {bucketId id : JSString} {haves : List Nat}
      {ts : Time} :
      .delivered bucketId id ∈ s.log ∨ .known bucketId id ∈ s.log →
      s.findIn bucketId id = none →
      Move s (s.sendCtl bucketId (.xferAck
        { ts := ts, id := id, haves := haves, resend := false,
          done := true }))
  | cancelMsg {s : Engine} {bucketId id reason : JSString} {ts : Time} :
      turn.Cancels s bucketId id →
      Move s (s.sendCtl bucketId (.xferCancel
        { ts := ts, id := id, reason := some reason }))

abbrev Moves : Engine → Engine → Prop :=
  Relation.ReflTransGen (Move sha256 turn)

end

/-! ## The engine by itself -/

/-- What holds of every engine between moves. -/
structure Engine.Sound (s : Engine) : Prop where
  outKeys : ∀ bucketId id ref, s.out.find bucketId id = some ref →
    ∃ o, s.outgoing[ref]? = some o ∧ o.bucketId = bucketId ∧ o.id = id
  inKeys : ∀ bucketId id ref, s.inc.find bucketId id = some ref →
    ∃ i, s.incoming[ref]? = some i ∧ i.bucketId = bucketId ∧ i.id = id
  outgoing : ∀ o ∈ s.outgoing, o.WellFormed
  sending : ∀ ref index, .send ref index ∈ s.suspended →
    ∃ o, s.outgoing[ref]? = some o ∧ index < o.total
  completing : ∀ ref, s.suspended.countP (Suspended.completes ref) ≤
    if s.incoming[ref]?.any Incoming.completing then 1 else 0

theorem getElem?_set_of_some {α : Type} {l : List α} {i : Nat} {a : α}
    (found : l[i]? = some a) (b : α) (j : Nat) :
    (l.set i b)[j]? = if j = i then some b else l[j]? := by
  obtain ⟨inBounds, -⟩ := List.getElem?_eq_some_iff.mp found
  by_cases same : j = i
  · simp [same, inBounds]
  · rw [List.getElem?_set_ne (Ne.symm same), if_neg same]

theorem countP_eraseIdx {α : Type} {l : List α} {i : Nat} {a : α}
    (found : l[i]? = some a) (test : α → Bool) :
    l.countP test =
      (l.eraseIdx i).countP test + if test a then 1 else 0 := by
  obtain ⟨inBounds, rfl⟩ := List.getElem?_eq_some_iff.mp found
  rw [← (List.getElem_cons_eraseIdx_perm inBounds).countP_eq,
    List.countP_cons]

theorem Incoming.Same.refl (i : Incoming) : i.Same i :=
  ⟨rfl, rfl, rfl, rfl⟩

namespace Engine.Sound

variable {s : Engine}

theorem initial (limits : TransferLimits) (checksStorage : Bool) :
    (Engine.new limits checksStorage).Sound where
  outKeys := by simp [Engine.new]
  inKeys := by simp [Engine.new]
  outgoing := by simp [Engine.new]
  sending := by simp [Engine.new]
  completing := by simp [Engine.new]

theorem unsuspend (sound : s.Sound) (index : Nat) :
    (s.unsuspend index).Sound where
  outKeys := sound.outKeys
  inKeys := sound.inKeys
  outgoing := sound.outgoing
  sending := fun ref chunk member =>
    sound.sending ref chunk (List.mem_of_mem_eraseIdx member)
  completing := fun ref =>
    ((s.suspended.eraseIdx_sublist index).countP_le).trans
      (sound.completing ref)

/-- A function that waits for something else than the completion of a
transfer. -/
theorem suspend (sound : s.Sound) {task : Suspended}
    (sends : ∀ ref index, task = .send ref index →
      ∃ o, s.outgoing[ref]? = some o ∧ index < o.total)
    (other : ∀ ref, task.completes ref = false) :
    (s.suspend task).Sound where
  outKeys := sound.outKeys
  inKeys := sound.inKeys
  outgoing := sound.outgoing
  sending := by
    intro ref index member
    rcases List.mem_append.mp member with before | new
    · exact sound.sending ref index before
    · exact sends ref index (List.mem_singleton.mp new).symm
  completing := by
    intro ref
    have counted : (s.suspend task).suspended.countP
        (Suspended.completes ref) =
        s.suspended.countP (Suspended.completes ref) := by
      simp [Engine.suspend, other ref]
    exact counted ▸ sound.completing ref

/-- A function that waits to complete a transfer no other function
completes. -/
theorem suspendCompleting (sound : s.Sound) {ref : Ref} {i : Incoming}
    {task : Suspended} (found : s.incoming[ref]? = some i)
    (completing : i.completing = true)
    (idle : s.suspended.countP (Suspended.completes ref) = 0)
    (completes : ∀ other, task.completes other = decide (ref = other)) :
    (s.suspend task).Sound where
  outKeys := sound.outKeys
  inKeys := sound.inKeys
  outgoing := sound.outgoing
  sending := by
    intro other index member
    rcases List.mem_append.mp member with before | new
    · exact sound.sending other index before
    · obtain rfl := List.mem_singleton.mp new
      have never := completes ref
      simp [Suspended.completes] at never
  completing := by
    intro other
    have counted : (s.suspend task).suspended.countP
        (Suspended.completes other) =
        s.suspended.countP (Suspended.completes other) +
          if ref = other then 1 else 0 := by
      simp [Engine.suspend, List.countP_cons, completes other]
    have before := sound.completing other
    rw [counted]
    by_cases same : ref = other
    · subst same
      simp [Engine.suspend, idle, found, completing]
    · rw [if_neg same, Nat.add_zero]
      exact before

theorem setOut (sound : s.Sound) {ref : Ref} {o o' : Outgoing}
    (found : s.outgoing[ref]? = some o) (adjusts : o.Adjusts o') :
    (s.setOut ref o').Sound where
  outKeys := by
    intro bucketId id other listed
    obtain ⟨o₁, found₁, sameBucket, sameId⟩ :=
      sound.outKeys bucketId id other listed
    simp only [Engine.setOut, getElem?_set_of_some found]
    by_cases same : other = ref
    · subst same
      obtain rfl := Option.some.inj (found.symm.trans found₁)
      exact ⟨o', by simp, adjusts.bucketId.trans sameBucket,
        adjusts.id.trans sameId⟩
    · exact ⟨o₁, by simp [same, found₁], sameBucket, sameId⟩
  inKeys := sound.inKeys
  outgoing := by
    intro o₁ member
    rcases List.mem_or_eq_of_mem_set member with before | rfl
    · exact sound.outgoing o₁ before
    · exact adjusts.wellFormed
        (sound.outgoing o (List.mem_of_getElem? found))
  sending := by
    intro other index member
    obtain ⟨o₁, found₁, bound⟩ := sound.sending other index member
    simp only [Engine.setOut, getElem?_set_of_some found]
    by_cases same : other = ref
    · subst same
      obtain rfl := Option.some.inj (found.symm.trans found₁)
      exact ⟨o', by simp, adjusts.total ▸ bound⟩
    · exact ⟨o₁, by simp [same, found₁], bound⟩
  completing := sound.completing

/-- An incoming transfer changes, with at most one function left to complete
it if it is being completed and none otherwise. -/
theorem setIn (sound : s.Sound) {ref : Ref} {i i' : Incoming}
    (found : s.incoming[ref]? = some i) (same : i.Same i')
    (completes : s.suspended.countP (Suspended.completes ref) ≤
      if i'.completing then 1 else 0) :
    (s.setIn ref i').Sound where
  outKeys := sound.outKeys
  inKeys := by
    intro bucketId id other listed
    obtain ⟨i₁, found₁, sameBucket, sameId⟩ :=
      sound.inKeys bucketId id other listed
    simp only [Engine.setIn, getElem?_set_of_some found]
    by_cases here : other = ref
    · subst here
      obtain rfl := Option.some.inj (found.symm.trans found₁)
      exact ⟨i', by simp, same.bucketId.trans sameBucket,
        same.id.trans sameId⟩
    · exact ⟨i₁, by simp [here, found₁], sameBucket, sameId⟩
  outgoing := sound.outgoing
  sending := sound.sending
  completing := by
    intro other
    simp only [Engine.setIn, getElem?_set_of_some found]
    by_cases here : other = ref
    · subst here
      simpa using completes
    · simpa [here] using sound.completing other

theorem addOut (sound : s.Sound) {o : Outgoing} (wellFormed : o.WellFormed) :
    (s.addOut o).Sound where
  outKeys := by
    intro bucketId id ref listed
    simp only [Engine.addOut, Rooms.find_put] at listed ⊢
    split at listed
    · rename_i same
      obtain rfl := Option.some.inj listed
      exact ⟨o, by simp, same.1.symm, same.2.symm⟩
    · obtain ⟨o₁, found, keys⟩ := sound.outKeys bucketId id ref listed
      obtain ⟨inBounds, -⟩ := List.getElem?_eq_some_iff.mp found
      exact ⟨o₁, by rwa [List.getElem?_append_left inBounds], keys⟩
  inKeys := sound.inKeys
  outgoing := by
    intro o₁ member
    rcases List.mem_append.mp member with before | new
    · exact sound.outgoing o₁ before
    · obtain rfl := List.mem_singleton.mp new
      exact wellFormed
  sending := by
    intro ref index member
    obtain ⟨o₁, found, bound⟩ := sound.sending ref index member
    obtain ⟨inBounds, -⟩ := List.getElem?_eq_some_iff.mp found
    exact ⟨o₁, by rwa [Engine.addOut, List.getElem?_append_left inBounds],
      bound⟩
  completing := sound.completing

theorem addIn (sound : s.Sound) (i : Incoming) : (s.addIn i).Sound where
  outKeys := sound.outKeys
  inKeys := by
    intro bucketId id ref listed
    simp only [Engine.addIn, Rooms.find_put] at listed ⊢
    split at listed
    · rename_i same
      obtain rfl := Option.some.inj listed
      exact ⟨i, by simp, same.1.symm, same.2.symm⟩
    · obtain ⟨i₁, found, keys⟩ := sound.inKeys bucketId id ref listed
      obtain ⟨inBounds, -⟩ := List.getElem?_eq_some_iff.mp found
      exact ⟨i₁, by rwa [List.getElem?_append_left inBounds], keys⟩
  outgoing := sound.outgoing
  sending := sound.sending
  completing := by
    intro ref
    refine (sound.completing ref).trans ?_
    by_cases inBounds : ref < s.incoming.length
    · simp [Engine.addIn, List.getElem?_append_left inBounds]
    · simp [List.getElem?_eq_none (Nat.le_of_not_lt inBounds)]

/-- Rooms may forget transfers. -/
theorem rooms (sound : s.Sound) {out inc : Rooms}
    (outKept : ∀ bucketId id, out.find bucketId id = s.out.find bucketId id ∨
      out.find bucketId id = none)
    (inKept : ∀ bucketId id, inc.find bucketId id = s.inc.find bucketId id ∨
      inc.find bucketId id = none) :
    ({ s with out := out, inc := inc } : Engine).Sound where
  outKeys := by
    intro bucketId id ref listed
    rcases outKept bucketId id with same | gone
    · exact sound.outKeys bucketId id ref (same ▸ listed)
    · exact absurd listed (by simp [gone])
  inKeys := by
    intro bucketId id ref listed
    rcases inKept bucketId id with same | gone
    · exact sound.inKeys bucketId id ref (same ▸ listed)
    · exact absurd listed (by simp [gone])
  outgoing := sound.outgoing
  sending := sound.sending
  completing := sound.completing

theorem remove_inc (sound : s.Sound) (bucketId id : JSString) :
    ({ s with inc := s.inc.remove bucketId id } : Engine).Sound := by
  refine sound.rooms (fun _ _ => .inl rfl) fun other otherId => ?_
  rw [Rooms.find_remove]
  split
  · exact .inr rfl
  · exact .inl rfl

theorem record (sound : s.Sound) (call : Call) : (s.record call).Sound :=
  ⟨sound.outKeys, sound.inKeys, sound.outgoing, sound.sending,
    sound.completing⟩

end Engine.Sound

theorem Outgoing.open_wellFormed (now : Time) (sha256 bucketId : JSString)
    (payload : OutgoingPayload) (resume : Bool) :
    (Outgoing.open now sha256 bucketId payload resume).WellFormed where
  queued := by
    cases resume <;> simp [Outgoing.open]
  apart := by
    simp [Outgoing.open]

/-- Every move keeps the engine sound. -/
theorem Move.sound {sha256 : Bytes → JSString} {turn : Turn} {s s' : Engine}
    (move : Move sha256 turn s s') (sound : s.Sound) : s'.Sound := by
  cases move with
  | note | query | ack | known | ackDone | cancelMsg =>
      exact sound.record _
  | timer =>
      exact ⟨sound.outKeys, sound.inKeys, sound.outgoing, sound.sending,
        sound.completing⟩
  | hashPayload | checkStorage =>
      exact sound.suspend (by simp) fun _ => rfl
  | settled => exact sound.unsuspend _
  | adjustOut found adjusts => exact sound.setOut found adjusts
  | @pumped ref o o' index found adjusts queued =>
      have bound := (sound.outgoing o (List.mem_of_getElem? found)).queued
        index queued
      refine ((sound.setOut found adjusts).record _).suspend ?_ fun _ => rfl
      intro ref' index' same
      obtain ⟨rfl, rfl⟩ := Suspended.send.inj same
      refine ⟨o', ?_, adjusts.total ▸ bound⟩
      simp [Engine.record, Engine.setOut, getElem?_set_of_some found]
  | landed event waiting found adjusts =>
      obtain ⟨o₁, found₁, bound⟩ := sound.sending _ _
        (List.mem_of_getElem? waiting)
      obtain rfl := Option.some.inj (found.symm.trans found₁)
      exact (sound.unsuspend _).setOut found (adjusts bound)
  | register =>
      exact (sound.unsuspend _).addOut (Outgoing.open_wellFormed ..)
  | removeOut kept =>
      exact sound.rooms (fun bucketId id => (kept bucketId id).imp_right
        And.left) fun _ _ => .inl rfl
  | removeIn kept =>
      exact sound.rooms (fun _ _ => .inl rfl) fun bucketId id =>
        (kept bucketId id).imp_right And.left
  | @adjustIn ref i i' found same parts completes =>
      refine sound.setIn found same ?_
      have before := sound.completing ref
      rw [found] at before
      simp only [Option.any_some] at before
      split at before
      · rename_i completing
        simpa [completes completing] using before
      · exact before.trans (Nat.zero_le _)
  | openIn => exact sound.addIn _
  | @filled bucketId ref i i' c event found _ _ _ idle same _ idle' =>
      refine sound.setIn found same ?_
      have before := sound.completing ref
      simpa [found, idle, idle'] using before
  | @startHash ref i data offset found live idle filled =>
      have none := sound.completing ref
      simp only [found, Option.any_some, idle, Bool.false_eq_true, if_false,
        Nat.le_zero] at none
      have marked : (s.setIn ref { i with completing := true }).Sound :=
        sound.setIn found ⟨rfl, rfl, rfl, rfl⟩ (by simp [none])
      have found' : (s.setIn ref { i with completing := true }).incoming[ref]?
          = some { i with completing := true } := by
        simp [Engine.setIn, getElem?_set_of_some found]
      exact marked.suspendCompleting found' rfl none fun _ => rfl
  | @reset pos ok ref i i' task event waiting completes found same _ idle =>
      refine (sound.unsuspend pos).setIn found same ?_
      have before := sound.completing ref
      have taken := countP_eraseIdx waiting (Suspended.completes ref)
      simp only [completes, if_true] at taken
      simp only [Engine.unsuspend, idle]
      split at before <;> omega
  | @startDeliver pos ok ref i data offset event waiting found =>
      have before := sound.completing ref
      have taken := countP_eraseIdx waiting (Suspended.completes ref)
      simp only [Suspended.completes, decide_true, if_true] at taken
      rw [found, Option.any_some] at before
      have completing : i.completing = true := by
        by_contra idle
        rw [if_neg idle] at before
        omega
      rw [if_pos completing] at before
      refine ((sound.unsuspend pos).record _).suspendCompleting found
        completing ?_ fun _ => rfl
      change (s.suspended.eraseIdx pos).countP (Suspended.completes ref) = 0
      omega
  | resolve => exact ((sound.unsuspend _).record _).remove_inc _ _
  | reject => exact (sound.unsuspend _).remove_inc _ _

end Byteln.Client

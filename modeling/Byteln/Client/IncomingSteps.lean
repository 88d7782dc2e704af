import Byteln.Client.TransferTurns

/-!
# What a section does to incoming transfers

A section changes an incoming transfer in one of three ways: its status, a
chunk that is stored, and the parts that are given up.  A property of a single
transfer is an invariant of the engine once these changes keep it.
-/

namespace Byteln.Client

open Byteln.Library

/-! ## Changes of one transfer -/

/-- A change of the status, of the attempts or of a time. -/
structure Incoming.Calm (i i' : Incoming) : Prop where
  same : i.Same i'
  parts : i'.parts = i.parts
  received : i'.received = i.received
  completing : i'.completing = i.completing
  attempts : i.completing = true → i'.attempts = i.attempts

/-- A transfer that is not being completed may count attempts. -/
theorem Incoming.Calm.idle {i i' : Incoming} (idle : ¬ i.completing = true)
    (same : i.Same i') (parts : i'.parts = i.parts)
    (received : i'.received = i.received)
    (completing : i'.completing = i.completing) : i.Calm i' where
  same := same
  parts := parts
  received := received
  completing := completing
  attempts := fun busy => absurd busy idle

/-- All parts are given up. -/
structure Incoming.Cleared (i i' : Incoming) : Prop where
  same : i.Same i'
  parts : i'.parts = i.parts.map fun _ => none
  received : i'.received = 0
  completing : i'.completing = false

/-- A chunk is stored; the last one may start the completion. -/
structure Incoming.Filled (c : TransferChunkPlainMessage Time)
    (i i' : Incoming) : Prop where
  same : i.Same i'
  parts : i'.parts = setPart i.parts c.index c.data
  received : i'.received = i.received + 1
  attempts : i'.attempts = 0
  completing : i'.completing = true → i'.received = i'.total

/-- A property that every change keeps, when the chunks are of a kind. -/
structure Incoming.Rule
    (accepted : TransferChunkPlainMessage Time → Prop)
    (P : Incoming → Prop) : Prop where
  calm : ∀ {i i'}, P i → i.Calm i' → P i'
  cleared : ∀ {i i'}, P i → i.Cleared i' → P i'
  opened : ∀ {c}, accepted c → ∀ now bucketId, P (.open now bucketId c)
  filled : ∀ {c i i'}, accepted c → P i →
    sameHeader i.header c.header = true → i.total = c.total →
    i.completing = false → (i.parts[c.index]?.join).isSome = false →
    i.Filled c i' → P i'

namespace Engine

variable {s s' : Engine} {env : Env}

/-! ## The sender changes none -/

theorem incoming_query (s : Engine) (env : Env) (ref : Ref) (o : Outgoing) :
    (s.query env ref o).incoming = s.incoming := by
  unfold query
  dsimp only
  split <;> rfl

theorem incoming_pumpOn (s : Engine) (env : Env) (ref : Ref) (o : Outgoing) :
    (s.pumpOn env ref o).incoming = s.incoming := by
  unfold pumpOn
  split <;> rfl

theorem incoming_pump (s : Engine) (env : Env) (ref : Ref) :
    (s.pump env ref).incoming = s.incoming := by
  unfold pump
  split
  · rfl
  · split
    · rfl
    · exact incoming_pumpOn s env ref _

theorem incoming_pumpSent (s : Engine) (env : Env) (ref : Ref) (index : Nat)
    (ok : Bool) : (s.pumpSent env ref index ok).incoming = s.incoming := by
  unfold pumpSent
  split
  · rfl
  · split
    · rfl
    · split
      · rfl
      · exact incoming_pumpOn s env ref _

theorem incoming_startSend (s : Engine) (bucketId : JSString)
    (payload : OutgoingPayload) (resume : Bool) :
    (s.startSend bucketId payload resume).incoming = s.incoming := by
  unfold startSend
  split
  · rfl
  · split <;> rfl

theorem incoming_register (s : Engine) (env : Env)
    (sha256 bucketId : JSString) (payload : OutgoingPayload)
    (resume : Bool) :
    (s.register env sha256 bucketId payload resume).incoming =
      s.incoming := by
  unfold register
  dsimp only
  split
  · exact incoming_query _ env _ _
  · exact incoming_pump _ env _

theorem incoming_deleteOut (s : Engine) (o : Outgoing) :
    (s.deleteOut o).incoming = s.incoming :=
  stopTimerIfIdle_incoming _

theorem incoming_handleAck (s : Engine) (env : Env) (bucketId : JSString)
    (ack : TransferAckPlainMessage Time) :
    (s.handleAck env bucketId ack).incoming = s.incoming := by
  unfold handleAck
  split
  · split <;> rfl
  · split
    · exact incoming_deleteOut s _
    · exact incoming_pump _ env _

theorem eachOut_incoming (refs : List Ref)
    {visit : Ref → Outgoing → Engine → Engine}
    (same : ∀ ref o s, (visit ref o s).incoming = s.incoming) (s : Engine) :
    (s.eachOut refs visit).incoming = s.incoming :=
  eachOut_rule (P := fun next => next.incoming = s.incoming)
    (fun before _ => (same _ _ _).trans before) refs rfl

theorem incoming_clearBucket (s : Engine) (bucketId : JSString)
    (forgetPending : Bool) :
    (s.clearBucket bucketId forgetPending).incoming = s.incoming := by
  unfold clearBucket
  dsimp only
  refine (stopTimerIfIdle_incoming _).trans ?_
  split <;> rfl

theorem incoming_tickOut (s : Engine) (env : Env) (ref : Ref)
    (o : Outgoing) : (s.tickOut env ref o).1.incoming = s.incoming := by
  unfold tickOut
  split
  · rfl
  · split
    · split
      · exact incoming_query s env ref _
      · rfl
    · split
      · exact incoming_pump s env ref
      · split
        · rfl
        · dsimp only
          split
          · rfl
          · exact incoming_query s env ref _

theorem visitOut_incoming (env : Env) (refs : List Ref)
    (visited : Engine × List JSString) :
    (refs.foldl (visitOut env) visited).1.incoming = visited.1.incoming := by
  induction refs generalizing visited with
  | nil => rfl
  | cons ref refs induction =>
      refine (induction _).trans ?_
      obtain ⟨s, touched⟩ := visited
      unfold visitOut
      dsimp only
      split
      · rw [touch_fst]
        exact incoming_tickOut s env ref _
      · rfl

theorem publishAll_incoming (rooms : List JSString) (s : Engine) :
    (rooms.foldl (fun s bucketId => s.publish bucketId) s).incoming =
      s.incoming := by
  induction rooms generalizing s with
  | nil => rfl
  | cons bucketId rooms induction => exact induction _

/-! ## The receiver -/

/-- All incoming transfers have a property, also those that no room lists. -/
def AllIn (P : Incoming → Prop) (s : Engine) : Prop :=
  ∀ i ∈ s.incoming, P i

namespace AllIn

variable {P : Incoming → Prop}

theorem of_same (all : s.AllIn P) (same : s'.incoming = s.incoming) :
    s'.AllIn P := by
  unfold AllIn
  rw [same]
  exact all

theorem found (all : s.AllIn P) {ref : Ref} {i : Incoming}
    (found : s.incoming[ref]? = some i) : P i :=
  all i (List.mem_of_getElem? found)

theorem setIn (all : s.AllIn P) (ref : Ref) {i : Incoming} (holds : P i) :
    (s.setIn ref i).AllIn P := by
  intro i' member
  rcases List.mem_or_eq_of_mem_set member with before | rfl
  · exact all i' before
  · exact holds

/-- Only the transfer at a reference has been changed. -/
theorem set (all : s.AllIn P) (ref : Ref) {i : Incoming}
    (same : s'.incoming = s.incoming.set ref i) (holds : P i) :
    s'.AllIn P :=
  (all.setIn ref holds).of_same same

theorem addIn (all : s.AllIn P) {i : Incoming} (holds : P i) :
    (s.addIn i).AllIn P := by
  intro i' member
  rcases List.mem_append.mp member with before | last
  · exact all i' before
  · rw [List.mem_singleton.mp last]
    exact holds

theorem deleteIn (all : s.AllIn P) (i : Incoming) :
    (s.deleteIn i).AllIn P := by
  apply all.of_same
  exact stopTimerIfIdle_incoming _

theorem dropIn (all : s.AllIn P) (found : Option (Ref × Incoming)) :
    (match found with
      | none => s
      | some (_, i) => s.deleteIn i).AllIn P := by
  cases found with
  | none => exact all
  | some pair => exact all.deleteIn pair.2

/-- Changing an outgoing transfer changes no incoming one. -/
theorem visitFound (all : s.AllIn P) (found : Option (Ref × Outgoing))
    (visit : Ref → Outgoing → Engine)
    (same : ∀ ref o, (visit ref o).incoming = s.incoming) :
    (match found with
      | none => s
      | some (ref, o) => visit ref o).AllIn P := by
  cases found with
  | none => exact all
  | some pair => exact all.of_same (same pair.1 pair.2)

theorem handleCancel (all : s.AllIn P) (bucketId : JSString)
    (msg : TransferCancelPlainMessage Time) :
    (s.handleCancel bucketId msg).AllIn P := by
  have marked := all.visitFound (s.findOut bucketId msg.id)
    (fun ref o => s.setOut ref
      { o with
        status := .failed, detail := some (cancelDetail msg.reason),
        inFlight := .empty, queue := [] }) fun _ _ => rfl
  have both := marked.dropIn (s.findIn bucketId msg.id)
  unfold Engine.handleCancel
  dsimp only
  split
  · exact both.of_same rfl
  · exact both

theorem storageChecked (all : s.AllIn P) (ref : Ref) (ok : Bool) :
    (s.storageChecked env ref ok).AllIn P := by
  unfold Engine.storageChecked
  split
  · exact all
  · split
    · exact all
    · exact (all.deleteIn _).of_same rfl

theorem drop (all : s.AllIn P) (bucketId id : JSString) :
    (s.drop bucketId id).1.AllIn P := by
  have dropped := all.visitFound (s.findOut bucketId id)
    (fun _ o => s.deleteOut o) fun _ o => incoming_deleteOut s o
  exact dropped.dropIn (s.findIn bucketId id)

theorem cancel (all : s.AllIn P) (bucketId id : JSString) :
    (s.cancel env bucketId id).AllIn P := by
  have dropped := all.drop bucketId id
  unfold Engine.cancel
  split
  · rename_i s₁ result
    rw [result] at dropped
    exact dropped.of_same rfl
  · rename_i s₁ result
    rw [result] at dropped
    exact dropped

theorem forget (all : s.AllIn P) (bucketId id : JSString) :
    (s.forget bucketId id).AllIn P := by
  have dropped := all.drop bucketId id
  unfold Engine.forget
  split
  · rename_i s₁ result
    rw [result] at dropped
    exact dropped.of_same rfl
  · rename_i s₁ result
    rw [result] at dropped
    exact dropped

/-! ### Changes that a rule covers -/

variable {accepted : TransferChunkPlainMessage Time → Prop}

section

variable (rule : Incoming.Rule accepted P)

include rule

theorem handleQuery (all : s.AllIn P) (bucketId id : JSString) :
    (s.handleQuery env bucketId id).AllIn P := by
  unfold Engine.handleQuery
  split
  · rename_i ref i found
    split
    · exact all
    · rename_i idle
      have holds := all.found (findIn_eq_some_iff.mp found).2
      exact all.set ref rfl (rule.calm holds
        (.idle idle ⟨rfl, rfl, rfl, rfl⟩ rfl rfl rfl))
  · split <;> exact all.of_same rfl

omit rule in
/-- The last chunk has been stored in `i`. -/
theorem complete (all : s.AllIn P) (ref : Ref) {i : Incoming}
    (idle : P { i with completing := false })
    (busy : P { i with completing := true }) :
    (s.complete ref i).AllIn P := by
  have checked := all.setIn ref busy
  unfold Engine.complete
  split
  · exact all.setIn ref idle
  · exact checked
  · exact checked.of_same rfl

theorem fill (all : s.AllIn P) (ref : Ref) {i : Incoming}
    {c : TransferChunkPlainMessage Time} (takes : accepted c) (holds : P i)
    (header : sameHeader i.header c.header = true)
    (total : i.total = c.total) : (s.fill env ref i c).AllIn P := by
  unfold Engine.fill
  split
  · exact all
  · rename_i vacant
    rw [not_or, Bool.not_eq_true, Bool.not_eq_true] at vacant
    obtain ⟨idle, absent⟩ := vacant
    have stores : ∀ {i' : Incoming}, i.Filled c i' → P i' :=
      fun filled => rule.filled takes holds header total idle absent filled
    have waits : ∀ {i' : Incoming}, i.Same i' →
        i'.parts = setPart i.parts c.index c.data →
        i'.received = i.received + 1 → i'.attempts = 0 →
        i'.completing = false → P i' := by
      intro i' same parts received attempts completing
      apply stores ⟨same, parts, received, attempts, ?_⟩
      intro busy
      rw [completing] at busy
      cases busy
    dsimp only
    split
    · rename_i last
      apply AllIn.complete all ref
      · exact waits ⟨rfl, rfl, rfl, rfl⟩ rfl rfl rfl rfl
      · exact stores ⟨⟨rfl, rfl, rfl, rfl⟩, rfl, rfl, rfl, fun _ => last⟩
    · split
      · exact all.set ref rfl
          (waits ⟨rfl, rfl, rfl, rfl⟩ rfl rfl rfl idle)
      · exact all.set ref rfl
          (waits ⟨rfl, rfl, rfl, rfl⟩ rfl rfl rfl idle)

theorem handleChunk (all : s.AllIn P) (bucketId : JSString)
    {c : TransferChunkPlainMessage Time} (takes : accepted c) :
    (s.handleChunk env bucketId c).AllIn P := by
  unfold Engine.handleChunk
  split
  · rename_i ref i found
    split
    · exact all
    · rename_i same
      rw [not_or, not_not, not_not] at same
      have holds := all.found (findIn_eq_some_iff.mp found).2
      exact all.fill rule ref takes holds same.1 same.2
  · split
    · exact all
    · split
      · exact all.of_same rfl
      · dsimp only
        split
        · exact all.of_same rfl
        · have opens := rule.opened takes env.now bucketId
          have added := all.addIn opens
          have header : sameHeader c.header c.header = true := by
            simp [sameHeader]
          apply AllIn.fill rule _ _ takes opens header rfl
          split <;> exact added.of_same rfl

theorem hashed (all : s.AllIn P) (ref : Ref) (data : Bytes) (offset : Nat)
    (sha : JSString) : (s.hashed env ref data offset sha).AllIn P := by
  unfold Engine.hashed
  split
  · exact all
  · rename_i i found
    have holds := all.found found
    split
    · exact all
    · split
      · dsimp only
        split
        · refine of_same (s := (s.setIn ref _).deleteIn _) ?_ rfl
          apply AllIn.deleteIn
          exact all.setIn ref
            (rule.cleared holds ⟨⟨rfl, rfl, rfl, rfl⟩, rfl, rfl, rfl⟩)
        · exact all.set ref rfl
            (rule.cleared holds ⟨⟨rfl, rfl, rfl, rfl⟩, rfl, rfl, rfl⟩)
      · exact all.of_same rfl

theorem stored (all : s.AllIn P) (ref : Ref) (ok : Bool) :
    (s.stored env ref ok).AllIn P := by
  unfold Engine.stored
  split
  · exact all
  · rename_i i found
    split
    · have recorded : (s.record (.delivered i.bucketId i.id)).AllIn P :=
        all.of_same rfl
      exact (recorded.deleteIn i).of_same rfl
    · exact all.set ref rfl (rule.cleared (all.found found)
        ⟨⟨rfl, rfl, rfl, rfl⟩, rfl, rfl, rfl⟩)

end

/-! ### All transfers of a room -/

section

variable (rule : Incoming.Rule accepted P)

include rule

theorem onConnected (all : s.AllIn P) (bucketId : JSString) :
    (s.onConnected env bucketId).AllIn P := by
  unfold Engine.onConnected
  refine of_same (eachIn_rule (P := AllIn P) ?_ _ ?_) rfl
  · intro s ref i all found
    dsimp only
    split
    · exact all
    · rename_i idle
      have holds := all.found found
      split
      · exact all.set ref rfl
          (rule.calm holds (.idle idle ⟨rfl, rfl, rfl, rfl⟩ rfl rfl rfl))
      · exact all.set ref rfl
          (rule.calm holds (.idle idle ⟨rfl, rfl, rfl, rfl⟩ rfl rfl rfl))
  · apply all.of_same
    apply eachOut_incoming
    intro ref o s
    exact incoming_query s env ref _

theorem onDisconnected (all : s.AllIn P) (bucketId : JSString) :
    (s.onDisconnected bucketId).AllIn P := by
  unfold Engine.onDisconnected
  refine of_same (eachIn_rule (P := AllIn P) ?_ _ ?_) rfl
  · intro s ref i all found
    split
    · exact all
    · exact all.set ref rfl (rule.calm (all.found found)
        ⟨⟨rfl, rfl, rfl, rfl⟩, rfl, rfl, rfl, fun _ => rfl⟩)
  · apply all.of_same
    apply eachOut_incoming
    intro ref o s
    split <;> rfl

/-- Asking for the rest of an incoming transfer. -/
theorem resendFound (all : s.AllIn P) (env : Env)
    (found : Option (Ref × Incoming)) (change : Incoming → Incoming)
    (listed : ∀ ref i, found = some (ref, i) → P i)
    (calm : ∀ i : Incoming, ¬ i.completing = true → i.Calm (change i)) :
    (match found with
      | none => s
      | some (ref, i) =>
          if i.completing then s
          else s.setIn ref (change i)
            |>.sendAck env (change i) true false).AllIn P := by
  cases found with
  | none => exact all
  | some pair =>
      dsimp only
      split
      · exact all
      · rename_i idle
        have holds := listed pair.1 pair.2 rfl
        exact all.set pair.1 rfl (rule.calm holds (calm pair.2 idle))

theorem retry (all : s.AllIn P) (bucketId id : JSString) :
    (s.retry env bucketId id).AllIn P := by
  have asked := all.visitFound (s.findOut bucketId id)
    (fun ref o => s.query env ref
      { o with
        attempts := 0, status := .active, detail := none,
        inFlight := .empty }) fun ref _ => incoming_query s env ref _
  let fresh := fun i : Incoming =>
    { i with
      attempts := 0, status := .active, detail := none,
      lastActivityAt := env.now }
  have calm : ∀ i : Incoming, ¬ i.completing = true → i.Calm (fresh i) :=
    fun i idle => .idle idle ⟨rfl, rfl, rfl, rfl⟩ rfl rfl rfl
  refine of_same (asked.resendFound rule env _ fresh ?_ calm) rfl
  intro ref i found
  exact asked.found (findIn_eq_some_iff.mp found).2

/-- A tick leaves a payload alone that is being checked. -/
theorem tickIn (all : s.AllIn P) (ref : Ref) {i : Incoming} (holds : P i) :
    (s.tickIn env ref i).1.AllIn P := by
  unfold Engine.tickIn
  split
  · exact all
  · rename_i idle
    have calm : ∀ {i' : Incoming}, i.Same i' → i'.parts = i.parts →
        i'.received = i.received → i'.completing = i.completing → P i' :=
      fun same parts received completing =>
        rule.calm holds (.idle idle same parts received completing)
    split
    · split
      · exact all.deleteIn i
      · exact all
    · split
      · exact all
      · dsimp only
        split
        · split
          · exact all.set ref rfl (calm ⟨rfl, rfl, rfl, rfl⟩ rfl rfl rfl)
          · exact all.set ref rfl (calm ⟨rfl, rfl, rfl, rfl⟩ rfl rfl rfl)
        · split
          · exact all.set ref rfl (calm ⟨rfl, rfl, rfl, rfl⟩ rfl rfl rfl)
          · exact all.set ref rfl (calm ⟨rfl, rfl, rfl, rfl⟩ rfl rfl rfl)

theorem visitIn (refs : List Ref) {visited : Engine × List JSString}
    (all : visited.1.AllIn P) :
    (refs.foldl (Engine.visitIn env) visited).1.AllIn P := by
  induction refs generalizing visited with
  | nil => exact all
  | cons ref refs induction =>
      apply induction
      obtain ⟨s, touched⟩ := visited
      unfold Engine.visitIn
      dsimp only
      split
      · rename_i i found
        rw [touch_fst]
        exact tickIn rule all ref (all.found found)
      · exact all

theorem tick (all : s.AllIn P) : (s.tick env).AllIn P := by
  unfold Engine.tick
  dsimp only
  refine of_same (visitIn rule _ ?_) (publishAll_incoming _ _)
  exact all.of_same (visitOut_incoming env s.out.allRefs (s, []))

/-! ### Sections -/

theorem settle {sha256 : Bytes → JSString} {ok : Bool} (all : s.AllIn P)
    (task : Suspended) : (s.settle sha256 env ok task).AllIn P := by
  cases task with
  | hashPayload bucketId payload resume =>
      exact all.of_same (incoming_register s env _ _ _ _)
  | send ref index =>
      exact all.of_same (incoming_pumpSent s env ref index ok)
  | hashData ref data offset => exact all.hashed rule ref data offset _
  | deliver ref => exact all.stored rule ref ok
  | storage ref => exact all.storageChecked ref ok

/-- Every section keeps the property, if the chunk it brings is accepted. -/
theorem step {sha256 : Bytes → JSString} {event : Event} (all : s.AllIn P)
    (takes : ∀ bucketId c, event = .handleChunk bucketId c → accepted c)
    (stepped : s.step sha256 env event = some s') : s'.AllIn P := by
  cases event with
  | settle pos ok =>
      obtain ⟨task, -, rfl⟩ := Option.map_eq_some_iff.mp stepped
      have before : (s.unsuspend pos).AllIn P := all.of_same rfl
      exact before.settle rule task
  | startSend bucketId payload resume =>
      cases stepped
      exact all.of_same (incoming_startSend s bucketId payload resume)
  | handleAck bucketId ack =>
      cases stepped
      exact all.of_same (incoming_handleAck s env bucketId ack)
  | handleCancel bucketId msg =>
      cases stepped
      exact all.handleCancel bucketId msg
  | handleQuery bucketId id =>
      cases stepped
      exact all.handleQuery rule bucketId id
  | handleChunk bucketId c =>
      cases stepped
      exact all.handleChunk rule bucketId (takes bucketId c rfl)
  | onConnected bucketId =>
      cases stepped
      exact all.onConnected rule bucketId
  | onDisconnected bucketId =>
      cases stepped
      exact all.onDisconnected rule bucketId
  | retry bucketId id =>
      cases stepped
      exact all.retry rule bucketId id
  | cancel bucketId id =>
      cases stepped
      exact all.cancel bucketId id
  | forget bucketId id =>
      cases stepped
      exact all.forget bucketId id
  | clearBucket bucketId forgetPending =>
      cases stepped
      exact all.of_same (incoming_clearBucket s bucketId forgetPending)
  | clearAll =>
      cases stepped
      exact all.of_same (stopTimerIfIdle_incoming _)
  | tick =>
      cases stepped
      exact all.tick rule

end

end AllIn

end Engine

end Byteln.Client

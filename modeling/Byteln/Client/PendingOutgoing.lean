import Byteln.Client.TransferTurns

/-!
# Attachments that are pending

The list of the attachments a room has not delivered yet is stored, and read
again after a page reload, when each of them is offered to the peer anew.  Each
transfer that is registered or dropped replaces the stored list by the
transfers in memory.
-/

namespace Byteln.Client

open Byteln.Library

/-- A list that is passed to `persistPending`, with its room. -/
def Call.pending? : Call → Option (JSString × List JSString)
  | .persistPending bucketId ids => some (bucketId, ids)
  | _ => none

/-- The list that a call stores for a room. -/
def Call.listFor (bucketId : JSString) (call : Call) :
    Option (List JSString) :=
  (call.pending?.filter fun stored => stored.1 = bucketId).map Prod.snd

/-! ## The loop -/

/-- What a stored message is offered as, if it is an attachment of one's
own. -/
def StoredMessage.resumable? (m : StoredMessage Time) :
    Option OutgoingPayload :=
  match m.origin, m.content with
  | .self, .image image =>
      some
        { id := m.id, kind := .image, ts := image.ts, mime := image.mime.text,
          data := image.data, name := none, w := image.w, h := image.h,
          replyTo := image.replyTo }
  | .self, .file file =>
      some
        { id := m.id, kind := .file, ts := file.ts, mime := file.mime,
          data := file.data, name := some file.name, w := none, h := none,
          replyTo := file.replyTo }
  | _, _ => none

/-- Where `resumePendingOutgoing` is, after it has read the list: before the
next id, in the `startSend` of one, or at its end. -/
inductive Resuming where
  | next (ids : List JSString) (resumed : Nat)
  | offering (id : JSString) (ids : List JSString) (resumed : Nat)
  | ended

/-- The engine of a page, and the loop for a room that has been opened. -/
structure Page where
  engine : Engine
  /-- What was last stored for the room since the loop began. -/
  passed : Option (List JSString)
  resuming : Resuming

inductive PageLabel where
  | engine (event : Event) (env : Env)
  | resume

namespace Page

variable (sha256 : Bytes → JSString) (bucketId : JSString)
  (messages : List (StoredMessage Time))

/-- The message that `byId` has for an id: the last one. -/
def byId (id : JSString) : Option (StoredMessage Time) :=
  messages.reverse.find? fun m => m.id = id

/-- The loop goes on when its `startSend` has registered the transfer. -/
def resumingAfter (page : Page) (event : Event) : Resuming :=
  match page.resuming, event.task page.engine with
  | .offering id ids resumed, some (.hashPayload other payload true) =>
      if other = bucketId ∧ payload.id = id then .next ids (resumed + 1)
      else page.resuming
  | resuming, _ => resuming

/-- One turn of the loop. -/
def offer (page : Page) (id : JSString) (ids : List JSString)
    (resumed : Nat) : Page :=
  match (byId messages id).bind StoredMessage.resumable? with
  | none => { page with resuming := .next ids resumed }
  | some payload =>
      { page with
        engine := page.engine.startSend bucketId payload true
        resuming :=
          -- a payload that is too large is only logged
          if payload.data.length > MAX_TRANSFER_BYTES then .next ids resumed
          else if (page.engine.out.find bucketId id).isSome then
            .next ids (resumed + 1)
          else .offering id ids resumed }

def step (page : Page) : PageLabel → Option Page
  | .engine event env =>
      (page.engine.step sha256 env event).map fun engine =>
        { engine := engine
          passed := ((engine.log.drop page.engine.log.length).filterMap
            (Call.listFor bucketId)).getLast?.or page.passed
          resuming := page.resumingAfter bucketId event }
  | .resume =>
      match page.resuming with
      | .next [] resumed =>
          some { page with
            passed := if resumed = 0 then some [] else page.passed
            resuming := .ended }
      | .next (id :: ids) resumed =>
          some (page.offer bucketId messages id ids resumed)
      | .offering _ _ _ => none
      | .ended => none

/-- The loop begins with the list `ids`, in a room without transfers. -/
structure Starts (limits : TransferLimits) (checksStorage : Bool)
    (ids : List JSString) (page : Page) : Prop where
  engine : (Engine.system sha256 limits checksStorage).Reachable page.engine
  empty : page.engine.out.ids bucketId = []
  passed : page.passed = none
  resuming : page.resuming = if ids = [] then .ended else .next ids 0

def system (limits : TransferLimits) (checksStorage : Bool)
    (ids : List JSString) : Lts Page PageLabel where
  init := Starts sha256 bucketId limits checksStorage ids
  step := fun page label page' =>
    page.step sha256 bucketId messages label = some page'

end Page

namespace Engine

variable {s s' s₁ : Engine} {env : Env}

/-! ## Sections that store no list -/

/-- The outgoing transfers stay listed as they are, and no list is stored. -/
structure Calm (s s' : Engine) : Prop where
  out : s'.out = s.out
  log : ∃ calls, s'.log = s.log ++ calls ∧
    ∀ call ∈ calls, call.pending? = none

theorem Calm.of_same (out : s'.out = s.out) (log : s'.log = s.log) :
    Calm s s' :=
  ⟨out, [], by simp [log], by simp⟩

theorem Calm.refl (s : Engine) : Calm s s := .of_same rfl rfl

theorem Calm.trans (first : Calm s s₁) (second : Calm s₁ s') : Calm s s' := by
  obtain ⟨calls, log, none⟩ := first.log
  obtain ⟨calls', log', none'⟩ := second.log
  refine ⟨second.out.trans first.out, calls ++ calls', ?_, ?_⟩
  · rw [log', log, List.append_assoc]
  · intro call member
    exact (List.mem_append.mp member).elim (none call) (none' call)

theorem record_calm (s : Engine) {call : Call} (none : call.pending? = none) :
    Calm s (s.record call) :=
  ⟨rfl, [call], rfl, by simpa using none⟩

theorem publish_calm (s : Engine) (bucketId : JSString) :
    Calm s (s.publish bucketId) := record_calm s rfl

theorem sendCtl_calm (s : Engine) (bucketId : JSString) (msg : Message) :
    Calm s (s.sendCtl bucketId msg) := record_calm s rfl

theorem sendAck_calm (s : Engine) (env : Env) (i : Incoming)
    (resend done : Bool) : Calm s (s.sendAck env i resend done) :=
  sendCtl_calm s _ _

theorem sendCancel_calm (s : Engine) (env : Env)
    (bucketId id reason : JSString) :
    Calm s (s.sendCancel env bucketId id reason) := sendCtl_calm s _ _

theorem setOut_calm (s : Engine) (ref : Ref) (o : Outgoing) :
    Calm s (s.setOut ref o) := .of_same rfl rfl

theorem setIn_calm (s : Engine) (ref : Ref) (i : Incoming) :
    Calm s (s.setIn ref i) := .of_same rfl rfl

theorem suspend_calm (s : Engine) (task : Suspended) :
    Calm s (s.suspend task) := .of_same rfl rfl

theorem unsuspend_calm (s : Engine) (index : Nat) :
    Calm s (s.unsuspend index) := .of_same rfl rfl

theorem ensureTimer_calm (s : Engine) : Calm s s.ensureTimer :=
  .of_same rfl rfl

theorem stopTimerIfIdle_calm (s : Engine) : Calm s s.stopTimerIfIdle := by
  unfold stopTimerIfIdle
  split
  · exact .of_same rfl rfl
  · exact .refl s

theorem deleteIn_calm (s : Engine) (i : Incoming) : Calm s (s.deleteIn i) := by
  have removed : Calm s { s with inc := s.inc.remove i.bucketId i.id } :=
    .of_same rfl rfl
  exact removed.trans (stopTimerIfIdle_calm _)

theorem query_calm (s : Engine) (env : Env) (ref : Ref) (o : Outgoing) :
    Calm s (s.query env ref o) := by
  unfold query
  dsimp only
  split
  · exact (setOut_calm s ref _).trans (sendCtl_calm _ _ _)
  · exact setOut_calm s ref _

theorem startSend_calm (s : Engine) (bucketId : JSString)
    (payload : OutgoingPayload) (resume : Bool) :
    Calm s (s.startSend bucketId payload resume) := by
  unfold startSend
  split
  · exact .refl s
  · split
    · exact .refl s
    · exact suspend_calm s _

theorem pumpOn_calm (s : Engine) (env : Env) (ref : Ref) (o : Outgoing) :
    Calm s (s.pumpOn env ref o) := by
  unfold pumpOn
  split
  · exact ((setOut_calm s ref _).trans (record_calm _ rfl)).trans
      (suspend_calm _ _)
  · exact (setOut_calm s ref _).trans (publish_calm _ _)

theorem pump_calm (s : Engine) (env : Env) (ref : Ref) :
    Calm s (s.pump env ref) := by
  unfold pump
  split
  · exact .refl s
  · split
    · exact .refl s
    · exact pumpOn_calm s env ref _

theorem pumpSent_calm (s : Engine) (env : Env) (ref : Ref) (index : Nat)
    (ok : Bool) : Calm s (s.pumpSent env ref index ok) := by
  unfold pumpSent
  split
  · exact .refl s
  · split
    · exact setOut_calm s ref _
    · split
      · exact (setOut_calm s ref _).trans (publish_calm _ _)
      · exact pumpOn_calm s env ref _

theorem setFound_calm (s : Engine) (found : Option (Ref × Outgoing))
    (change : Outgoing → Outgoing) :
    Calm s (match found with
      | none => s
      | some (ref, o) => s.setOut ref (change o)) := by
  cases found with
  | none => exact .refl s
  | some pair => exact setOut_calm s pair.1 _

theorem deleteFound_calm (s : Engine) (found : Option (Ref × Incoming)) :
    Calm s (match found with
      | none => s
      | some (_, i) => s.deleteIn i) := by
  cases found with
  | none => exact .refl s
  | some pair => exact deleteIn_calm s pair.2

theorem handleCancel_calm (s : Engine) (bucketId : JSString)
    (msg : TransferCancelPlainMessage Time) :
    Calm s (s.handleCancel bucketId msg) := by
  have both := (setFound_calm s (s.findOut bucketId msg.id) fun o =>
    { o with
      status := .failed, detail := some (cancelDetail msg.reason),
      inFlight := .empty, queue := [] }).trans
        (deleteFound_calm _ (s.findIn bucketId msg.id))
  unfold handleCancel
  dsimp only
  split
  · exact both.trans (publish_calm _ _)
  · exact both

theorem ackKnown_calm (s : Engine) (env : Env) (bucketId id : JSString) :
    Calm s (s.ackKnown env bucketId id) :=
  (record_calm s rfl).trans (sendCtl_calm _ _ _)

theorem handleQuery_calm (s : Engine) (env : Env) (bucketId id : JSString) :
    Calm s (s.handleQuery env bucketId id) := by
  unfold handleQuery
  split
  · split
    · exact .refl s
    · exact ((setIn_calm s _ _).trans (sendAck_calm _ _ _ _ _)).trans
        (publish_calm _ _)
  · split
    · exact ackKnown_calm s env bucketId id
    · exact sendCtl_calm s _ _

theorem complete_calm (s : Engine) (ref : Ref) (i : Incoming) :
    Calm s (s.complete ref i) := by
  unfold complete
  split
  · exact setIn_calm s ref _
  · exact setIn_calm s ref _
  · exact (setIn_calm s ref _).trans (suspend_calm _ _)

theorem fill_calm (s : Engine) (env : Env) (ref : Ref) (i : Incoming)
    (c : TransferChunkPlainMessage Time) : Calm s (s.fill env ref i c) := by
  unfold fill
  split
  · exact .refl s
  · dsimp only
    split
    · exact complete_calm s ref _
    · split
      · exact ((setIn_calm s ref _).trans (sendAck_calm _ _ _ _ _)).trans
          (publish_calm _ _)
      · exact (setIn_calm s ref _).trans (publish_calm _ _)

theorem handleChunk_calm (s : Engine) (env : Env) (bucketId : JSString)
    (c : TransferChunkPlainMessage Time) :
    Calm s (s.handleChunk env bucketId c) := by
  unfold handleChunk
  split
  · split
    · exact .refl s
    · exact fill_calm s env _ _ c
  · split
    · exact .refl s
    · split
      · exact ackKnown_calm s env bucketId c.id
      · dsimp only
        split
        · exact sendCancel_calm s env _ _ _
        · have opened : Calm s
              (s.addIn (.open env.now bucketId c)).ensureTimer :=
            .of_same rfl rfl
          split
          · exact (opened.trans (suspend_calm _ _)).trans
              (fill_calm _ env _ _ c)
          · exact opened.trans (fill_calm _ env _ _ c)

theorem storageChecked_calm (s : Engine) (env : Env) (ref : Ref) (ok : Bool) :
    Calm s (s.storageChecked env ref ok) := by
  unfold storageChecked
  split
  · exact .refl s
  · split
    · exact .refl s
    · exact ((deleteIn_calm s _).trans (sendCancel_calm _ _ _ _ _)).trans
        (publish_calm _ _)

theorem hashed_calm (s : Engine) (env : Env) (ref : Ref) (data : Bytes)
    (offset : Nat) (sha : JSString) :
    Calm s (s.hashed env ref data offset sha) := by
  unfold hashed
  split
  · exact .refl s
  · split
    · exact .refl s
    · split
      · refine Calm.trans ?_ (publish_calm _ _)
        split
        · exact ((setIn_calm s ref _).trans (deleteIn_calm _ _)).trans
            (sendCancel_calm _ _ _ _ _)
        · exact (setIn_calm s ref _).trans (sendAck_calm _ _ _ _ _)
      · exact (record_calm s rfl).trans (suspend_calm _ _)

theorem stored_calm (s : Engine) (env : Env) (ref : Ref) (ok : Bool) :
    Calm s (s.stored env ref ok) := by
  unfold stored
  split
  · exact .refl s
  · split
    · exact (((record_calm s rfl).trans (deleteIn_calm _ _)).trans
        (sendAck_calm _ _ _ _ _)).trans (publish_calm _ _)
    · exact (setIn_calm s ref _).trans (publish_calm _ _)

theorem eachOut_calm (refs : List Ref)
    {visit : Ref → Outgoing → Engine → Engine}
    (calm : ∀ ref o s, Calm s (visit ref o s)) (s : Engine) :
    Calm s (s.eachOut refs visit) :=
  eachOut_rule (P := Calm s) (fun before _ => before.trans (calm _ _ _)) refs
    (.refl s)

theorem eachIn_calm (refs : List Ref)
    {visit : Ref → Incoming → Engine → Engine}
    (calm : ∀ ref i s, Calm s (visit ref i s)) (s : Engine) :
    Calm s (s.eachIn refs visit) :=
  eachIn_rule (P := Calm s) (fun before _ => before.trans (calm _ _ _)) refs
    (.refl s)

theorem onConnected_calm (s : Engine) (env : Env) (bucketId : JSString) :
    Calm s (s.onConnected env bucketId) := by
  refine Calm.trans (Calm.trans (eachOut_calm _ ?_ s) (eachIn_calm _ ?_ _))
    (publish_calm _ _)
  · intro ref o s
    exact query_calm s env ref _
  · intro ref i s
    dsimp only
    split
    · exact .refl s
    · split
      · exact (setIn_calm s ref _).trans (sendAck_calm _ _ _ _ _)
      · exact setIn_calm s ref _

theorem onDisconnected_calm (s : Engine) (bucketId : JSString) :
    Calm s (s.onDisconnected bucketId) := by
  refine Calm.trans (Calm.trans (eachOut_calm _ ?_ s) (eachIn_calm _ ?_ _))
    (publish_calm _ _)
  · intro ref o s
    split
    · exact .refl s
    · exact setOut_calm s ref _
  · intro ref i s
    split
    · exact .refl s
    · exact setIn_calm s ref _

theorem queryFound_calm (s : Engine) (env : Env)
    (found : Option (Ref × Outgoing)) (change : Outgoing → Outgoing) :
    Calm s (match found with
      | none => s
      | some (ref, o) => s.query env ref (change o)) := by
  cases found with
  | none => exact .refl s
  | some pair => exact query_calm s env pair.1 _

theorem resendFound_calm (s : Engine) (env : Env)
    (found : Option (Ref × Incoming)) (change : Incoming → Incoming) :
    Calm s (match found with
      | none => s
      | some (ref, i) =>
          if i.completing then s
          else s.setIn ref (change i) |>.sendAck env (change i) true false) := by
  cases found with
  | none => exact .refl s
  | some pair =>
      dsimp only
      split
      · exact .refl s
      · exact (setIn_calm s pair.1 _).trans (sendAck_calm _ _ _ _ _)

theorem retry_calm (s : Engine) (env : Env) (bucketId id : JSString) :
    Calm s (s.retry env bucketId id) := by
  have asked := queryFound_calm s env (s.findOut bucketId id) fun o =>
    { o with
      attempts := 0, status := .active, detail := none, inFlight := .empty }
  have resent := fun s₁ : Engine => resendFound_calm s₁ env
    (s₁.findIn bucketId id) fun i =>
      { i with
        attempts := 0, status := .active, detail := none,
        lastActivityAt := env.now }
  exact ((asked.trans (resent _)).trans (ensureTimer_calm _)).trans
    (publish_calm _ _)

theorem tickOut_calm (s : Engine) (env : Env) (ref : Ref) (o : Outgoing) :
    Calm s (s.tickOut env ref o).1 := by
  unfold tickOut
  split
  · exact .refl s
  · split
    · split
      · exact query_calm s env ref _
      · exact .refl s
    · split
      · exact pump_calm s env ref
      · split
        · exact .refl s
        · dsimp only
          split
          · exact setOut_calm s ref _
          · exact query_calm s env ref _

theorem tickIn_calm (s : Engine) (env : Env) (ref : Ref) (i : Incoming) :
    Calm s (s.tickIn env ref i).1 := by
  unfold tickIn
  split
  · exact .refl s
  · split
    · split
      · exact deleteIn_calm s i
      · exact .refl s
    · split
      · exact .refl s
      · dsimp only
        split
        · split <;> exact setIn_calm s ref _
        · split
          · exact setIn_calm s ref _
          · exact (setIn_calm s ref _).trans (sendAck_calm _ _ _ _ _)

theorem visitOut_calm (env : Env) (ref : Ref)
    (visited : Engine × List JSString) :
    Calm visited.1 (visitOut env visited ref).1 := by
  obtain ⟨s, touched⟩ := visited
  unfold visitOut
  dsimp only
  split
  · rw [touch_fst]
    exact tickOut_calm s env ref _
  · exact .refl s

theorem visitIn_calm (env : Env) (ref : Ref)
    (visited : Engine × List JSString) :
    Calm visited.1 (visitIn env visited ref).1 := by
  obtain ⟨s, touched⟩ := visited
  unfold visitIn
  dsimp only
  split
  · rw [touch_fst]
    exact tickIn_calm s env ref _
  · exact .refl s

theorem foldl_calm
    {visit : Engine × List JSString → Ref → Engine × List JSString}
    (calm : ∀ ref visited, Calm visited.1 (visit visited ref).1)
    (refs : List Ref) (visited : Engine × List JSString) :
    Calm visited.1 (refs.foldl visit visited).1 := by
  induction refs generalizing visited with
  | nil => exact .refl _
  | cons ref refs induction => exact (calm ref visited).trans (induction _)

theorem publishAll_calm (rooms : List JSString) (s : Engine) :
    Calm s (rooms.foldl (fun s bucketId => s.publish bucketId) s) := by
  induction rooms generalizing s with
  | nil => exact .refl s
  | cons bucketId rooms induction =>
      exact (publish_calm s bucketId).trans (induction _)

theorem tick_calm (s : Engine) (env : Env) : Calm s (s.tick env) := by
  unfold tick
  have sent : Calm s (s.out.allRefs.foldl (visitOut env) (s, [])).1 :=
    foldl_calm (visitOut_calm env) s.out.allRefs (s, [])
  exact (sent.trans (foldl_calm (visitIn_calm env) _ _)).trans
    (publishAll_calm _ _)

/-! ## The stored list of one room -/

/-- The lists stored for a room between two states. -/
def Stores (bucketId : JSString) (s s' : Engine)
    (lists : List (List JSString)) : Prop :=
  ∃ calls, s'.log = s.log ++ calls ∧
    calls.filterMap (Call.listFor bucketId) = lists

variable {bucketId : JSString} {lists lists' : List (List JSString)}

theorem Stores.trans (first : Stores bucketId s s₁ lists)
    (second : Stores bucketId s₁ s' lists') :
    Stores bucketId s s' (lists ++ lists') := by
  obtain ⟨calls, log, rfl⟩ := first
  obtain ⟨calls', log', rfl⟩ := second
  refine ⟨calls ++ calls', ?_, List.filterMap_append⟩
  rw [log', log, List.append_assoc]

theorem Calm.stores (calm : Calm s s') (bucketId : JSString) :
    Stores bucketId s s' [] := by
  obtain ⟨calls, log, none⟩ := calm.log
  refine ⟨calls, log, List.filterMap_eq_nil_iff.mpr ?_⟩
  intro call member
  simp [Call.listFor, none call member]

theorem Stores.calm (stores : Stores bucketId s s₁ lists)
    (calm : Calm s₁ s') : Stores bucketId s s' lists := by
  have both := stores.trans (calm.stores bucketId)
  rwa [List.append_nil] at both

theorem Stores.passed (stores : Stores bucketId s s' lists) :
    (s'.log.drop s.log.length).filterMap (Call.listFor bucketId) = lists := by
  obtain ⟨calls, log, passed⟩ := stores
  rw [log, List.drop_left, passed]

/-- `persistPending` is told the transfers of the room that are listed. -/
theorem persist_stores (s : Engine) (bucketId : JSString) :
    Stores bucketId s (s.persist bucketId) [s.out.ids bucketId] :=
  ⟨[_], rfl, by simp [Call.listFor, Call.pending?]⟩

theorem persist_stores_other (s : Engine) {bucketId other : JSString}
    (different : other ≠ bucketId) :
    Stores bucketId s (s.persist other) [] :=
  ⟨[_], rfl, by simp [Call.listFor, Call.pending?, different]⟩

end Engine

namespace Page

variable {bucketId : JSString}

/-- The transfer of the room that a section registers. -/
def registers (bucketId : JSString) (engine : Engine) (event : Event) :
    Option JSString :=
  match event.task engine with
  | some (.hashPayload other payload _) =>
      if other = bucketId then some payload.id else none
  | _ => none

/-- The transfers of the room are forgotten, but not their list. -/
def clears (bucketId : JSString) : Event → Bool
  | .clearBucket other _ => other = bucketId
  | .clearAll => true
  | _ => false

/-- The peer confirms an attachment, or the user cancels or deletes it. -/
def releases (bucketId id : JSString) : Event → Bool
  | .handleAck other ack => other = bucketId ∧ ack.id = id ∧ ack.done
  | .cancel other otherId => other = bucketId ∧ otherId = id
  | .forget other otherId => other = bucketId ∧ otherId = id
  | .clearBucket other forgetPending => other = bucketId ∧ forgetPending
  | _ => false

/-- What a section does to the transfers of a room and to their stored
list. -/
inductive Effect (bucketId : JSString) (s : Engine) (event : Event)
    (s' : Engine) : Prop where
  | calm :
      registers bucketId s event = none → clears bucketId event = false →
      (∀ id, s'.out.find bucketId id = s.out.find bucketId id) →
      Engine.Stores bucketId s s' [] → Effect bucketId s event s'
  | registers (id : JSString) :
      registers bucketId s event = some id →
      (∀ other, (s'.out.find bucketId other).isSome ↔
        other = id ∨ (s.out.find bucketId other).isSome) →
      Engine.Stores bucketId s s' [s'.out.ids bucketId] →
      Effect bucketId s event s'
  | drops (id : JSString) :
      registers bucketId s event = none → clears bucketId event = false →
      releases bucketId id event = true →
      (s.out.find bucketId id).isSome →
      (∀ other, (s'.out.find bucketId other).isSome ↔
        other ≠ id ∧ (s.out.find bucketId other).isSome) →
      Engine.Stores bucketId s s' [s'.out.ids bucketId] →
      Effect bucketId s event s'
  | clears :
      registers bucketId s event = none → clears bucketId event = true →
      (∀ id, s'.out.find bucketId id = none) →
      (Engine.Stores bucketId s s' [] ∨
        (∀ id, releases bucketId id event = true)) →
      Effect bucketId s event s'

end Page

namespace Engine

open Page

variable {s s' s₁ : Engine} {env : Env} {bucketId : JSString} {event : Event}

theorem Calm.effect (calm : Calm s s')
    (registersNone : registers bucketId s event = none)
    (kept : clears bucketId event = false) : Effect bucketId s event s' :=
  .calm registersNone kept (fun _ => by rw [calm.out]) (calm.stores bucketId)

/-- The list of a room is stored after its transfers have changed. -/
theorem stores_persist {other : JSString} (log : s₁.log = s.log)
    (later : Calm (s₁.persist other) s') (bucketId : JSString) :
    Stores bucketId s s'
      (if other = bucketId then [s'.out.ids bucketId] else []) := by
  have same : Stores bucketId s s₁ [] := ⟨[], by simp [log], rfl⟩
  have out : s'.out = s₁.out := later.out
  split
  · rename_i here
    subst here
    rw [out]
    exact (same.trans (persist_stores s₁ other)).calm later
  · rename_i different
    exact (same.trans (persist_stores_other s₁ different)).calm later

/-- A transfer is registered and the list of its room stored. -/
theorem register_effect {s₀ : Engine} (before : Calm s₀ s)
    (log : s.log = s₀.log) (sha256 other : JSString)
    (payload : OutgoingPayload) (resume : Bool)
    (registered : registers bucketId s₀ event =
      if other = bucketId then some payload.id else none)
    (kept : clears bucketId event = false) :
    Effect bucketId s₀ event
      (s.register env sha256 other payload resume) := by
  let o := Outgoing.open env.now sha256 other payload resume
  have later : Calm ((s.addOut o).persist other)
      (s.register env sha256 other payload resume) := by
    refine (ensureTimer_calm _).trans (Calm.trans ?_ (publish_calm _ _))
    split
    · exact query_calm _ env _ _
    · exact pump_calm _ env _
  have out : (s.register env sha256 other payload resume).out =
      s₀.out.put other payload.id s.outgoing.length := by
    rw [later.out, ← before.out]
    rfl
  have added : (s.addOut o).log = s₀.log := log
  have stores := stores_persist added later bucketId
  by_cases here : other = bucketId
  · subst here
    rw [if_pos rfl] at stores registered
    refine .registers payload.id registered ?_ stores
    intro id
    rw [out, Rooms.find_put]
    by_cases same : id = payload.id <;> simp [same]
  · rw [if_neg here] at stores registered
    refine .calm registered kept ?_ stores
    intro id
    rw [out, Rooms.find_put]
    simp [Ne.symm here]

/-- A transfer leaves its room and the list of the room is stored. -/
theorem deleteOut_effect {o : Outgoing}
    (present : (s.out.find o.bucketId o.id).isSome)
    (later : Calm (s.deleteOut o) s')
    (registersNone : registers bucketId s event = none)
    (kept : clears bucketId event = false)
    (released : releases o.bucketId o.id event = true) :
    Effect bucketId s event s' := by
  let removed : Engine :=
    { s with out := s.out.remove o.bucketId o.id }
  have deleted : Calm (removed.persist o.bucketId) s' :=
    (stopTimerIfIdle_calm _).trans later
  have out : s'.out = s.out.remove o.bucketId o.id := deleted.out
  have log : removed.log = s.log := rfl
  have stores := stores_persist log deleted bucketId
  by_cases here : o.bucketId = bucketId
  · subst here
    rw [if_pos rfl] at stores
    refine .drops o.id registersNone kept released present ?_ stores
    intro id
    rw [out, Rooms.find_remove]
    by_cases same : id = o.id <;> simp [same]
  · rw [if_neg here] at stores
    refine .calm registersNone kept ?_ stores
    intro id
    rw [out, Rooms.find_remove]
    simp [Ne.symm here]

theorem handleAck_effect (sound : s.Sound) (other : JSString)
    (ack : TransferAckPlainMessage Time) :
    Effect bucketId s (.handleAck other ack) (s.handleAck env other ack) := by
  unfold handleAck
  split
  · split
    · exact (sendCancel_calm s env _ _ _).effect rfl rfl
    · exact (Calm.refl s).effect rfl rfl
  · rename_i ref o found
    obtain ⟨listed, -, sameBucket, sameId⟩ := sound.findOut found
    split
    · rename_i done
      have present : (s.out.find o.bucketId o.id).isSome := by
        rw [sameBucket, sameId, listed]
        rfl
      refine deleteOut_effect present ?_ rfl rfl ?_
      · exact (publish_calm _ _).trans (record_calm _ rfl)
      · simp [releases, sameBucket, sameId, done]
    · exact ((setOut_calm s ref _).trans (publish_calm _ _)).trans
        (pump_calm _ env ref) |>.effect rfl rfl

/-- Dropping a transfer stores the list only if there was an outgoing one. -/
theorem drop_effect (sound : s.Sound) {other id : JSString}
    (later : Calm (s.drop other id).1 s')
    (registersNone : registers bucketId s event = none)
    (kept : clears bucketId event = false)
    (released : releases other id event = true) :
    Effect bucketId s event s' := by
  have dropped := fun s₁ : Engine => deleteFound_calm s₁ (s.findIn other id)
  unfold drop at later
  dsimp only at later
  cases found : s.findOut other id with
  | none =>
      rw [found] at later
      exact ((dropped s).trans later).effect registersNone kept
  | some pair =>
      obtain ⟨ref, o⟩ := pair
      rw [found] at later
      obtain ⟨listed, -, sameBucket, sameId⟩ := sound.findOut found
      have present : (s.out.find o.bucketId o.id).isSome := by
        rw [sameBucket, sameId, listed]
        rfl
      refine deleteOut_effect present ((dropped _).trans later) registersNone
        kept ?_
      rwa [sameBucket, sameId]

theorem Sound.startSend (sound : s.Sound) (other : JSString)
    (payload : OutgoingPayload) (resume : Bool) :
    (s.startSend other payload resume).Sound := by
  unfold Engine.startSend
  split
  · exact sound
  · split
    · exact sound
    · exact sound.suspend (fun _ _ same => (nomatch same)) fun _ => rfl

theorem clearBucket_effect (s : Engine) (other : JSString)
    (forgetPending : Bool) :
    Effect bucketId s (.clearBucket other forgetPending)
      (s.clearBucket other forgetPending) := by
  let erased : Engine :=
    { s with out := s.out.erase other, inc := s.inc.erase other }
  have passed : Stores bucketId s
      (if forgetPending then erased.record (.persistPending other [])
        else erased)
      (if forgetPending ∧ other = bucketId then [[]] else []) := by
    cases forgetPending with
    | true =>
        refine ⟨[.persistPending other []], rfl, ?_⟩
        by_cases here : other = bucketId <;>
          simp [Call.listFor, Call.pending?, here]
    | false => exact ⟨[], by simp [erased], by simp⟩
  have later : ∀ middle : Engine, Calm middle
      (middle.stopTimerIfIdle.record (.publish other [])) := fun middle =>
    (stopTimerIfIdle_calm middle).trans (record_calm _ rfl)
  have out : (s.clearBucket other forgetPending).out = s.out.erase other := by
    unfold clearBucket
    dsimp only
    rw [(later _).out]
    split <;> rfl
  have stores : Stores bucketId s (s.clearBucket other forgetPending) _ :=
    passed.calm (later _)
  by_cases here : other = bucketId
  · subst here
    refine .clears rfl (by simp [clears]) ?_ ?_
    · intro id
      rw [out, Rooms.find_erase]
      simp
    · cases forgetPending with
      | true => exact .inr fun id => by simp [releases]
      | false => exact .inl (by simpa using stores)
  · refine .calm rfl (by simp [clears, here]) ?_ (by simpa [here] using stores)
    intro id
    rw [out, Rooms.find_erase]
    simp [Ne.symm here]

/-- Every section has an effect of one of these kinds on a room. -/
theorem step_effect {sha256 : Bytes → JSString} (sound : s.Sound)
    (stepped : s.step sha256 env event = some s') :
    Effect bucketId s event s' := by
  cases event with
  | settle pos ok =>
      obtain ⟨task, waiting, rfl⟩ := Option.map_eq_some_iff.mp stepped
      have before := unsuspend_calm s pos
      cases task with
      | hashPayload other payload resume =>
          refine register_effect before rfl _ other payload resume ?_ rfl
          simp [registers, Event.task, waiting]
      | send ref index =>
          exact (before.trans (pumpSent_calm _ env ref index ok)).effect
            (by simp [registers, Event.task, waiting]) rfl
      | hashData ref data offset =>
          exact (before.trans (hashed_calm _ env ref data offset _)).effect
            (by simp [registers, Event.task, waiting]) rfl
      | deliver ref =>
          exact (before.trans (stored_calm _ env ref ok)).effect
            (by simp [registers, Event.task, waiting]) rfl
      | storage ref =>
          exact (before.trans (storageChecked_calm _ env ref ok)).effect
            (by simp [registers, Event.task, waiting]) rfl
  | startSend other payload resume =>
      cases stepped
      exact (startSend_calm s other payload resume).effect rfl rfl
  | handleAck other ack =>
      cases stepped
      exact handleAck_effect sound other ack
  | handleCancel other msg =>
      cases stepped
      exact (handleCancel_calm s other msg).effect rfl rfl
  | handleQuery other id =>
      cases stepped
      exact (handleQuery_calm s env other id).effect rfl rfl
  | handleChunk other c =>
      cases stepped
      exact (handleChunk_calm s env other c).effect rfl rfl
  | onConnected other =>
      cases stepped
      exact (onConnected_calm s env other).effect rfl rfl
  | onDisconnected other =>
      cases stepped
      exact (onDisconnected_calm s other).effect rfl rfl
  | retry other id =>
      cases stepped
      exact (retry_calm s env other id).effect rfl rfl
  | cancel other id =>
      cases stepped
      have released : releases other id (.cancel other id) = true := by
        simp [releases]
      refine drop_effect sound ?_ rfl rfl released
      unfold cancel
      split
      · rename_i s₁ dropped
        rw [dropped]
        exact (sendCancel_calm s₁ env _ _ _).trans (publish_calm _ _)
      · rename_i s₁ dropped
        rw [dropped]
        exact .refl s₁
  | forget other id =>
      cases stepped
      have released : releases other id (.forget other id) = true := by
        simp [releases]
      refine drop_effect sound ?_ rfl rfl released
      unfold forget
      split
      · rename_i s₁ dropped
        rw [dropped]
        exact publish_calm s₁ _
      · rename_i s₁ dropped
        rw [dropped]
        exact .refl s₁
  | clearBucket other forgetPending =>
      cases stepped
      exact clearBucket_effect s other forgetPending
  | clearAll =>
      cases stepped
      refine .clears rfl rfl ?_ (.inl ?_)
      · intro id
        have out : s.clearAll.out = .empty :=
          (stopTimerIfIdle_calm
            ({ s with out := .empty, inc := .empty } : Engine)).out
        rw [out]
        exact Rooms.find_empty bucketId id
      · have cleared : Stores bucketId s
            ({ s with out := .empty, inc := .empty } : Engine) [] :=
          ⟨[], by simp, rfl⟩
        exact cleared.calm (stopTimerIfIdle_calm _)
  | tick =>
      cases stepped
      exact (tick_calm s env).effect rfl rfl

end Engine

namespace Page

/-! ## Runs -/

variable {sha256 : Bytes → JSString} {bucketId : JSString}
  {messages : List (StoredMessage Time)} {limits : TransferLimits}
  {checksStorage : Bool} {ids : List JSString}

/-- The transfers of the room that have been registered, without those from
before the room was cleared and one registered anew. -/
structure Offered where
  ids : List JSString
  cleared : Bool

def Offered.note (bucketId : JSString) (offered : Offered)
    (entry : Page × PageLabel) : Offered :=
  match entry with
  | (_, .resume) => offered
  | (page, .engine event _) =>
      match registers bucketId page.engine event with
      | some id =>
          ⟨(if offered.cleared then [] else offered.ids) ++ [id], false⟩
      | none =>
          if clears bucketId event then { offered with cleared := true }
          else offered

def offered (bucketId : JSString) (trace : List (Page × PageLabel)) :
    Offered :=
  trace.foldl (Offered.note bucketId) ⟨[], false⟩

/-- The peer has not confirmed the attachment, and the user has not cancelled
or deleted it. -/
def Wanted (bucketId : JSString) (trace : List (Page × PageLabel))
    (id : JSString) : Prop :=
  ∀ page event env, (page, .engine event env) ∈ trace →
    releases bucketId id event = false

/-- The stored list still has every id of `ids` that is wanted. -/
def StaysResumable (bucketId : JSString) (ids : List JSString)
    (trace : List (Page × PageLabel)) (page : Page) : Prop :=
  ∀ id ∈ ids, Wanted bucketId trace id → id ∈ page.passed.getD ids

/-- The id belongs to an image or a file of one's own in the history. -/
def Resumable (messages : List (StoredMessage Time)) (id : JSString) : Prop :=
  ∃ payload, (byId messages id).bind StoredMessage.resumable? = some payload ∧
    payload.data.length ≤ MAX_TRANSFER_BYTES

/-- What holds of a page and its run so far. -/
structure Recorded (bucketId : JSString) (ids : List JSString)
    (trace : List (Page × PageLabel)) (page : Page) : Prop where
  sound : page.engine.Sound
  listed : ∀ id, (page.engine.out.find bucketId id).isSome →
    (offered bucketId trace).cleared = false ∧
      id ∈ (offered bucketId trace).ids
  kept : (offered bucketId trace).cleared = false →
    ∀ id ∈ (offered bucketId trace).ids, Wanted bucketId trace id →
      (page.engine.out.find bucketId id).isSome
  passed : ∀ list, page.passed = some list →
    ∀ id, Wanted bucketId trace id →
      (id ∈ list ↔ id ∈ (offered bucketId trace).ids)
  next : ∀ rest resumed, page.resuming = .next rest resumed →
    rest ⊆ ids ∧ (resumed = 0 → rest = ids ∧ ids ≠ [])
  offering : ∀ id rest resumed, page.resuming = .offering id rest resumed →
    rest ⊆ ids

variable {page page' : Page} {trace : List (Page × PageLabel)}

theorem Wanted.of_snoc {label : PageLabel} {id : JSString}
    (wanted : Wanted bucketId (trace ++ [(page, label)]) id) :
    Wanted bucketId trace id :=
  fun earlier event env member =>
    wanted earlier event env (List.mem_append_left _ member)

theorem Wanted.last {event : Event} {env : Env} {id : JSString}
    (wanted : Wanted bucketId (trace ++ [(page, .engine event env)]) id) :
    releases bucketId id event = false :=
  wanted page event env (List.mem_append_right _ (List.mem_singleton_self _))

theorem offered_snoc (bucketId : JSString)
    (trace : List (Page × PageLabel)) (entry : Page × PageLabel) :
    offered bucketId (trace ++ [entry]) =
      (offered bucketId trace).note bucketId entry := by
  simp [offered, List.foldl_append]

theorem resumingAfter_cases (page : Page) (event : Event) :
    page.resumingAfter bucketId event = page.resuming ∨
      ∃ id rest resumed, page.resuming = .offering id rest resumed ∧
        page.resumingAfter bucketId event = .next rest (resumed + 1) := by
  unfold resumingAfter
  split
  · rename_i waits _
    split
    · exact .inr ⟨_, _, _, waits, rfl⟩
    · exact .inl rfl
  · exact .inl rfl

/-- A wanted attachment is in a list of all transfers of the room if it is
among those offered. -/
theorem mem_ids_iff_offered {s : Engine} {offered : Offered} {id : JSString}
    (listed : ∀ other, (s.out.find bucketId other).isSome →
      offered.cleared = false ∧ other ∈ offered.ids)
    (kept : id ∈ offered.ids → (s.out.find bucketId id).isSome) :
    id ∈ s.out.ids bucketId ↔ id ∈ offered.ids := by
  rw [Rooms.mem_ids_iff]
  exact ⟨fun found => (listed id found).2, kept⟩

/-- A section of the engine keeps the record. -/
theorem Recorded.engine {event : Event} {env : Env}
    (recorded : Recorded bucketId ids trace page)
    (stepped : page.step sha256 bucketId messages (.engine event env) =
      some page') :
    Recorded bucketId ids (trace ++ [(page, .engine event env)]) page' := by
  obtain ⟨engine, ran, rfl⟩ := Option.map_eq_some_iff.mp stepped
  have effect : Effect bucketId page.engine event engine :=
    Engine.step_effect recorded.sound ran
  have sound : engine.Sound := by
    have turn : page.engine.step sha256 (Turn.of page.engine event env).env
        (Turn.of page.engine event env).event = some engine := ran
    exact recorded.sound.of_moves (Engine.step_moves recorded.sound rfl turn)
  have next : ∀ rest resumed,
      page.resumingAfter bucketId event = .next rest resumed →
        rest ⊆ ids ∧ (resumed = 0 → rest = ids ∧ ids ≠ []) := by
    intro rest resumed goes
    rcases resumingAfter_cases page event with same |
      ⟨id, rest', resumed', waits, after⟩
    · exact recorded.next rest resumed (same ▸ goes)
    · obtain ⟨rfl, rfl⟩ := Resuming.next.inj (after.symm.trans goes)
      exact ⟨recorded.offering _ _ _ waits, by simp⟩
  have offering : ∀ id rest resumed,
      page.resumingAfter bucketId event = .offering id rest resumed →
        rest ⊆ ids := by
    intro id rest resumed goes
    rcases resumingAfter_cases page event with same |
      ⟨id', rest', resumed', waits, after⟩
    · exact recorded.offering id rest resumed (same ▸ goes)
    · cases after.symm.trans goes
  have wanted : ∀ {id}, Wanted bucketId
      (trace ++ [(page, .engine event env)]) id →
        Wanted bucketId trace id ∧ releases bucketId id event = false :=
    fun wanted => ⟨wanted.of_snoc, wanted.last⟩
  have noted := offered_snoc bucketId trace
    (page, .engine event env)
  cases effect with
  | calm registersNone clearsNone same stores =>
      have unchanged : offered bucketId (trace ++
          [(page, .engine event env)]) = offered bucketId trace := by
        rw [noted]
        simp [Offered.note, registersNone, clearsNone]
      refine ⟨sound, ?_, ?_, ?_, next, offering⟩
      · intro id
        rw [same, unchanged]
        exact recorded.listed id
      · intro kept id member holds
        rw [unchanged] at kept member
        rw [same]
        exact recorded.kept kept id member (wanted holds).1
      · intro list passed id holds
        rw [stores.passed] at passed
        rw [unchanged]
        exact recorded.passed list passed id (wanted holds).1
  | registers id registered same stores =>
      have grown : offered bucketId (trace ++ [(page, .engine event env)]) =
          ⟨(if (offered bucketId trace).cleared then []
            else (offered bucketId trace).ids) ++ [id], false⟩ := by
        rw [noted]
        simp [Offered.note, registered]
      have listed : ∀ other, (engine.out.find bucketId other).isSome →
          (offered bucketId (trace ++ [(page, .engine event env)])).cleared =
            false ∧
          other ∈ (offered bucketId (trace ++
            [(page, .engine event env)])).ids := by
        intro other found
        rw [grown]
        refine ⟨rfl, ?_⟩
        rcases (same other).mp found with rfl | before
        · simp
        · obtain ⟨kept, member⟩ := recorded.listed other before
          simp [kept, member]
      have kept : ∀ other ∈ (offered bucketId (trace ++
          [(page, .engine event env)])).ids,
          Wanted bucketId (trace ++ [(page, .engine event env)]) other →
            (engine.out.find bucketId other).isSome := by
        intro other member holds
        rw [grown] at member
        apply (same other).mpr
        rcases List.mem_append.mp member with before | last
        · cases cleared : (offered bucketId trace).cleared with
          | true => simp [cleared] at before
          | false =>
              rw [cleared] at before
              exact .inr (recorded.kept cleared other before (wanted holds).1)
        · exact .inl (List.mem_singleton.mp last)
      refine ⟨sound, listed, fun _ => kept, ?_, next, offering⟩
      intro list passed other holds
      rw [stores.passed] at passed
      obtain rfl := Option.some.inj passed
      exact mem_ids_iff_offered listed fun member => kept other member holds
  | drops id registersNone clearsNone released present same stores =>
      have unchanged : offered bucketId (trace ++
          [(page, .engine event env)]) = offered bucketId trace := by
        rw [noted]
        simp [Offered.note, registersNone, clearsNone]
      have listed : ∀ other, (engine.out.find bucketId other).isSome →
          (offered bucketId trace).cleared = false ∧
            other ∈ (offered bucketId trace).ids :=
        fun other found => recorded.listed other ((same other).mp found).2
      have uncleared := (recorded.listed id present).1
      have kept : ∀ other ∈ (offered bucketId trace).ids,
          Wanted bucketId (trace ++ [(page, .engine event env)]) other →
            (engine.out.find bucketId other).isSome := by
        intro other member holds
        obtain ⟨before, last⟩ := wanted holds
        have found := recorded.kept uncleared other member before
        refine (same other).mpr ⟨?_, found⟩
        rintro rfl
        rw [released] at last
        cases last
      refine ⟨sound, ?_, ?_, ?_, next, offering⟩
      · rw [unchanged]
        exact listed
      · rw [unchanged]
        exact fun _ => kept
      · intro list passed other holds
        rw [stores.passed] at passed
        obtain rfl := Option.some.inj passed
        rw [unchanged]
        exact mem_ids_iff_offered listed fun member => kept other member holds
  | clears registersNone cleared gone stores =>
      have forgotten : offered bucketId (trace ++
          [(page, .engine event env)]) =
            { offered bucketId trace with cleared := true } := by
        rw [noted]
        simp [Offered.note, registersNone, cleared]
      refine ⟨sound, ?_, ?_, ?_, next, offering⟩
      · intro id found
        rw [gone id] at found
        cases found
      · intro kept
        rw [forgotten] at kept
        cases kept
      · intro list passed id holds
        rcases stores with stores | released
        · rw [stores.passed] at passed
          rw [forgotten]
          exact recorded.passed list passed id (wanted holds).1
        · have last := (wanted holds).2
          rw [released id] at last
          cases last

/-- A turn of the loop keeps the record. -/
theorem Recorded.resume (recorded : Recorded bucketId ids trace page)
    (resumable : ∀ id ∈ ids, Resumable messages id)
    (stepped : page.step sha256 bucketId messages .resume = some page') :
    Recorded bucketId ids (trace ++ [(page, .resume)]) page' := by
  have unchanged : offered bucketId (trace ++ [(page, .resume)]) =
      offered bucketId trace := offered_snoc _ trace _
  simp only [step] at stepped
  split at stepped
  · rename_i resumed goes
    cases stepped
    obtain ⟨-, last⟩ := recorded.next [] resumed goes
    have some' : resumed ≠ 0 := by
      intro none
      obtain ⟨rfl, notNil⟩ := last none
      exact notNil rfl
    refine ⟨recorded.sound, ?_, ?_, ?_, fun _ _ goes => (nomatch goes),
      fun _ _ _ goes => (nomatch goes)⟩
    · rw [unchanged]
      exact recorded.listed
    · rw [unchanged]
      intro kept id member wanted
      exact recorded.kept kept id member wanted.of_snoc
    · intro list passed id wanted
      rw [if_neg some'] at passed
      rw [unchanged]
      exact recorded.passed list passed id wanted.of_snoc
  · rename_i id rest resumed goes
    cases stepped
    obtain ⟨inside, -⟩ := recorded.next _ _ goes
    obtain ⟨payload, found, small⟩ := resumable id (inside (by simp))
    have later : rest ⊆ ids := fun other member =>
      inside (List.mem_cons_of_mem _ member)
    have calm := Engine.startSend_calm page.engine bucketId payload true
    have offers : page.offer bucketId messages id rest resumed =
        { page with
          engine := page.engine.startSend bucketId payload true
          resuming :=
            if (page.engine.out.find bucketId id).isSome then
              .next rest (resumed + 1)
            else .offering id rest resumed } := by
      simp [offer, found, Nat.not_lt_of_le small]
    rw [offers]
    refine ⟨recorded.sound.startSend bucketId payload true, ?_, ?_, ?_, ?_,
      ?_⟩
    · rw [unchanged, calm.out]
      exact recorded.listed
    · rw [unchanged, calm.out]
      intro kept other member wanted
      exact recorded.kept kept other member wanted.of_snoc
    · rw [unchanged]
      intro list passed other wanted
      exact recorded.passed list passed other wanted.of_snoc
    · intro rest' resumed' goes'
      dsimp only at goes'
      split at goes'
      · obtain ⟨rfl, rfl⟩ := Resuming.next.inj goes'
        exact ⟨later, by simp⟩
      · cases goes'
    · intro id' rest' resumed' goes'
      dsimp only at goes'
      split at goes'
      · cases goes'
      · obtain ⟨rfl, rfl, rfl⟩ := Resuming.offering.inj goes'
        exact later
  · cases stepped
  · cases stepped

theorem recorded_of_run {start : Page}
    (resumable : ∀ id ∈ ids, Resumable messages id)
    (starts : Starts sha256 bucketId limits checksStorage ids start)
    (run : (system sha256 bucketId messages limits checksStorage ids).Run
      start trace page) : Recorded bucketId ids trace page := by
  induction run with
  | refl =>
      obtain ⟨engine, empty, passed, resuming⟩ := starts
      refine ⟨Engine.sound_of_reachable engine, ?_, ?_, ?_, ?_, ?_⟩
      · intro id found
        rw [← Rooms.mem_ids_iff, empty] at found
        cases found
      · intro _ id member
        cases member
      · intro list stored
        rw [passed] at stored
        cases stored
      · intro rest resumed goes
        rw [resuming] at goes
        split at goes
        · cases goes
        · rename_i notNil
          obtain ⟨rfl, rfl⟩ := Resuming.next.inj goes
          exact ⟨List.Subset.refl _, fun _ => ⟨rfl, notNil⟩⟩
      · intro id rest resumed goes
        rw [resuming] at goes
        split at goes <;> cases goes
  | @snoc middle finish trace label _ stepped induction =>
      cases label with
      | engine event env => exact induction.engine stepped
      | resume => exact induction.resume resumable stepped

/-- The stored list has every attachment that is wanted exactly when nothing
was stored since the loop began, or all of them have been offered again. -/
theorem stays_resumable_iff {start : Page}
    (resumable : ∀ id ∈ ids, Resumable messages id)
    (starts : Starts sha256 bucketId limits checksStorage ids start)
    (run : (system sha256 bucketId messages limits checksStorage ids).Run
      start trace page) :
    StaysResumable bucketId ids trace page ↔
      page.passed = none ∨ ∀ id ∈ ids, Wanted bucketId trace id →
        id ∈ (offered bucketId trace).ids := by
  have recorded := recorded_of_run resumable starts run
  unfold StaysResumable
  cases passed : page.passed with
  | none =>
      simp only [Option.getD_none, true_or, iff_true]
      exact fun id member _ => member
  | some list =>
      simp only [Option.getD_some, reduceCtorEq, false_or]
      constructor
      · intro stays id member wanted
        exact (recorded.passed list passed id wanted).mp
          (stays id member wanted)
      · intro offers id member wanted
        exact (recorded.passed list passed id wanted).mpr
          (offers id member wanted)

/-! ## Two attachments -/

def attachment (id : JSString) : StoredMessage Time where
  content := .file
    { ts := 0, name := id, mime := js "text/plain", data := [1],
      id := some id, replyTo := none }
  id := id
  origin := .self

/-- The history of a room with two files of one's own. -/
def twoAttachments : List (StoredMessage Time) :=
  [attachment [0x61], attachment [0x62]]

/-- The room when the list of both has been read. -/
def twoPending : Page :=
  ⟨.new DEFAULT_TRANSFER_LIMITS true, none, .next [[0x61], [0x62]] 0⟩

/-- Nothing can be sent. -/
def offline : Env := ⟨0, fun _ => false, fun _ _ => false⟩

/-- The runs of that room. -/
abbrev twoSystem : Lts Page PageLabel :=
  system (fun _ => []) [] twoAttachments DEFAULT_TRANSFER_LIMITS true
    [[0x61], [0x62]]

private theorem twoAttachments_resumable :
    ∀ id ∈ [[0x61], [0x62]], Resumable twoAttachments id := by
  intro id member
  simp only [List.mem_cons, List.not_mem_nil, or_false] at member
  rcases member with rfl | rfl
  · exact ⟨_, rfl, by decide⟩
  · exact ⟨_, rfl, by decide⟩

private theorem twoPending_starts (bucketId : JSString) :
    Starts (fun _ => []) bucketId DEFAULT_TRANSFER_LIMITS true
      [[0x61], [0x62]] twoPending :=
  ⟨.start rfl, rfl, rfl, rfl⟩

/-- Both attachments are offered again, and both are stored. -/
theorem stays_resumable_two :
    ∃ trace page, twoSystem.Run twoPending trace page ∧
      page.passed = some [[0x61], [0x62]] ∧
      StaysResumable [] [[0x61], [0x62]] trace page := by
  obtain ⟨one, two, three, four, first, second, third, fourth, passed,
      offers⟩ : ∃ one two three four,
      twoPending.step (fun _ => []) [] twoAttachments .resume = some one ∧
      one.step (fun _ => []) [] twoAttachments
        (.engine (.settle 0 true) offline) = some two ∧
      two.step (fun _ => []) [] twoAttachments .resume = some three ∧
      three.step (fun _ => []) [] twoAttachments
        (.engine (.settle 0 true) offline) = some four ∧
      four.passed = some [[0x61], [0x62]] ∧
      (offered [] [(twoPending, .resume),
        (one, .engine (.settle 0 true) offline), (two, .resume),
        (three, .engine (.settle 0 true) offline)]).ids =
          [[0x61], [0x62]] :=
    ⟨_, _, _, _, rfl, rfl, rfl, rfl, rfl, rfl⟩
  have run : twoSystem.Run twoPending [(twoPending, .resume),
      (one, .engine (.settle 0 true) offline), (two, .resume),
      (three, .engine (.settle 0 true) offline)] four :=
    .cons first (.cons second (.cons third (.cons fourth (.refl four))))
  refine ⟨_, four, run, passed, (stays_resumable_iff
    twoAttachments_resumable (twoPending_starts []) run).mpr ?_⟩
  rw [offers]
  exact .inr fun id member _ => member

/-- When the page is reloaded after the first attachment has been offered
again, the second is not stored any more. -/
theorem second_attachment_lost :
    ∃ trace page, (∀ id ∈ [[0x61], [0x62]], Resumable twoAttachments id) ∧
      Starts (fun _ => []) [] DEFAULT_TRANSFER_LIMITS true [[0x61], [0x62]]
        twoPending ∧
      twoSystem.Run twoPending trace page ∧
      page.passed = some [[0x61]] ∧
      ¬ StaysResumable [] [[0x61], [0x62]] trace page := by
  obtain ⟨one, two, first, second, passed⟩ : ∃ one two,
      twoPending.step (fun _ => []) [] twoAttachments .resume = some one ∧
      one.step (fun _ => []) [] twoAttachments
        (.engine (.settle 0 true) offline) = some two ∧
      two.passed = some [[0x61]] :=
    ⟨_, _, rfl, rfl, rfl⟩
  refine ⟨_, two, twoAttachments_resumable, twoPending_starts [],
    .cons first (.cons second (.refl two)), passed, ?_⟩
  intro stays
  have member := stays [0x62] (by simp) ?_
  · rw [passed] at member
    simp at member
  · intro page event env member
    simp only [List.mem_cons, List.not_mem_nil, or_false, Prod.mk.injEq,
      reduceCtorEq, and_false, false_or, PageLabel.engine.injEq] at member
    obtain ⟨-, rfl, -⟩ := member
    rfl

end Page

end Byteln.Client

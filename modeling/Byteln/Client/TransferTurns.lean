import Byteln.Client.TransferSteps

/-!
# Sections as sequences of moves

Every section of a sound engine is a sequence of moves (`Engine.step_moves`),
so that an invariant of moves is an invariant of runs.
-/

namespace Byteln.Client

open Byteln.Library

theorem Outgoing.Adjusts.trans {o₁ o₂ o₃ : Outgoing} (first : o₁.Adjusts o₂)
    (second : o₂.Adjusts o₃) : o₁.Adjusts o₃ where
  bucketId := second.bucketId.trans first.bucketId
  id := second.id.trans first.id
  header := second.header.trans first.header
  data := second.data.trans first.data
  total := second.total.trans first.total
  wellFormed := fun wellFormed =>
    second.wellFormed (first.wellFormed wellFormed)

/-- A change of status and activity only. -/
theorem Outgoing.Adjusts.of_schedule {o o' : Outgoing}
    (bucketId : o'.bucketId = o.bucketId) (id : o'.id = o.id)
    (header : o'.header = o.header) (data : o'.data = o.data)
    (total : o'.total = o.total) (acked : o'.acked = o.acked)
    (queue : ∀ index ∈ o'.queue, index ∈ o.queue)
    (inFlight : ∀ index, o.inFlight.contains index = false →
      o'.inFlight.contains index = false) : o.Adjusts o' where
  bucketId := bucketId
  id := id
  header := header
  data := data
  total := total
  wellFormed := by
    intro wellFormed
    constructor
    · intro index queued
      rw [total]
      exact wellFormed.queued index (queue index queued)
    · intro index member
      rw [acked] at member
      exact inFlight index (wellFormed.apart index member)

@[simp] theorem contains_empty (index : Nat) :
    (InsertionMap.empty : InsertionMap Nat Time).contains index = false :=
  rfl

theorem contains_filter {map : InsertionMap Nat Time}
    {keep : Nat → Time → Bool} {index : Nat}
    (absent : map.contains index = false ∨ ∀ sentAt, keep index sentAt = false) :
    (map.filter keep).contains index = false := by
  unfold InsertionMap.contains at absent ⊢
  rw [InsertionMap.get?_filter]
  rcases absent with absent | rejected
  · rw [Option.isSome_eq_false_iff, Option.isNone_iff_eq_none] at absent
    rw [absent]
    rfl
  · cases map.get? index with
    | none => rfl
    | some sentAt => simp [rejected sentAt]

/-! ## The pump -/

/-- What the loop of `pump` does to a transfer whose queue it works on. -/
structure Outgoing.Pumped (o : Outgoing) (queue : List Nat) (o' : Outgoing)
    (sent : Option Nat) : Prop where
  rest : o' = { o with queue := o'.queue, status := o'.status }
  queued : ∀ index ∈ o'.queue, index ∈ queue
  chosen : ∀ index, sent = some index →
    index ∈ queue ∧ index ∉ o.acked ∧ o.inFlight.contains index = false
  kept : ∀ index ∈ queue, index ∉ o.acked →
    o.inFlight.contains index = false →
    index ∈ o'.queue ∨ sent = some index

theorem Outgoing.pumpLoop_pumped (window : Nat) (live canSend : Bool)
    (o : Outgoing) (queue : List Nat) :
    o.Pumped queue (o.pumpLoop window live canSend queue).1
      (o.pumpLoop window live canSend queue).2 := by
  induction queue with
  | nil =>
      constructor <;> simp [pumpLoop]
  | cons index queue induction =>
      unfold pumpLoop
      split
      · split
        · rename_i scheduled
          constructor
          · exact induction.rest
          · intro i member
            exact List.mem_cons_of_mem _ (induction.queued i member)
          · intro i sent
            obtain ⟨member, fresh⟩ := induction.chosen i sent
            exact ⟨List.mem_cons_of_mem _ member, fresh⟩
          · intro i member notAcked notInFlight
            rcases List.mem_cons.mp member with rfl | member
            · rcases scheduled with acked | inFlight
              · exact absurd acked notAcked
              · simp [notInFlight] at inFlight
            · exact induction.kept i member notAcked notInFlight
        · rename_i unscheduled
          simp only [not_or, Bool.not_eq_true] at unscheduled
          split
          · constructor
            · rfl
            · intro i member
              exact List.mem_cons_of_mem _ member
            · intro i sent
              obtain rfl := Option.some.inj sent
              exact ⟨List.mem_cons_self, unscheduled⟩
            · intro i member _ _
              rcases List.mem_cons.mp member with rfl | member
              · exact .inr rfl
              · exact .inl member
          · constructor
            · rfl
            · exact fun _ member => member
            · simp
            · exact fun _ member _ _ => .inl member
      · constructor
        · rfl
        · exact fun _ member => member
        · simp
        · exact fun _ member _ _ => .inl member

theorem Outgoing.Pumped.identity {o o' : Outgoing} {queue : List Nat}
    {sent : Option Nat} (pumped : o.Pumped queue o' sent) :
    o'.bucketId = o.bucketId ∧ o'.id = o.id ∧ o'.header = o.header ∧
      o'.data = o.data ∧ o'.total = o.total ∧ o'.acked = o.acked ∧
      o'.inFlight = o.inFlight := by
  rw [pumped.rest]
  exact ⟨rfl, rfl, rfl, rfl, rfl, rfl, rfl⟩

theorem Outgoing.Pumped.adjusts {o o' : Outgoing} {sent : Option Nat}
    (pumped : o.Pumped o.queue o' sent) : o.Adjusts o' := by
  obtain ⟨bucketId, id, header, data, total, acked, inFlight⟩ :=
    pumped.identity
  apply Adjusts.of_schedule bucketId id header data total acked pumped.queued
  intro index absent
  rw [inFlight]
  exact absent

/-- A chunk that has been sent is in flight, unless it is acked already. -/
theorem Outgoing.Adjusts.landed {o : Outgoing} {index : Nat} {now : Time} :
    o.Adjusts { o with
      lastActivityAt := now
      inFlight := if index ∈ o.acked then o.inFlight
        else o.inFlight.set index now } := by
  refine ⟨rfl, rfl, rfl, rfl, rfl, fun wellFormed => ?_⟩
  refine ⟨wellFormed.queued, fun i acked => ?_⟩
  dsimp only
  split
  · exact wellFormed.apart i acked
  · rename_i unacked
    have different : i ≠ index := fun same => unacked (same ▸ acked)
    rw [InsertionMap.contains_set, wellFormed.apart i acked]
    simpa using different

/-- A chunk that could not be sent is queued again. -/
theorem Outgoing.Adjusts.requeued {o : Outgoing} {index : Nat}
    (bound : index < o.total) :
    o.Adjusts { o with
      queue := index :: o.queue
      status := .waiting
      pumping := false } := by
  refine ⟨rfl, rfl, rfl, rfl, rfl, fun wellFormed => ?_⟩
  refine ⟨fun i queued => ?_, wellFormed.apart⟩
  rcases List.mem_cons.mp queued with rfl | queued
  · exact bound
  · exact wellFormed.queued i queued

namespace Engine

section Moves

variable {sha256 : Bytes → JSString} {turn : Turn} {s : Engine}

/-! ## Bookkeeping -/

theorem publish_moves (s : Engine) (bucketId : JSString) :
    Moves sha256 turn s (s.publish bucketId) :=
  .single (.note rfl)

theorem persist_moves (s : Engine) (bucketId : JSString) :
    Moves sha256 turn s (s.persist bucketId) :=
  .single (.note rfl)

theorem ensureTimer_moves (s : Engine) : Moves sha256 turn s s.ensureTimer :=
  .single .timer

theorem stopTimerIfIdle_moves (s : Engine) :
    Moves sha256 turn s s.stopTimerIfIdle := by
  unfold stopTimerIfIdle
  split
  · exact .single .timer
  · exact .refl

theorem deleteOut_moves {o : Outgoing}
    (drops : turn.DropsOut o.bucketId o.id) :
    Moves sha256 turn s (s.deleteOut o) := by
  have removed : Move sha256 turn s
      { s with out := s.out.remove o.bucketId o.id } := by
    apply Move.removeOut
    intro bucketId id
    rw [Rooms.find_remove]
    split
    · rename_i same
      exact .inr ⟨rfl, same.1 ▸ same.2 ▸ drops⟩
    · exact .inl rfl
  exact ((Relation.ReflTransGen.single removed).trans
    (persist_moves _ _)).trans (stopTimerIfIdle_moves _)

theorem deleteIn_moves {i : Incoming}
    (drops : s.inc.find i.bucketId i.id = none ∨
      turn.DropsIn s i.bucketId i.id) :
    Moves sha256 turn s (s.deleteIn i) := by
  have removed : Move sha256 turn s
      { s with inc := s.inc.remove i.bucketId i.id } := by
    apply Move.removeIn
    intro bucketId id
    rw [Rooms.find_remove]
    split
    · rename_i same
      rcases drops with gone | drops
      · exact .inl (by rw [same.1, same.2, gone])
      · exact .inr ⟨rfl, same.1 ▸ same.2 ▸ drops⟩
    · exact .inl rfl
  exact (Relation.ReflTransGen.single removed).trans (stopTimerIfIdle_moves _)

theorem sendAck_moves (env : Env) {i : Incoming} (resend : Bool)
    (allocated : i ∈ s.incoming) :
    Moves sha256 turn s (s.sendAck env i resend false) :=
  .single (.ack (.inl ⟨i, allocated, rfl, rfl⟩))

theorem sendCancel_moves (env : Env) {bucketId id : JSString}
    (reason : JSString) (cancels : turn.Cancels s bucketId id) :
    Moves sha256 turn s (s.sendCancel env bucketId id reason) :=
  .single (.cancelMsg cancels)

theorem mem_setOut {ref : Ref} {o : Outgoing}
    (found : s.outgoing[ref]? = some o) (o' : Outgoing) :
    o' ∈ (s.setOut ref o').outgoing := by
  apply List.mem_of_getElem?
  rw [setOut, getElem?_set_of_some found, if_pos rfl]

theorem mem_setIn {ref : Ref} {i : Incoming}
    (found : s.incoming[ref]? = some i) (i' : Incoming) :
    i' ∈ (s.setIn ref i').incoming := by
  apply List.mem_of_getElem?
  rw [setIn, getElem?_set_of_some found, if_pos rfl]

theorem query_moves (env : Env) {ref : Ref} {o o' : Outgoing}
    (found : s.outgoing[ref]? = some o) (adjusts : o.Adjusts o') :
    Moves sha256 turn s (s.query env ref o') := by
  have active : o.Adjusts { o' with lastActivityAt := env.now } :=
    adjusts.trans (.of_schedule rfl rfl rfl rfl rfl rfl (fun _ => id)
      fun _ => id)
  have waiting : o.Adjusts
      { o' with lastActivityAt := env.now, status := .waiting } :=
    adjusts.trans (.of_schedule rfl rfl rfl rfl rfl rfl (fun _ => id)
      fun _ => id)
  unfold query
  simp only
  split
  · apply Relation.ReflTransGen.tail (.single (.adjustOut found active))
    exact .query (o := { o' with lastActivityAt := env.now })
      (mem_setOut found _)
  · exact .single (.adjustOut found waiting)

/-- What every visit keeps, they all keep. -/
theorem eachOut_rule {P : Engine → Prop}
    {visit : Ref → Outgoing → Engine → Engine}
    (visits : ∀ {s ref o}, P s → s.outgoing[ref]? = some o →
      P (visit ref o s)) (refs : List Ref) (start : P s) :
    P (s.eachOut refs visit) := by
  induction refs generalizing s with
  | nil => exact start
  | cons ref refs induction =>
      apply induction
      beta_reduce
      split
      · rename_i o found
        exact visits start found
      · exact start

theorem eachIn_rule {P : Engine → Prop}
    {visit : Ref → Incoming → Engine → Engine}
    (visits : ∀ {s ref i}, P s → s.incoming[ref]? = some i →
      P (visit ref i s)) (refs : List Ref) (start : P s) :
    P (s.eachIn refs visit) := by
  induction refs generalizing s with
  | nil => exact start
  | cons ref refs induction =>
      apply induction
      beta_reduce
      split
      · rename_i i found
        exact visits start found
      · exact start

theorem eachOut_moves {visit : Ref → Outgoing → Engine → Engine}
    (visits : ∀ {s ref o}, s.outgoing[ref]? = some o →
      Moves sha256 turn s (visit ref o s)) (refs : List Ref) :
    Moves sha256 turn s (s.eachOut refs visit) :=
  eachOut_rule (P := Moves sha256 turn s)
    (fun before found => before.trans (visits found)) refs .refl

theorem eachIn_moves {visit : Ref → Incoming → Engine → Engine}
    (visits : ∀ {s ref i}, s.incoming[ref]? = some i →
      Moves sha256 turn s (visit ref i s)) (refs : List Ref) :
    Moves sha256 turn s (s.eachIn refs visit) :=
  eachIn_rule (P := Moves sha256 turn s)
    (fun before found => before.trans (visits found)) refs .refl

/-! ## Sender -/

theorem pumpOn_moves (env : Env) {ref : Ref} {o o' : Outgoing}
    (found : s.outgoing[ref]? = some o) (adjusts : o.Adjusts o')
    (queue : o'.queue = o.queue) :
    Moves sha256 turn s (s.pumpOn env ref o') := by
  have pumped := o'.pumpLoop_pumped s.limits.window (s.isLiveOut ref o')
    (env.canSend o'.bucketId) o'.queue
  unfold pumpOn
  split
  · rename_i o₁ index result
    rw [result] at pumped
    apply Relation.ReflTransGen.single
    apply Move.pumped found (adjusts.trans pumped.adjusts)
    rw [← queue]
    exact (pumped.chosen index rfl).1
  · rename_i o₁ result
    rw [result] at pumped
    have left : o.Adjusts { o₁ with pumping := false } :=
      (adjusts.trans pumped.adjusts).trans (.of_schedule rfl rfl rfl rfl rfl
        rfl (fun _ => id) fun _ => id)
    apply Relation.ReflTransGen.trans (.single (.adjustOut found left))
    exact publish_moves _ _

theorem pump_moves (env : Env) (ref : Ref) :
    Moves sha256 turn s (s.pump env ref) := by
  unfold pump
  split
  · exact .refl
  · rename_i o found
    split
    · exact .refl
    · exact pumpOn_moves env found (.of_schedule rfl rfl rfl rfl rfl rfl
        (fun _ => id) fun _ => id) rfl

theorem setOut_setOut (s : Engine) (ref : Ref) (o o' : Outgoing) :
    (s.setOut ref o).setOut ref o' = s.setOut ref o' := by
  simp [setOut]

theorem pumpOn_setOut (env : Env) (ref : Ref) (o o' : Outgoing) :
    (s.setOut ref o).pumpOn env ref o' = s.pumpOn env ref o' := by
  unfold pumpOn
  simp only [setOut_setOut]
  rfl

theorem pumpSent_moves {pos : Nat} {ok : Bool} {ref : Ref} {index : Nat}
    (event : turn.event = .settle pos ok)
    (waiting : s.suspended[pos]? = some (.send ref index)) :
    Moves sha256 turn s
      ((s.unsuspend pos).pumpSent turn.env ref index ok) := by
  unfold pumpSent
  split
  · exact .single (.settled event)
  · rename_i o found
    split
    · apply Relation.ReflTransGen.single
      exact .landed event waiting found fun _ =>
        .of_schedule rfl rfl rfl rfl rfl rfl (fun _ => id) fun _ => id
    · split
      · apply Relation.ReflTransGen.trans
          (.single (.landed event waiting found .requeued))
        exact publish_moves _ _
      · simp only
        set o' : Outgoing := { o with
          lastActivityAt := turn.env.now
          inFlight := if index ∈ o.acked then o.inFlight
            else o.inFlight.set index turn.env.now }
        have adjusts : o.Adjusts o' := .landed
        apply Relation.ReflTransGen.head
          (.landed event waiting found fun _ => adjusts)
        have found' : ((s.unsuspend pos).setOut ref o').outgoing[ref]? =
            some o' := by
          simp only [setOut]
          rw [getElem?_set_of_some found, if_pos rfl]
        rw [← pumpOn_setOut turn.env ref o' o']
        exact pumpOn_moves turn.env found' (.of_schedule rfl rfl rfl rfl rfl
          rfl (fun _ => id) fun _ => id) rfl

theorem register_moves {pos : Nat} {ok : Bool} {bucketId : JSString}
    {payload : OutgoingPayload} {resume : Bool}
    (event : turn.event = .settle pos ok)
    (waiting : s.suspended[pos]? = some
      (.hashPayload bucketId payload resume)) :
    Moves sha256 turn s ((s.unsuspend pos).register turn.env
      (sha256 payload.data) bucketId payload resume) := by
  unfold register
  simp only
  apply Relation.ReflTransGen.head (.register event waiting)
  refine Relation.ReflTransGen.trans ?_ (publish_moves _ _)
  apply Relation.ReflTransGen.trans (persist_moves _ _)
  apply Relation.ReflTransGen.trans (ensureTimer_moves _)
  split
  · apply query_moves (o := .open turn.env.now (sha256 payload.data) bucketId
      payload resume)
    · simp [ensureTimer, persist, record, addOut]
    · exact .of_schedule rfl rfl rfl rfl rfl rfl (fun _ => id) fun _ => id
  · exact pump_moves _ _

theorem findOut_eq_some_iff {bucketId id : JSString} {ref : Ref}
    {o : Outgoing} :
    s.findOut bucketId id = some (ref, o) ↔
      s.out.find bucketId id = some ref ∧ s.outgoing[ref]? = some o := by
  unfold findOut
  cases s.out.find bucketId id with
  | none => simp
  | some other =>
      cases found : s.outgoing[other]? with
      | none =>
          simp only [Option.bind_eq_bind, Option.bind_some, found,
            Option.bind_none, Option.some.injEq, reduceCtorEq, false_iff]
          rintro ⟨rfl, present⟩
          simp [found] at present
      | some o₁ =>
          simp only [Option.bind_eq_bind, Option.bind_some, found,
            Option.pure_def, Option.some.injEq, Prod.mk.injEq]
          constructor
          · rintro ⟨rfl, rfl⟩
            exact ⟨rfl, found⟩
          · rintro ⟨rfl, present⟩
            exact ⟨rfl, Option.some.inj (found.symm.trans present)⟩

theorem findIn_eq_some_iff {bucketId id : JSString} {ref : Ref}
    {i : Incoming} :
    s.findIn bucketId id = some (ref, i) ↔
      s.inc.find bucketId id = some ref ∧ s.incoming[ref]? = some i := by
  unfold findIn
  cases s.inc.find bucketId id with
  | none => simp
  | some other =>
      cases found : s.incoming[other]? with
      | none =>
          simp only [Option.bind_eq_bind, Option.bind_some, found,
            Option.bind_none, Option.some.injEq, reduceCtorEq, false_iff]
          rintro ⟨rfl, present⟩
          simp [found] at present
      | some i₁ =>
          simp only [Option.bind_eq_bind, Option.bind_some, found,
            Option.pure_def, Option.some.injEq, Prod.mk.injEq]
          constructor
          · rintro ⟨rfl, rfl⟩
            exact ⟨rfl, found⟩
          · rintro ⟨rfl, present⟩
            exact ⟨rfl, Option.some.inj (found.symm.trans present)⟩

/-- In a sound engine a listed transfer is the one its room lists. -/
theorem Sound.findOut (sound : s.Sound) {bucketId id : JSString} {ref : Ref}
    {o : Outgoing} (found : s.findOut bucketId id = some (ref, o)) :
    s.out.find bucketId id = some ref ∧ s.outgoing[ref]? = some o ∧
      o.bucketId = bucketId ∧ o.id = id := by
  obtain ⟨listed, allocated⟩ := findOut_eq_some_iff.mp found
  obtain ⟨o₁, allocated₁, keys⟩ := sound.outKeys _ _ _ listed
  obtain rfl := Option.some.inj (allocated.symm.trans allocated₁)
  exact ⟨listed, allocated, keys⟩

theorem Sound.findIn (sound : s.Sound) {bucketId id : JSString} {ref : Ref}
    {i : Incoming} (found : s.findIn bucketId id = some (ref, i)) :
    s.inc.find bucketId id = some ref ∧ s.incoming[ref]? = some i ∧
      i.bucketId = bucketId ∧ i.id = id := by
  obtain ⟨listed, allocated⟩ := findIn_eq_some_iff.mp found
  obtain ⟨i₁, allocated₁, keys⟩ := sound.inKeys _ _ _ listed
  obtain rfl := Option.some.inj (allocated.symm.trans allocated₁)
  exact ⟨listed, allocated, keys⟩

theorem applyAck_adjusts (env : Env) (stallMs : Time)
    (ack : TransferAckPlainMessage Time) (o : Outgoing) :
    o.Adjusts (applyAck env stallMs ack o) := by
  unfold applyAck
  simp only
  have apart : o.WellFormed → ∀ index ∈ o.acked ∪
      (ack.haves.filter fun i => i < o.total).toFinset,
      (o.inFlight.filter fun i _ =>
        i ∉ ack.haves.filter fun i => i < o.total).contains index = false := by
    intro wellFormed index member
    apply contains_filter
    rcases Finset.mem_union.mp member with acked | reported
    · exact .inl (wellFormed.apart index acked)
    · right
      intro sentAt
      simpa using reported
  split
  · refine ⟨rfl, rfl, rfl, rfl, rfl, fun wellFormed => ?_⟩
    constructor
    · intro index queued
      exact List.mem_range.mp (List.mem_of_mem_filter queued)
    · intro index member
      exact contains_filter (.inl (apart wellFormed index member))
  · refine ⟨rfl, rfl, rfl, rfl, rfl, fun wellFormed => ?_⟩
    constructor
    · exact wellFormed.queued
    · exact apart wellFormed

theorem handleAck_moves {bucketId : JSString}
    {ack : TransferAckPlainMessage Time} (sound : s.Sound)
    (event : turn.event = .handleAck bucketId ack) :
    Moves sha256 turn s (s.handleAck turn.env bucketId ack) := by
  unfold handleAck
  split
  · rename_i missing
    split
    · rename_i asks
      apply sendCancel_moves
      exact .inr (.inl ⟨ack, event, rfl, asks.1, missing⟩)
    · exact .refl
  · rename_i ref o found
    obtain ⟨listed, allocated, sameBucket, sameId⟩ := sound.findOut found
    split
    · rename_i done
      apply Relation.ReflTransGen.tail _ (.note rfl)
      refine Relation.ReflTransGen.trans ?_ (publish_moves _ _)
      apply deleteOut_moves
      rw [sameBucket, sameId]
      exact .inr ⟨ack, event, rfl, done⟩
    · apply Relation.ReflTransGen.head
        (.adjustOut allocated (applyAck_adjusts turn.env s.limits.stallMs ack o))
      apply Relation.ReflTransGen.trans (publish_moves _ _)
      exact pump_moves _ _

/-- A transfer that is not in the map leaves the engine as it is. -/
theorem visitOut_found_moves {bucketId id : JSString}
    {visit : Ref → Outgoing → Engine}
    (visits : ∀ {ref o}, s.findOut bucketId id = some (ref, o) →
      Moves sha256 turn s (visit ref o)) :
    Moves sha256 turn s
      (match s.findOut bucketId id with
        | none => s
        | some (ref, o) => visit ref o) := by
  split
  · exact .refl
  · exact visits ‹_›

theorem visitIn_found_moves {bucketId id : JSString} {s₁ : Engine}
    {visit : Ref → Incoming → Engine}
    (visits : ∀ {ref i}, s.findIn bucketId id = some (ref, i) →
      Moves sha256 turn s₁ (visit ref i)) :
    Moves sha256 turn s₁
      (match s.findIn bucketId id with
        | none => s₁
        | some (ref, i) => visit ref i) := by
  split
  · exact .refl
  · exact visits ‹_›

theorem handleCancel_moves {bucketId : JSString}
    {msg : TransferCancelPlainMessage Time} (sound : s.Sound)
    (event : turn.event = .handleCancel bucketId msg) :
    Moves sha256 turn s (s.handleCancel bucketId msg) := by
  have fails : ∀ {ref o}, s.findOut bucketId msg.id = some (ref, o) →
      Moves sha256 turn s (s.setOut ref
        { o with
          status := .failed, detail := some (cancelDetail msg.reason),
          inFlight := .empty, queue := [] }) := by
    intro ref o found
    apply Relation.ReflTransGen.single
    apply Move.adjustOut (sound.findOut found).2.1
    exact .of_schedule rfl rfl rfl rfl rfl rfl (by simp) (by simp)
  have drops : ∀ {s₁ : Engine} {ref i},
      s.findIn bucketId msg.id = some (ref, i) →
        Moves sha256 turn s₁ (s₁.deleteIn i) := by
    intro s₁ ref i found
    obtain ⟨_, _, sameBucket, sameId⟩ := sound.findIn found
    apply deleteIn_moves
    rw [sameBucket, sameId]
    exact .inr (.inr (.inl ⟨msg, event, rfl⟩))
  have both := (visitOut_found_moves fails).trans (visitIn_found_moves drops)
  unfold handleCancel
  simp only
  split
  · exact both.trans (publish_moves _ _)
  · exact both

/-! ## Receiver -/

theorem ackKnown_moves {bucketId id : JSString}
    (known : turn.env.hasMessage bucketId id = true)
    (missing : s.findIn bucketId id = none) :
    Moves sha256 turn s (s.ackKnown turn.env bucketId id) := by
  apply Relation.ReflTransGen.head (.known known missing)
  apply Relation.ReflTransGen.single
  exact .ackDone (.inr (by simp [record])) missing

/-- An incoming transfer changes its status and asks for what it misses. -/
theorem setIn_sendAck_moves (env : Env) {ref : Ref} {i i' : Incoming}
    (resend : Bool) (found : s.incoming[ref]? = some i) (same : i.Same i')
    (parts : i'.parts = i.parts) (completing : i'.completing = i.completing) :
    Moves sha256 turn s ((s.setIn ref i').sendAck env i' resend false) := by
  apply Relation.ReflTransGen.head
    (.adjustIn found same parts fun before => completing.trans before)
  exact sendAck_moves env resend (mem_setIn found i')

theorem handleQuery_moves {bucketId id : JSString}
    (event : turn.event = .handleQuery bucketId id) :
    Moves sha256 turn s (s.handleQuery turn.env bucketId id) := by
  unfold handleQuery
  split
  · rename_i ref i found
    have allocated := (findIn_eq_some_iff.mp found).2
    split
    · exact .refl
    · refine Relation.ReflTransGen.trans ?_ (publish_moves _ _)
      exact setIn_sendAck_moves _ _ allocated ⟨rfl, rfl, rfl, rfl⟩ rfl rfl
  · rename_i missing
    split
    · rename_i known
      exact ackKnown_moves known missing
    · exact .single (.ack (.inr event))

theorem complete_moves {ref : Ref} {i : Incoming}
    (found : s.incoming[ref]? = some i) (live : s.isLiveIn ref i = true)
    (idle : i.completing = false) :
    Moves sha256 turn s (s.complete ref i) := by
  unfold complete
  split
  · apply Relation.ReflTransGen.single
    exact .adjustIn found ⟨rfl, rfl, rfl, rfl⟩ rfl (by simp [idle])
  · apply Relation.ReflTransGen.single
    exact .adjustIn found ⟨rfl, rfl, rfl, rfl⟩ rfl fun _ => rfl
  · rename_i data offset filled
    exact .single (.startHash found live idle filled)

theorem setIn_setIn (s : Engine) (ref : Ref) (i i' : Incoming) :
    (s.setIn ref i).setIn ref i' = s.setIn ref i' := by
  simp [setIn]

theorem complete_setIn (ref : Ref) (i i' : Incoming) :
    (s.setIn ref i).complete ref i' = s.complete ref i' := by
  unfold complete
  simp only [setIn_setIn]

theorem fill_moves {bucketId : JSString} {ref : Ref} {i : Incoming}
    {c : TransferChunkPlainMessage Time}
    (event : turn.event = .handleChunk bucketId c)
    (found : s.incoming[ref]? = some i) (live : s.isLiveIn ref i = true)
    (sameBucket : i.bucketId = bucketId)
    (sameId : i.id = c.id) (sameTotal : i.total = c.total) :
    Moves sha256 turn s (s.fill turn.env ref i c) := by
  have same : ∀ i' : Incoming, i'.bucketId = i.bucketId → i'.id = i.id →
      i'.header = i.header → i'.total = i.total → i.Same i' :=
    fun _ a b c d => ⟨a, b, c, d⟩
  unfold fill
  split
  · exact .refl
  · rename_i open_
    simp only [not_or, Bool.not_eq_true] at open_
    set i' : Incoming := { i with
      parts := setPart i.parts c.index c.data
      received := i.received + 1
      sinceAck := i.sinceAck + 1
      attempts := 0
      status := .active
      detail := none
      lastActivityAt := turn.env.now }
    have filled : ∀ i₁ : Incoming, i₁.Same i' → i'.Same i₁ →
        i₁.parts = i'.parts → i₁.completing = i'.completing →
        Moves sha256 turn s (s.setIn ref i₁) := by
      intro i₁ _ back parts completing
      apply Relation.ReflTransGen.single
      refine .filled event found sameBucket sameId sameTotal open_.1
        ⟨back.bucketId, back.id, back.header, back.total⟩ parts ?_
      rw [completing]
      exact open_.1
    simp only
    split
    · apply (filled i' (.refl i') (.refl i') rfl rfl).trans
      have found' : (s.setIn ref i').incoming[ref]? = some i' := by
        simp [setIn, getElem?_set_of_some found]
      rw [← complete_setIn ref i' i']
      exact complete_moves found' live open_.1
    · split
      · refine Relation.ReflTransGen.trans ?_ (publish_moves _ _)
        apply Relation.ReflTransGen.trans
          (filled { i' with sinceAck := 0 } ⟨rfl, rfl, rfl, rfl⟩
            ⟨rfl, rfl, rfl, rfl⟩ rfl rfl)
        exact sendAck_moves _ _ (mem_setIn found _)
      · apply (filled i' (.refl i') (.refl i') rfl rfl).trans
        exact publish_moves _ _

theorem handleChunk_moves {bucketId : JSString}
    {c : TransferChunkPlainMessage Time} (sound : s.Sound)
    (event : turn.event = .handleChunk bucketId c) :
    Moves sha256 turn s (s.handleChunk turn.env bucketId c) := by
  unfold handleChunk
  split
  · rename_i ref i found
    obtain ⟨listed, allocated, sameBucket, sameId⟩ := sound.findIn found
    have live : s.isLiveIn ref i = true := by
      simp [isLiveIn, sameBucket, sameId, listed]
    split
    · exact .refl
    · rename_i matching
      simp only [not_or, not_not] at matching
      exact fill_moves event allocated live sameBucket sameId matching.2
  · rename_i missing
    split
    · exact .refl
    · split
      · rename_i known
        exact ackKnown_moves known missing
      · rename_i unknown
        rw [Bool.not_eq_true] at unknown
        simp only
        split
        · apply sendCancel_moves
          exact .inr (.inr (.inl ⟨c, event, rfl⟩))
        · apply Relation.ReflTransGen.head (.openIn event missing unknown)
          apply Relation.ReflTransGen.trans (ensureTimer_moves _)
          have opened : ∀ s₁ : Engine,
              s₁.incoming = (s.addIn (.open turn.env.now bucketId c)).incoming →
              s₁.inc = (s.addIn (.open turn.env.now bucketId c)).inc →
              Moves sha256 turn s₁ (s₁.fill turn.env s.incoming.length
                (.open turn.env.now bucketId c) c) := by
            intro s₁ same sameRooms
            apply fill_moves event _ _ rfl rfl rfl
            · rw [same]
              simp [addIn]
            · rw [isLiveIn, sameRooms]
              simp [addIn, Rooms.find_put]
          split
          · apply Relation.ReflTransGen.head .checkStorage
            exact opened _ rfl rfl
          · exact opened _ rfl rfl

theorem storageChecked_moves {pos : Nat} {ok : Bool} {ref : Ref}
    (event : turn.event = .settle pos ok)
    (continues : turn.task = some (.storage ref))
    (waiting : s.suspended[pos]? = some (.storage ref)) :
    Moves sha256 turn s
      ((s.unsuspend pos).storageChecked turn.env ref ok) := by
  unfold storageChecked
  split
  · exact .single (.settled event)
  · rename_i i found
    split
    · exact .single (.settled event)
    · rename_i rejected
      simp only [not_or, Bool.not_eq_true, Bool.not_eq_false] at rejected
      obtain ⟨rfl, live⟩ := rejected
      refine Relation.ReflTransGen.trans ?_ (publish_moves _ _)
      apply Relation.ReflTransGen.head
        (.reject event continues waiting found live)
      apply Relation.ReflTransGen.trans (stopTimerIfIdle_moves _)
      apply sendCancel_moves
      refine .inr (.inr (.inr ⟨i, ?_, rfl, rfl⟩))
      unfold stopTimerIfIdle
      split <;> exact List.mem_of_getElem? found

@[simp] theorem stopTimerIfIdle_incoming (s : Engine) :
    s.stopTimerIfIdle.incoming = s.incoming := by
  unfold stopTimerIfIdle
  split <;> rfl

@[simp] theorem stopTimerIfIdle_inc (s : Engine) :
    s.stopTimerIfIdle.inc = s.inc := by
  unfold stopTimerIfIdle
  split <;> rfl

@[simp] theorem stopTimerIfIdle_log (s : Engine) :
    s.stopTimerIfIdle.log = s.log := by
  unfold stopTimerIfIdle
  split <;> rfl

theorem setIn_incoming {ref : Ref} {i : Incoming}
    (found : s.incoming[ref]? = some i) (i' : Incoming) :
    (s.setIn ref i').incoming[ref]? = some i' := by
  rw [setIn, getElem?_set_of_some found, if_pos rfl]

theorem hashed_moves {pos : Nat} {ok : Bool} {ref : Ref} {data : Bytes}
    {offset : Nat} (event : turn.event = .settle pos ok)
    (waiting : s.suspended[pos]? = some (.hashData ref data offset)) :
    Moves sha256 turn s
      ((s.unsuspend pos).hashed turn.env ref data offset (sha256 data)) := by
  unfold hashed
  split
  · exact .single (.settled event)
  · rename_i i found
    split
    · exact .single (.settled event)
    · rename_i live
      simp only [Bool.not_eq_true, Bool.not_eq_false] at live
      split
      · have reset : ∀ i' : Incoming, i.Same i' →
            i'.parts = i.parts.map (fun _ => none) → i'.completing = false →
            Moves sha256 turn s ((s.unsuspend pos).setIn ref i') := by
          intro i' same parts idle
          apply Relation.ReflTransGen.single
          exact .reset event waiting (decide_eq_true rfl) found same parts idle
        simp only
        set i' : Incoming := { i with
          attempts := i.attempts + 1
          parts := i.parts.map fun _ => none
          received := 0
          sinceAck := 0
          completing := false }
        refine Relation.ReflTransGen.trans ?_ (publish_moves _ _)
        split
        · apply (reset i' ⟨rfl, rfl, rfl, rfl⟩ rfl rfl).trans
          have found' := setIn_incoming (s := s.unsuspend pos) found i'
          apply Relation.ReflTransGen.trans (deleteIn_moves (.inr ?_))
          · apply sendCancel_moves
            refine .inr (.inr (.inr ⟨i', ?_, rfl, rfl⟩))
            rw [deleteIn, stopTimerIfIdle_incoming]
            exact List.mem_of_getElem? found'
          · exact .inr (.inr ⟨ref, i', found', rfl, of_decide_eq_true live⟩)
        · apply (reset { i' with lastActivityAt := turn.env.now }
            ⟨rfl, rfl, rfl, rfl⟩ rfl rfl).trans
          exact sendAck_moves _ _ (mem_setIn (s := s.unsuspend pos) found _)
      · rename_i matching
        simp only [not_or, not_not] at matching
        exact .single (.startDeliver event waiting found live matching.1
          matching.2)

theorem stored_moves {pos : Nat} {ok : Bool} {ref : Ref}
    (event : turn.event = .settle pos ok)
    (waiting : s.suspended[pos]? = some (.deliver ref)) :
    Moves sha256 turn s ((s.unsuspend pos).stored turn.env ref ok) := by
  unfold stored
  split
  · exact .single (.settled event)
  · rename_i i found
    split
    · rename_i resolved
      rw [resolved] at event
      apply Relation.ReflTransGen.head (.resolve event waiting found)
      apply Relation.ReflTransGen.trans (stopTimerIfIdle_moves _)
      refine Relation.ReflTransGen.head ?_ (publish_moves _ _)
      apply Move.ackDone
      · left
        rw [stopTimerIfIdle_log]
        simp [record]
      · simp [findIn]
    · refine Relation.ReflTransGen.head ?_ (publish_moves _ _)
      exact .reset event waiting (decide_eq_true rfl) found
        ⟨rfl, rfl, rfl, rfl⟩ rfl rfl

/-! ## Lifecycle -/

theorem onConnected_moves (env : Env) (bucketId : JSString) :
    Moves sha256 turn s (s.onConnected env bucketId) := by
  unfold onConnected
  refine Relation.ReflTransGen.trans ?_ (publish_moves _ _)
  apply Relation.ReflTransGen.trans (eachOut_moves _ _)
  · apply eachIn_moves
    intro s ref i found
    split
    · exact .refl
    · simp only
      split
      · exact setIn_sendAck_moves _ _ found ⟨rfl, rfl, rfl, rfl⟩ rfl rfl
      · exact .single (.adjustIn found ⟨rfl, rfl, rfl, rfl⟩ rfl
          fun completing => completing)
  · intro s ref o found
    apply query_moves _ found
    exact .of_schedule rfl rfl rfl rfl rfl rfl (fun _ => id) (by simp)

theorem onDisconnected_moves (bucketId : JSString) :
    Moves sha256 turn s (s.onDisconnected bucketId) := by
  unfold onDisconnected
  refine Relation.ReflTransGen.trans ?_ (publish_moves _ _)
  apply Relation.ReflTransGen.trans (eachOut_moves _ _)
  · apply eachIn_moves
    intro s ref i found
    split
    · exact .refl
    · exact .single (.adjustIn found ⟨rfl, rfl, rfl, rfl⟩ rfl
        fun completing => completing)
  · intro s ref o found
    split
    · exact .refl
    · exact .single (.adjustOut found
        (.of_schedule rfl rfl rfl rfl rfl rfl (fun _ => id) (by simp)))

theorem retry_moves (env : Env) (bucketId id : JSString) :
    Moves sha256 turn s (s.retry env bucketId id) := by
  have asked : ∀ {ref o}, s.findOut bucketId id = some (ref, o) →
      Moves sha256 turn s (s.query env ref
        { o with
          attempts := 0, status := .active, detail := none,
          inFlight := .empty }) := by
    intro ref o found
    apply query_moves _ (findOut_eq_some_iff.mp found).2
    exact .of_schedule rfl rfl rfl rfl rfl rfl (fun _ queued => queued)
      (by simp)
  have answered : ∀ {s : Engine} {ref i},
      s.findIn bucketId id = some (ref, i) → Moves sha256 turn s
        (if i.completing then s
        else
          let i := { i with
            attempts := 0, status := .active, detail := none,
            lastActivityAt := env.now }
          s.setIn ref i |>.sendAck env i true false) := by
    intro s ref i found
    split
    · exact .refl
    · exact setIn_sendAck_moves _ _ (findIn_eq_some_iff.mp found).2
        ⟨rfl, rfl, rfl, rfl⟩ rfl rfl
  unfold retry
  refine Relation.ReflTransGen.trans ?_ (publish_moves _ _)
  refine Relation.ReflTransGen.trans ?_ (ensureTimer_moves _)
  exact (visitOut_found_moves asked).trans (visitIn_found_moves answered)

theorem drop_moves {bucketId id : JSString} (sound : s.Sound)
    (abandons : turn.Abandons bucketId id) :
    Moves sha256 turn s (s.drop bucketId id).1 := by
  have outgoing : ∀ {ref : Ref} {o}, s.findOut bucketId id = some (ref, o) →
      Moves sha256 turn s (s.deleteOut o) := by
    intro ref o found
    obtain ⟨_, _, sameBucket, sameId⟩ := sound.findOut found
    apply deleteOut_moves
    rw [sameBucket, sameId]
    exact .inl abandons
  have incoming : ∀ {s₁ : Engine} {ref : Ref} {i},
      s.findIn bucketId id = some (ref, i) →
        Moves sha256 turn s₁ (s₁.deleteIn i) := by
    intro s₁ ref i found
    obtain ⟨_, _, sameBucket, sameId⟩ := sound.findIn found
    apply deleteIn_moves
    rw [sameBucket, sameId]
    exact .inr (.inl abandons)
  exact (visitOut_found_moves outgoing).trans (visitIn_found_moves incoming)

theorem cancel_moves {bucketId id : JSString} (sound : s.Sound)
    (event : turn.event = .cancel bucketId id) :
    Moves sha256 turn s (s.cancel turn.env bucketId id) := by
  have dropped : Moves sha256 turn s (s.drop bucketId id).1 :=
    drop_moves sound (.inl event)
  unfold cancel
  split
  · rename_i s₁ result
    rw [result] at dropped
    refine Relation.ReflTransGen.trans ?_ (publish_moves _ _)
    apply dropped.trans
    exact sendCancel_moves _ _ (.inl event)
  · rename_i s₁ result
    rw [result] at dropped
    exact dropped

theorem forget_moves {bucketId id : JSString} (sound : s.Sound)
    (event : turn.event = .forget bucketId id) :
    Moves sha256 turn s (s.forget bucketId id) := by
  have dropped : Moves sha256 turn s (s.drop bucketId id).1 :=
    drop_moves sound (.inr (.inl event))
  unfold forget
  split
  · rename_i s₁ result
    rw [result] at dropped
    exact dropped.trans (publish_moves _ _)
  · rename_i s₁ result
    rw [result] at dropped
    exact dropped

theorem clearBucket_moves {bucketId : JSString} {forgetPending : Bool}
    (event : turn.event = .clearBucket bucketId forgetPending) :
    Moves sha256 turn s (s.clearBucket bucketId forgetPending) := by
  have abandons : ∀ id, turn.Abandons bucketId id :=
    fun _ => .inr (.inr (.inl ⟨forgetPending, event⟩))
  have kept : ∀ (rooms : Rooms) other id,
      Rooms.find (rooms.erase bucketId) other id = rooms.find other id ∨
        Rooms.find (rooms.erase bucketId) other id = none ∧
          turn.Abandons other id := by
    intro rooms other id
    rw [Rooms.find_erase]
    split
    · rename_i same
      exact .inr ⟨rfl, same ▸ abandons id⟩
    · exact .inl rfl
  have erased : Moves sha256 turn s
      { s with out := s.out.erase bucketId, inc := s.inc.erase bucketId } := by
    apply Relation.ReflTransGen.head (.removeOut fun other id =>
      (kept s.out other id).imp_right (And.imp_right .inl))
    apply Relation.ReflTransGen.single
    exact .removeIn fun other id =>
      (kept s.inc other id).imp_right (And.imp_right .inl)
  unfold clearBucket
  simp only
  refine Relation.ReflTransGen.tail ?_ (.note rfl)
  refine Relation.ReflTransGen.trans ?_ (stopTimerIfIdle_moves _)
  split
  · exact erased.tail (.note rfl)
  · exact erased

theorem clearAll_moves (event : turn.event = .clearAll) :
    Moves sha256 turn s s.clearAll := by
  have abandons : ∀ bucketId id, turn.Abandons bucketId id :=
    fun _ _ => .inr (.inr (.inr event))
  unfold clearAll
  refine Relation.ReflTransGen.trans ?_ (stopTimerIfIdle_moves _)
  have outCleared : Move sha256 turn s { s with out := .empty } := by
    apply Move.removeOut
    intro other id
    exact .inr ⟨Rooms.find_empty _ _, .inl (abandons other id)⟩
  apply Relation.ReflTransGen.head outCleared
  apply Relation.ReflTransGen.single
  apply Move.removeIn
  intro other id
  exact .inr ⟨Rooms.find_empty _ _, .inl (abandons other id)⟩

/-! ## Ticks -/

theorem tickOut_moves (env : Env) {ref : Ref} {o : Outgoing}
    (found : s.outgoing[ref]? = some o) :
    Moves sha256 turn s (s.tickOut env ref o).1 := by
  unfold tickOut
  split
  · exact .refl
  · split
    · split
      · apply query_moves _ found
        exact .of_schedule rfl rfl rfl rfl rfl rfl (fun _ => id) fun _ => id
      · exact .refl
    · split
      · exact pump_moves _ _
      · split
        · exact .refl
        · simp only
          split
          · apply Relation.ReflTransGen.single
            apply Move.adjustOut found
            exact .of_schedule rfl rfl rfl rfl rfl rfl (fun _ => id) (by simp)
          · apply query_moves _ found
            exact .of_schedule rfl rfl rfl rfl rfl rfl (fun _ => id)
              fun _ => id

/-- No other transfer is listed in the place of one of these. -/
def Unrivalled (s : Engine) (refs : List Ref) : Prop :=
  ∀ ref ∈ refs, ∀ i, s.incoming[ref]? = some i →
    s.inc.find i.bucketId i.id = none ∨
      s.inc.find i.bucketId i.id = some ref

/-- Incoming transfers keep their identity, and rooms list no new ones. -/
structure OnlyLoses (s s' : Engine) : Prop where
  incoming : ∀ (ref : Ref) (i' : Incoming), s'.incoming[ref]? = some i' →
    ∃ i : Incoming, s.incoming[ref]? = some i ∧ i.Same i'
  inc : ∀ bucketId id, s'.inc.find bucketId id = s.inc.find bucketId id ∨
    s'.inc.find bucketId id = none

theorem OnlyLoses.refl (s : Engine) : s.OnlyLoses s where
  incoming := fun _ i found => ⟨i, found, .refl i⟩
  inc := fun _ _ => .inl rfl

theorem OnlyLoses.unrivalled {s s' : Engine} {refs : List Ref}
    (loses : s.OnlyLoses s') (unrivalled : s.Unrivalled refs) :
    s'.Unrivalled refs := by
  intro ref member i' found'
  obtain ⟨i, found, same⟩ := loses.incoming ref i' found'
  rw [same.bucketId, same.id]
  rcases loses.inc i.bucketId i.id with kept | gone
  · rw [kept]
    exact unrivalled ref member i found
  · exact .inl gone

theorem OnlyLoses.setIn {ref : Ref} {i i' : Incoming}
    (found : s.incoming[ref]? = some i) (same : i.Same i') :
    s.OnlyLoses (s.setIn ref i') where
  incoming := by
    intro other i₁ found₁
    simp only [Engine.setIn, getElem?_set_of_some found] at found₁
    split at found₁
    · rename_i here
      obtain rfl := Option.some.inj found₁
      exact ⟨i, here ▸ found, same⟩
    · exact ⟨i₁, found₁, .refl i₁⟩
  inc := fun _ _ => .inl rfl

theorem tickIn_onlyLoses (env : Env) {ref : Ref} {i : Incoming}
    (found : s.incoming[ref]? = some i) :
    s.OnlyLoses (s.tickIn env ref i).1 := by
  unfold tickIn
  split
  · exact .refl s
  · split
    · split
      · constructor
        · intro other i₁ found₁
          rw [deleteIn, stopTimerIfIdle_incoming] at found₁
          exact ⟨i₁, found₁, .refl i₁⟩
        · intro bucketId id
          rw [deleteIn, stopTimerIfIdle_inc, Rooms.find_remove]
          split
          · exact .inr rfl
          · exact .inl rfl
      · exact .refl s
    · split
      · exact .refl s
      · simp only
        split
        · split <;> exact .setIn found ⟨rfl, rfl, rfl, rfl⟩
        · split
          · exact .setIn found ⟨rfl, rfl, rfl, rfl⟩
          · have loses : s.OnlyLoses (s.setIn ref { i with
                lastActivityAt := env.now
                attempts := i.attempts + 1
                status := .active }) := .setIn found ⟨rfl, rfl, rfl, rfl⟩
            exact ⟨loses.incoming, loses.inc⟩

theorem tickIn_moves (env : Env) {ref : Ref} {i : Incoming}
    (found : s.incoming[ref]? = some i)
    (unrivalled : s.inc.find i.bucketId i.id = none ∨
      s.inc.find i.bucketId i.id = some ref) :
    Moves sha256 turn s (s.tickIn env ref i).1 := by
  unfold tickIn
  split
  · exact .refl
  · rename_i idle
    rw [Bool.not_eq_true] at idle
    split
    · split
      · apply deleteIn_moves
        rcases unrivalled with gone | listed
        · exact .inl gone
        · exact .inr (.inr (.inr ⟨ref, i, found, idle, listed⟩))
      · exact .refl
    · split
      · exact .refl
      · simp only
        split
        · split <;>
            exact .single (.adjustIn found ⟨rfl, rfl, rfl, rfl⟩ rfl
              fun completing => completing)
        · split
          · exact .single (.adjustIn found ⟨rfl, rfl, rfl, rfl⟩ rfl
              fun completing => completing)
          · exact setIn_sendAck_moves _ _ found ⟨rfl, rfl, rfl, rfl⟩ rfl rfl

theorem touch_fst (bucketId : JSString) (touched : List JSString)
    (visited : Engine × Bool) :
    (touch bucketId touched visited).1 = visited.1 := by
  obtain ⟨s, publishes⟩ := visited
  cases publishes <;> rfl

theorem visitOut_moves (env : Env) (refs : List Ref)
    (visited : Engine × List JSString) :
    Moves sha256 turn visited.1 (refs.foldl (visitOut env) visited).1 := by
  induction refs generalizing visited with
  | nil => exact .refl
  | cons ref refs induction =>
      refine Relation.ReflTransGen.trans ?_ (induction _)
      obtain ⟨s, touched⟩ := visited
      simp only [visitOut]
      split
      · rename_i o found
        rw [touch_fst]
        exact tickOut_moves env found
      · exact .refl

theorem visitIn_moves (env : Env) (refs : List Ref)
    {visited : Engine × List JSString}
    (unrivalled : visited.1.Unrivalled refs) :
    Moves sha256 turn visited.1 (refs.foldl (visitIn env) visited).1 := by
  induction refs generalizing visited with
  | nil => exact .refl
  | cons ref refs induction =>
      have later : visited.1.Unrivalled refs :=
        fun other member => unrivalled other (List.mem_cons_of_mem _ member)
      rw [List.foldl_cons]
      cases found : visited.1.incoming[ref]? with
      | none =>
          have skipped : visitIn env visited ref = visited := by
            simp only [visitIn, found]
          rw [skipped]
          exact induction later
      | some i =>
          have visit : (visitIn env visited ref).1 =
              (visited.1.tickIn env ref i).1 := by
            simp only [visitIn, found, touch_fst]
          apply Relation.ReflTransGen.trans
            (b := (visitIn env visited ref).1)
          · rw [visit]
            exact tickIn_moves env found
              (unrivalled ref List.mem_cons_self i found)
          · apply induction
            rw [visit]
            exact (tickIn_onlyLoses env found).unrivalled later

theorem Sound.unrivalled (sound : s.Sound) :
    s.Unrivalled s.inc.allRefs := by
  intro ref member i found
  obtain ⟨map, inValues, inMap⟩ := List.mem_flatMap.mp member
  obtain ⟨bucketId, mapOf⟩ := (InsertionMap.mem_values_iff _).mp inValues
  obtain ⟨id, refOf⟩ := (InsertionMap.mem_values_iff _).mp inMap
  have listed : s.inc.find bucketId id = some ref := by
    rw [Rooms.find, mapOf]
    exact refOf
  obtain ⟨i₁, found₁, sameBucket, sameId⟩ := sound.inKeys _ _ _ listed
  obtain rfl := Option.some.inj (found.symm.trans found₁)
  rw [sameBucket, sameId]
  exact .inr listed

theorem Sound.of_moves {s' : Engine} (sound : s.Sound)
    (moves : Moves sha256 turn s s') : s'.Sound := by
  induction moves with
  | refl => exact sound
  | tail _ move induction => exact move.sound induction

theorem publishAll_moves (rooms : List JSString) :
    Moves sha256 turn s
      (rooms.foldl (fun s bucketId => s.publish bucketId) s) := by
  induction rooms generalizing s with
  | nil => exact .refl
  | cons bucketId rooms induction =>
      exact (publish_moves s bucketId).trans induction

theorem tick_moves (env : Env) (sound : s.Sound) :
    Moves sha256 turn s (s.tick env) := by
  have sent : Moves sha256 turn s
      (s.out.allRefs.foldl (visitOut env) (s, [])).1 :=
    visitOut_moves env s.out.allRefs (s, [])
  have unrivalled := (sound.of_moves sent).unrivalled
  exact (sent.trans (visitIn_moves env _ unrivalled)).trans
    (publishAll_moves _)

/-! ## Sections -/

theorem settle_moves {pos : Nat} {ok : Bool} {task : Suspended}
    (event : turn.event = .settle pos ok) (continues : turn.task = some task)
    (waiting : s.suspended[pos]? = some task) :
    Moves sha256 turn s ((s.unsuspend pos).settle sha256 turn.env ok task) := by
  cases task with
  | hashPayload => exact register_moves event waiting
  | send => exact pumpSent_moves event waiting
  | hashData => exact hashed_moves event waiting
  | deliver => exact stored_moves event waiting
  | storage => exact storageChecked_moves event continues waiting

/-- A section of a sound engine is a sequence of moves. -/
theorem step_moves {s' : Engine} (sound : s.Sound)
    (continues : turn.task = turn.event.task s)
    (stepped : s.step sha256 turn.env turn.event = some s') :
    Moves sha256 turn s s' := by
  cases event : turn.event with
  | settle pos ok =>
      simp only [step, event] at stepped
      obtain ⟨task, waiting, rfl⟩ := Option.map_eq_some_iff.mp stepped
      rw [event] at continues
      exact settle_moves event (continues.trans waiting) waiting
  | startSend bucketId payload resume =>
      simp only [step, event, Option.some.injEq] at stepped
      obtain rfl := stepped
      unfold startSend
      split
      · exact .refl
      · split
        · exact .refl
        · exact .single (.hashPayload event)
  | handleAck bucketId ack =>
      simp only [step, event, Option.some.injEq] at stepped
      exact stepped ▸ handleAck_moves sound event
  | handleCancel bucketId msg =>
      simp only [step, event, Option.some.injEq] at stepped
      exact stepped ▸ handleCancel_moves sound event
  | handleQuery bucketId id =>
      simp only [step, event, Option.some.injEq] at stepped
      exact stepped ▸ handleQuery_moves event
  | handleChunk bucketId c =>
      simp only [step, event, Option.some.injEq] at stepped
      exact stepped ▸ handleChunk_moves sound event
  | onConnected bucketId =>
      simp only [step, event, Option.some.injEq] at stepped
      exact stepped ▸ onConnected_moves _ _
  | onDisconnected bucketId =>
      simp only [step, event, Option.some.injEq] at stepped
      exact stepped ▸ onDisconnected_moves _
  | retry bucketId id =>
      simp only [step, event, Option.some.injEq] at stepped
      exact stepped ▸ retry_moves _ _ _
  | cancel bucketId id =>
      simp only [step, event, Option.some.injEq] at stepped
      exact stepped ▸ cancel_moves sound event
  | forget bucketId id =>
      simp only [step, event, Option.some.injEq] at stepped
      exact stepped ▸ forget_moves sound event
  | clearBucket bucketId forgetPending =>
      simp only [step, event, Option.some.injEq] at stepped
      exact stepped ▸ clearBucket_moves event
  | clearAll =>
      simp only [step, event, Option.some.injEq] at stepped
      exact stepped ▸ clearAll_moves event
  | tick =>
      simp only [step, event, Option.some.injEq] at stepped
      exact stepped ▸ tick_moves _ sound

end Moves

section Runs

variable {sha256 : Bytes → JSString} {limits : TransferLimits}
  {checksStorage : Bool} {s s' : Engine}

theorem reachable_step
    (reachable : (Engine.system sha256 limits checksStorage).Reachable s)
    {event : Event} {env : Env}
    (stepped : s.step sha256 env event = some s') :
    (Engine.system sha256 limits checksStorage).Reachable s' := by
  have taken : (Engine.system sha256 limits checksStorage).step s
      (event, env) s' := stepped
  exact reachable.step taken

theorem sound_of_reachable
    (reachable : (Engine.system sha256 limits checksStorage).Reachable s) :
    s.Sound := by
  apply Lts.Reachable.invariant Engine.Sound ?_ ?_ reachable
  · rintro _ rfl
    exact .initial limits checksStorage
  · intro s label s' sound stepped
    have turn : s.step sha256 (Turn.of s label.1 label.2).env
        (Turn.of s label.1 label.2).event = some s' := stepped
    exact sound.of_moves (step_moves sound rfl turn)

end Runs

end Engine

end Byteln.Client

import Byteln.Client.LiveClients

/-!
# One connect flow, one client

A call looks for the entry in `openPromises` before it reads the room's
record, and starts its flow afterwards.  As long as no flow is started while
there is an entry, one flow runs at a time, and at most one client of the room
is connected or connecting.
-/

namespace Byteln.Client

open Byteln.Library

/-- The stages before a flow makes its client. -/
def ConnectFlow.early : ConnectFlow → Bool
  | .waitForRelay _ => false
  | _ => true

namespace ConnectionManager

/-- What is connected or connecting was so before, and the room has not lost
it. -/
structure Subsides (before : ConnectionManager) (tasks : List RoomTask)
    (after : ConnectionManager) (others : List RoomTask) : Prop where
  live : ∀ ref, after.Live others ref → before.Live tasks ref
  kept : ∀ ref, before.client = some ref → after.Live others ref →
    after.client = some ref
  room : after.room = before.room ∨ after.room = none
  client : after.client = before.client ∨ after.client = none

def FitsStage (manager : ConnectionManager) : ConnectFlow → Prop
  | .connectClosing room _ => ∀ ref, manager.room = some ref → ref = room
  | .connectToken | .openPending | .openToken => manager.client = none
  | .relayClosing _ _ => False
  | _ => True

/-- A flow in this stage finds what it left. -/
structure Fits (manager : ConnectionManager) (tasks : List RoomTask)
    (stage : ConnectFlow) : Prop where
  early : stage.early = true → ∀ ref, ¬ manager.Live tasks ref
  stage : manager.FitsStage stage

variable {manager before after : ConnectionManager} {ref : Nat}
  {tasks others : List RoomTask} {stage : ConnectFlow}
  {turn : ConnectionManager × List RoomTask}

theorem Calm.subsides (calm : Calm before after)
    (sound : before.Sound tasks) : Subsides before tasks after tasks := by
  refine ⟨fun ref live => live.retreats sound calm.retreats, ?_,
    calm.retreats.room, calm.retreats.client⟩
  intro ref has live
  rcases calm.client ref has with kept | shut
  · exact kept
  · exact absurd live (shut.not_live sound calm.retreats)

theorem Subsides.of_openings {tasks' others' : List RoomTask}
    (subsides : Subsides before tasks after others)
    (same : ∀ entry, entry ∈ openings tasks → entry ∈ openings tasks')
    (same' : ∀ entry, entry ∈ openings others' → entry ∈ openings others) :
    Subsides before tasks' after others' :=
  ⟨fun ref live =>
      (subsides.live ref (live.of_openings same')).of_openings same,
    fun ref has live => subsides.kept ref has (live.of_openings same'),
    subsides.room, subsides.client⟩

theorem FitsStage.subsides (fits : before.FitsStage stage)
    (subsides : Subsides before tasks after others) :
    after.FitsStage stage := by
  have client : before.client = none → after.client = none := by
    intro none
    rcases subsides.client with same | gone
    · exact same.trans none
    · exact gone
  cases stage with
  | connectClosing room wait =>
      intro ref opened
      rcases subsides.room with same | gone
      · exact fits ref (same ▸ opened)
      · rw [gone] at opened
        cases opened
  | connectToken => exact client fits
  | openPending => exact client fits
  | openToken => exact client fits
  | relayClosing room wait => exact fits
  | _ => trivial

theorem Fits.subsides (fits : before.Fits tasks stage)
    (subsides : Subsides before tasks after others) :
    after.Fits others stage :=
  ⟨fun early ref live => fits.early early ref (subsides.live ref live),
    fits.stage.subsides subsides⟩

theorem Sound.openSocket_subsides {generation : Nat}
    (sound : manager.Sound (.openSocket ref generation :: tasks)) :
    Subsides manager (.openSocket ref generation :: tasks)
      (manager.openSocket ref generation) tasks := by
  have split : openings (.openSocket ref generation :: tasks) =
      (ref, generation) :: openings tasks := rfl
  have unchanged : Subsides manager (.openSocket ref generation :: tasks)
      manager tasks := by
    have same := ((Retreats.refl manager).calm rfl).subsides sound
    exact same.of_openings (fun _ => id) fun entry member => by
      rw [split]
      exact List.mem_cons_of_mem _ member
  unfold ConnectionManager.openSocket
  split
  · exact unchanged
  · rename_i client found
    split
    · rename_i current
      refine ⟨?_, fun _ has _ => has, .inl rfl, .inl rfl⟩
      rintro other (⟨ws, socket, present, owner, live⟩ |
        ⟨generation', client', pending, known, same⟩)
      · rcases Nat.lt_or_ge ws manager.sockets.length with inside | outside
        · have present : (manager.sockets ++
              [⟨ref, .connecting, false⟩])[ws]? = some socket := present
          rw [List.getElem?_append_left inside] at present
          exact .inl ⟨ws, socket, present, owner, live⟩
        · have present : (manager.sockets ++
              [⟨ref, .connecting, false⟩])[ws]? = some socket := present
          rw [List.getElem?_append_right outside] at present
          obtain rfl := List.mem_singleton.mp (List.mem_of_getElem? present)
          refine .inr ⟨generation, client, ?_, owner ▸ found, current⟩
          rw [openings_append, split, ← owner]
          simp
      · have pending : (other, generation') ∈
            openings (manager.queued ++ tasks) := pending
        have known : (manager.relayClients.modify ref fun client =>
            { client with ws := some manager.sockets.length })[other]? =
            some client' := known
        rw [List.getElem?_modify] at known
        obtain ⟨client'', known, changed⟩ := Option.map_eq_some_iff.mp known
        refine .inr ⟨generation', client'', ?_, known, ?_⟩
        · rw [openings_append, split]
          rw [openings_append] at pending
          simp only [List.mem_append, List.mem_cons] at pending ⊢
          exact pending.imp_right .inr
        · split at changed <;> subst changed <;> exact same
    · exact unchanged

theorem Sound.onSocketOpen_subsides (sound : manager.Sound tasks) {ws : Nat}
    (handled : manager.onSocketOpen ws = some after) :
    Subsides manager tasks after tasks := by
  unfold ConnectionManager.onSocketOpen at handled
  split at handled
  · rename_i ref seen found
    obtain rfl := Option.some.inj handled
    have opened := sound.connectedSocket found
    have reset : Retreats (manager.modifySocket ws fun socket =>
        { socket with readyState := .open })
        ((manager.modifySocket ws fun socket =>
          { socket with readyState := .open }).modifyClient ref fun client =>
            { client with reconnectAttempt := 0 }) := by
      apply Retreats.modifyClient
      intro client _
      exact ⟨rfl, id, le_rfl, .inl rfl⟩
    have told := (reset.calm rfl).trans
      ((Retreats.notify _ ref .open []).calm
        (client_notify _ ref fun closed => by cases closed))
    have later := told.subsides opened
    refine ⟨fun other live => ?_, later.kept, later.room, later.client⟩
    rcases later.live other live with ⟨own, socket', present, owner, live⟩ |
      pending
    · simp only [ConnectionManager.modifySocket, List.getElem?_modify]
        at present
      obtain ⟨socket, known, changed⟩ := Option.map_eq_some_iff.mp present
      split at changed <;> subst changed
      · rename_i same
        subst same
        obtain rfl := Option.some.inj (found.symm.trans known)
        exact .inl ⟨ws, _, found, owner, rfl⟩
      · exact .inl ⟨own, socket, known, owner, live⟩
    · exact .inr pending
  · cases handled

/-! ## Turns of a flow -/

/-- What is connected or connecting is the room's client, and the flow goes on
in a stage that fits. -/
structure Advances (tasks : List RoomTask)
    (turn : ConnectionManager × List RoomTask) : Prop where
  client : ∀ ref, turn.1.Live tasks ref → turn.1.client = some ref
  fits : ∀ stage result, .flow stage result ∈ turn.2 →
    turn.1.Fits tasks stage

/-- No client is connected or connecting. -/
theorem Advances.of_none (none : ∀ ref, ¬ turn.1.Live tasks ref)
    (stage : ∀ stage result, .flow stage result ∈ turn.2 →
      turn.1.FitsStage stage) : Advances tasks turn :=
  ⟨fun ref live => absurd live (none ref),
    fun next result member => ⟨fun _ => none, stage next result member⟩⟩

theorem Advances.unsuppress (advances : Advances tasks turn) :
    Advances tasks (unsuppress turn) := by
  refine ⟨advances.client, fun stage result member => ?_⟩
  have fits := advances.fits stage result member
  refine ⟨fits.early, ?_⟩
  have kept := fits.stage
  cases stage <;> exact kept

theorem not_live_retreats (sound : before.Sound tasks)
    (none : ∀ ref, ¬ before.Live tasks ref) (retreats : Retreats before after)
    (ref : Nat) : ¬ after.Live tasks ref :=
  fun live => none ref (live.retreats sound retreats)

/-- Nothing is left once the room's client is closed. -/
theorem closeAndWait_not_live (sound : manager.Sound tasks)
    (own : ∀ ref, manager.Live tasks ref → manager.client = some ref)
    (has : manager.client = some ref) (other : Nat) :
    ¬ (manager.closeAndWait ref).Live tasks other := by
  intro live
  have closing := Retreats.closeAndWait manager ref
  have same := own other (live.retreats sound closing)
  rw [has] at same
  obtain rfl := Option.some.inj same
  exact (sound.closeAndWait_shut ref).not_live sound closing live

theorem not_live_of_client (own : ∀ ref, manager.Live tasks ref →
    manager.client = some ref) (none : manager.client = none) (ref : Nat) :
    ¬ manager.Live tasks ref := by
  intro live
  rw [own ref live] at none
  cases none

theorem client_connect (manager : ConnectionManager) (ref : Nat) :
    (manager.connect ref).client = manager.client := by
  unfold connect
  split
  · rfl
  · have told : ∀ (manager : ConnectionManager) (attempt : Nat),
        (manager.notify ref (if 0 < attempt then .reconnecting else .connecting)
          []).client = manager.client := by
      intro manager attempt
      apply client_notify
      intro closed
      split at closed <;> cases closed
    dsimp only
    split <;> exact told _ _

theorem client_withClient {room : Nat} (sound : manager.Sound tasks)
    (opened : manager.room = some room) :
    (manager.withClient room).client = some manager.relayClients.length := by
  have inside := sound.room room opened
  simp [ConnectionManager.client, internalRoom, ConnectionManager.withClient,
    setClient, ConnectionManager.modifyRoom, opened, inside]

/-- A new client is the only one. -/
theorem connect_live {room : Nat} (sound : manager.Sound tasks)
    (none : ∀ ref, ¬ manager.Live tasks ref)
    (live : ((manager.withClient room).connect
      manager.relayClients.length).Live tasks ref) :
    ref = manager.relayClients.length := by
  have found : (manager.withClient room).relayClients[
      manager.relayClients.length]? =
      some ⟨Option.none, false, 0, false, 0, false, manager.room.isSome⟩ := by
    simp [ConnectionManager.withClient, setClient,
      ConnectionManager.modifyRoom]
  obtain ⟨middle, retreats, connects, -⟩ := connect_eq found
  rw [connects] at live
  have before : ¬ middle.Live tasks ref ∨
      ref = manager.relayClients.length := by
    by_contra neither
    simp only [not_or, not_not] at neither
    have early := neither.1.retreats (sound.withClient room) retreats
    rcases early with socket | ⟨generation, client, pending, known, current⟩
    · exact none ref (.inl socket)
    · refine none ref (.inr ⟨generation, client, pending, ?_, current⟩)
      obtain ⟨⟨client', known', -⟩, -⟩ :=
        sound.opening ref generation pending
      have inside := (List.getElem?_eq_some_iff.mp known').1
      simp only [ConnectionManager.withClient, setClient,
        ConnectionManager.modifyRoom,
        List.getElem?_append_left inside] at known
      exact known
  rcases before with dead | same
  · rcases live with socket | ⟨generation, client, pending, known, current⟩
    · exact absurd (.inl socket) dead
    · have pending : (ref, generation) ∈ openings (middle.queued ++
          [.openSocket manager.relayClients.length 1] ++ tasks) := pending
      simp only [openings_append, List.mem_append] at pending
      rcases pending with (queued | new) | waiting
      · refine absurd (.inr ⟨generation, client, ?_, known, current⟩) dead
        rw [openings_append]
        exact List.mem_append_left _ queued
      · exact (Prod.mk.inj (List.mem_singleton.mp new)).1
      · refine absurd (.inr ⟨generation, client, ?_, known, current⟩) dead
        rw [openings_append]
        exact List.mem_append_right _ waiting
  · exact same

theorem waitForRelay_advances (outside : Surroundings) (polls result : Nat)
    (own : ∀ ref, manager.Live tasks ref → manager.client = some ref) :
    Advances tasks (manager.waitForRelay outside polls result) := by
  unfold waitForRelay
  split
  · exact ⟨own, fun _ _ member => by cases member⟩
  · split
    · exact ⟨own, fun _ _ member => by cases member⟩
    · refine ⟨own, fun stage result member => ?_⟩
      cases List.mem_singleton.mp member
      exact ⟨fun early => (nomatch early), trivial⟩

theorem connectRelay_advances {outside : Surroundings} {result : Nat}
    (sound : manager.Sound tasks) (idle : ∀ ref, ¬ manager.Live tasks ref)
    (clientless : manager.client = none) :
    Advances tasks (manager.connectRelay outside result) := by
  unfold connectRelay
  split
  · exact .of_none idle fun _ _ member => by cases member
  · rename_i room opened
    split
    · exact .of_none idle fun _ _ member => by cases member
    · dsimp only
      have marked := Retreats.modifyRuntime manager fun runtime =>
        { runtime with bucketFull := false }
      have kept := sound.retreats marked
      have idle := not_live_retreats sound idle marked
      rw [client_modifyRuntime, clientless]
      have opened : (manager.modifyRuntime fun runtime =>
          { runtime with bucketFull := false }).room = some room := opened
      generalize manager.modifyRuntime _ = manager at kept idle opened ⊢
      apply waitForRelay_advances
      intro ref live
      rw [client_connect, client_withClient kept opened,
        connect_live kept idle live]

theorem connectExisting_advances {room result : Nat}
    (sound : manager.Sound tasks)
    (own : ∀ ref, manager.Live tasks ref → manager.client = some ref)
    (opened : manager.room = some room) :
    Advances tasks (manager.connectExisting room result) := by
  have suppressed : Retreats manager
      { manager with suppressReconnect := true } := by
    apply Retreats.of_same <;> rfl
  have marked := suppressed.trans (.modifyRuntime _ fun runtime =>
    { runtime with bucketFull := false, connState := .connecting })
  have kept := sound.retreats marked
  have client : ({ manager with suppressReconnect := true }.modifyRuntime
      fun runtime => { runtime with
        bucketFull := false, connState := .connecting }).client =
      manager.client := client_modifyRuntime _ _
  have own : ∀ ref, ({ manager with suppressReconnect := true }.modifyRuntime
      fun runtime => { runtime with
        bucketFull := false, connState := .connecting }).Live tasks ref →
      ({ manager with suppressReconnect := true }.modifyRuntime
        fun runtime => { runtime with
          bucketFull := false, connState := .connecting }).client =
        some ref := fun ref live =>
    client.trans (own ref (live.retreats sound marked))
  have opened : ({ manager with suppressReconnect := true }.modifyRuntime
      fun runtime => { runtime with
        bucketFull := false, connState := .connecting }).room =
      some room := opened
  unfold connectExisting
  dsimp only
  generalize ConnectionManager.modifyRuntime _ _ = manager at kept own opened ⊢
  split
  · rename_i ref has
    refine .of_none (closeAndWait_not_live kept own has) ?_
    intro stage result member
    cases List.mem_singleton.mp member
    intro other opened'
    rcases (Retreats.closeAndWait manager ref).room with same | gone
    · rw [same, opened] at opened'
      exact (Option.some.inj opened').symm
    · rw [gone] at opened'
      cases opened'
  · rename_i clientless
    refine .of_none (not_live_of_client own clientless) ?_
    intro stage result member
    cases List.mem_singleton.mp member
    exact clientless

theorem own_calm (sound : before.Sound tasks)
    (own : ∀ ref, before.Live tasks ref → before.client = some ref)
    (calm : Calm before after) (ref : Nat) (live : after.Live tasks ref) :
    after.client = some ref := by
  have subsides := calm.subsides sound
  exact subsides.kept ref (own ref (subsides.live ref live)) live

theorem connectRoom_advances {result : Nat} (sound : manager.Sound tasks)
    (own : ∀ ref, manager.Live tasks ref → manager.client = some ref) :
    Advances tasks (manager.connectRoom result) := by
  unfold connectRoom
  split
  · exact ⟨own, fun _ _ member => by cases member⟩
  · rename_i room opened
    split
    · exact ⟨own, fun _ _ member => by cases member⟩
    · have stopped := Retreats.stopHeartbeat manager
      exact connectExisting_advances (sound.retreats stopped)
        (own_calm sound own (stopped.calm rfl)) opened

theorem doOpenRoom_advances {outside : Surroundings} {result : Nat}
    (sound : manager.Sound tasks)
    (own : ∀ ref, manager.Live tasks ref → manager.client = some ref) :
    Advances tasks (manager.doOpenRoom outside result) := by
  unfold doOpenRoom
  split
  · rename_i room opened
    split
    · exact ⟨own, fun _ _ member => by cases member⟩
    · exact connectExisting_advances sound own opened
  · rename_i closed
    have clientless : manager.client = none := by
      simp [ConnectionManager.client, internalRoom, closed]
    have idle := not_live_of_client own clientless
    split
    · exact .of_none idle fun _ _ member => by cases member
    · split
      · refine .of_none idle fun stage result member => ?_
        cases List.mem_singleton.mp member
        trivial
      · refine .of_none idle fun stage result member => ?_
        cases List.mem_singleton.mp member
        trivial

theorem doReconnectRoom_advances {result : Nat} (sound : manager.Sound tasks)
    (own : ∀ ref, manager.Live tasks ref → manager.client = some ref) :
    Advances tasks (manager.doReconnectRoom result) := by
  have suppressed : Retreats manager
      { manager with suppressReconnect := true } := by
    apply Retreats.of_same <;> rfl
  have stopped := (suppressed.trans (.stopHeartbeat _)).calm rfl
  have kept := sound.retreats stopped.retreats
  have own := own_calm sound own stopped
  unfold doReconnectRoom
  dsimp only
  generalize { manager with suppressReconnect := true }.stopHeartbeat = manager
    at kept own ⊢
  split
  · rename_i closed
    have clientless : manager.client = none := by
      simp [ConnectionManager.client, internalRoom, closed]
    refine .of_none (not_live_of_client own clientless) ?_
    intro stage result member
    cases List.mem_singleton.mp member
    trivial
  · have marked := (Retreats.modifyRuntime manager fun runtime =>
      { runtime with bucketFull := false, reconnectStalled := false }).calm
        (client_modifyRuntime _ _)
    have own := own_calm kept own marked
    have kept := kept.retreats marked.retreats
    generalize manager.modifyRuntime _ = manager at kept own ⊢
    split
    · rename_i ref has
      refine .of_none (closeAndWait_not_live kept own has) ?_
      intro stage result member
      cases List.mem_singleton.mp member
      trivial
    · rename_i clientless
      refine .of_none (not_live_of_client own clientless) ?_
      intro stage result member
      cases List.mem_singleton.mp member
      trivial

/-- A flow goes on, with at most one client. -/
theorem flow_advances {outside : Surroundings} {result : Nat}
    (sound : manager.Sound tasks)
    (own : ∀ ref, manager.Live tasks ref → manager.client = some ref)
    (fits : manager.Fits tasks stage)
    (goes : manager.flow outside result stage = some turn) :
    Advances tasks turn := by
  have dropped : ∀ room, manager.FitsStage (.connectClosing room 0) →
      (manager.setClient room none).client = none := by
    intro room only
    unfold ConnectionManager.client internalRoom
    cases opened : manager.room with
    | none => simp [setClient, ConnectionManager.modifyRoom, opened]
    | some ref =>
        obtain rfl := only ref opened
        cases found : manager.internalRooms[ref]? <;>
          simp [setClient, ConnectionManager.modifyRoom, opened, found]
  cases stage with
  | reconnectClosing room wait =>
      simp only [flow] at goes
      split at goes <;> cases goes
      refine .of_none (not_live_retreats sound (fits.early rfl)
        (.dropClient manager room)) ?_
      intro stage result member
      cases List.mem_singleton.mp member
      trivial
  | reconnectPause =>
      simp only [flow] at goes
      split at goes <;> cases goes
      · have entered : Quiet manager (manager.openRoom result) :=
          enter_quiet manager result rfl
        refine .of_none (not_live_retreats sound (fits.early rfl)
          entered.unsuppress.retreats) fun stage result member => ?_
        unfold ConnectionManager.openRoom enter at member
        dsimp only [ConnectionManager.unsuppress] at member
        split at member <;> cases List.mem_singleton.mp member
      · exact (connectRoom_advances sound own).unsuppress
  | connectClosing room wait =>
      simp only [flow] at goes
      split at goes <;> cases goes
      refine .of_none (not_live_retreats sound (fits.early rfl)
        (.dropClient manager room)) ?_
      intro stage result member
      cases List.mem_singleton.mp member
      exact dropped room fits.stage
  | connectToken =>
      simp only [flow] at goes
      split at goes <;> cases goes
      · exact (connectRelay_advances sound (fits.early rfl)
          fits.stage).unsuppress
      · exact .of_none (fits.early rfl) fun _ _ member => by cases member
  | openCredentials =>
      simp only [flow] at goes
      split at goes <;> cases goes
      · refine .of_none (fits.early rfl) fun stage result member => ?_
        cases List.mem_singleton.mp member
        trivial
      · exact .of_none (fits.early rfl) fun _ _ member => by cases member
  | openRecord =>
      simp only [flow] at goes
      split at goes <;> cases goes
      · refine .of_none (fits.early rfl) fun stage result member => ?_
        cases List.mem_singleton.mp member
        trivial
      · exact .of_none (fits.early rfl) fun _ _ member => by cases member
  | openMessages =>
      cases goes
      refine .of_none (fits.early rfl) fun stage result member => ?_
      cases List.mem_singleton.mp member
      simp [FitsStage, ConnectionManager.addRoom, ConnectionManager.client,
        internalRoom]
  | openPending =>
      cases goes
      refine .of_none (fits.early rfl) fun stage result member => ?_
      cases List.mem_singleton.mp member
      exact fits.stage
  | openToken =>
      simp only [flow] at goes
      split at goes <;> cases goes
      · exact connectRelay_advances sound (fits.early rfl) fits.stage
      · exact .of_none (fits.early rfl) fun _ _ member => by cases member
  | relayClosing room wait => exact fits.stage.elim
  | waitForRelay polls =>
      cases goes
      exact waitForRelay_advances outside polls result own

theorem register_advances (sound : manager.Sound tasks) (result : Nat)
    (own : ∀ ref, manager.Live tasks ref → manager.client = some ref)
    {start : ConnectionManager → Nat → ConnectionManager × List RoomTask}
    (starts : ∀ {manager : ConnectionManager} (promise),
      manager.Sound tasks →
      (∀ ref, manager.Live tasks ref → manager.client = some ref) →
        Advances tasks (start manager promise))
    (quiet : ∀ manager promise, Quiet manager (start manager promise))
    (idle : ∀ stage promise, .flow stage promise ∉
      (start manager.newPromise manager.promises.length).1.queued) :
    (∀ ref, (manager.register result start).1.Live tasks ref →
        (manager.register result start).1.client = some ref) ∧
      ∀ stage promise,
        .flow stage promise ∈ (manager.register result start).1.queued →
          (manager.register result start).1.Fits tasks stage := by
  have promised : Calm manager manager.newPromise := by
    refine Retreats.calm ?_ rfl
    apply Retreats.of_same <;> rfl
  have advances := starts manager.promises.length
    (sound.retreats promised.retreats) (own_calm sound own promised)
  have opensNone := (quiet manager.newPromise manager.promises.length).opensNone
  simp only [register, foldl_queue]
  generalize start manager.newPromise manager.promises.length = turn
    at advances opensNone idle
  have fewer : ∀ ref, ConnectionManager.Live { turn.1 with
      queued := turn.1.queued ++ turn.2
      openPromise := some manager.promises.length } tasks ref →
      turn.1.Live tasks ref := by
    intro ref live
    rcases live with socket | ⟨generation, client, pending, found, current⟩
    · exact .inl socket
    · refine .inr ⟨generation, client, ?_, found, current⟩
      have pending : (ref, generation) ∈
          openings (turn.1.queued ++ turn.2 ++ tasks) := pending
      rw [openings_append, openings_append, opensNone, List.append_nil,
        ← openings_append] at pending
      exact pending
  refine ⟨fun ref live => advances.client ref (fewer ref live), ?_⟩
  intro stage promise member
  rcases List.mem_append.mp member with queued | new
  · exact absurd queued (idle stage promise)
  · have fits := advances.fits stage promise new
    refine ⟨fun early ref live => fits.early early ref (fewer ref live), ?_⟩
    have kept := fits.stage
    cases stage <;> exact kept

/-! ## One flow -/

/-- What is connected or connecting is the room's client, and the flows find
what they left. -/
structure OneClient (manager : ConnectionManager) (tasks : List RoomTask) :
    Prop where
  client : ∀ ref, manager.Live tasks ref → manager.client = some ref
  fits : ∀ stage result, .flow stage result ∈ tasks →
    manager.Fits tasks stage

end ConnectionManager

open ConnectionManager

/-- What a guarded call does while there is an entry. -/
theorem Calls.Awaiting.guarded {outside : Surroundings} {task : RoomTask}
    {result : Nat} {manager : ConnectionManager}
    {turn : ConnectionManager × List RoomTask}
    (awaits : Calls.Awaiting task result)
    (guarded : manager.Guarded task outside)
    (runs : task.run outside manager = some turn) :
    manager.openPromise = none ∨ ∃ value, turn =
      (manager.settle result value, []) := by
  cases awaits with
  | openRoom =>
      simp only [RoomTask.run] at runs
      split at runs
      · cases runs
        exact .inr ⟨_, rfl⟩
      · rename_i held
        split at runs
        · cases runs
          exact .inr ⟨_, rfl⟩
        · rename_i unconnected
          rcases guarded with released | connected | free
          · exact absurd released held
          · exact absurd connected unconnected
          · exact .inl free
  | reconnectRoom =>
      simp only [RoomTask.run] at runs
      split at runs
      · cases runs
        exact .inr ⟨_, rfl⟩
      · rename_i held
        rcases guarded with released | free
        · exact absurd released held
        · exact .inl free

/-- A flow is started only while there is no other. -/
theorem Calls.Move.awaited {calls calls' : Calls} {task : RoomTask}
    {others started : List RoomTask} (moves : calls.Move task calls' started)
    (accounts : Accounts calls (serving [task] ++ others))
    (entry : ∀ promise, Awaited (serving [task] ++ others) promise →
      calls.openPromise = some promise)
    (free : ∀ result, Awaiting task result → started ≠ [] →
      calls.openPromise = none) (promise : Nat)
    (awaited : Awaited (started ++ others) promise) :
    calls'.openPromise = some promise := by
  have before : ∀ {promise}, Awaited others promise →
      calls.openPromise = some promise := fun awaited =>
    entry _ (awaited.mono fun _ => List.mem_append_right _)
  have waiting : (∀ result, .finish promise result ∉ started) →
      Awaited others promise := by
    intro others'
    obtain ⟨result, member⟩ := awaited
    rcases List.mem_append.mp member with new | old
    · exact absurd new (others' result)
    · exact ⟨result, old⟩
  have first : ∀ {result}, Awaiting task result → started ≠ [] →
      ¬ Awaited others promise := by
    intro result awaits starts waits
    have taken := before waits
    rw [free result awaits starts] at taken
    cases taken
  cases moves with
  | quiet serves => exact before (waiting (by simp))
  | call serves vacant awaits =>
      refine before (waiting fun result member => ?_)
      have same := List.mem_singleton.mp member
      subst same
      cases awaits
  | share serves taken =>
      refine before (waiting fun result member => ?_)
      cases List.mem_singleton.mp member
  | answer value awaits => exact before (waiting (by simp))
  | start awaits less =>
      by_contra other
      refine first awaits (by simp) (waiting fun result member => ?_)
      rcases List.mem_cons.mp member with same | member
      · cases same
        exact other rfl
      · cases List.mem_singleton.mp member
  | startEnds value awaits =>
      by_contra other
      refine first awaits (by simp) (waiting fun result member => ?_)
      cases List.mem_singleton.mp member
      exact other rfl
  | forward settled => exact before (waiting (by simp))
  | @finish ended result value settled =>
      exfalso
      have waits := waiting (by simp)
      obtain ⟨result', member⟩ := waits
      have same : calls.openPromise = some ended :=
        entry ended ⟨result, List.mem_cons_self⟩
      rw [before ⟨result', member⟩] at same
      obtain rfl := Option.some.inj same
      have equal := accounts.single promise result result' List.mem_cons_self
        (List.mem_cons_of_mem _ member)
      subst equal
      exact accounts.not_owed rfl (mem_owed member rfl)
  | ends value => exact before (waiting (by simp))
  | goesOn less =>
      refine before (waiting fun result member => ?_)
      cases List.mem_singleton.mp member
  | reopen vacant =>
      refine before (waiting fun result member => ?_)
      cases List.mem_singleton.mp member
  | wait taken =>
      refine before (waiting fun result member => ?_)
      cases List.mem_singleton.mp member

/-- The pools of runs whose steps are all guarded. -/
def GuardedReachable (pool : Pool ConnectionManager RoomTask) : Prop :=
  (connectionSystem.restrict
    (Program.OnRun ConnectionManager.Guarded)).Reachable pool

/-- Only the flow in `openPromises` is waited for. -/
theorem entry_of_awaited {pool : Pool ConnectionManager RoomTask}
    (reachable : GuardedReachable pool) {promise : Nat}
    (awaited : Awaited pool.acts promise) :
    pool.shared.openPromise = some promise := by
  refine (calls_invariant (fun calls tasks => Accounts calls tasks ∧
    ∀ promise, Awaited tasks promise → calls.openPromise = some promise)
    ?_ ⟨.nil, by simp [Awaited]⟩ ?_ reachable).2 promise
    (awaited_serving.mpr awaited)
  · rintro calls tasks others moved ⟨accounts, entry⟩
    refine ⟨accounts.of_perm moved, fun promise awaited => ?_⟩
    exact entry promise (awaited.mono fun _ => moved.mem_iff.mpr)
  · rintro manager task outside turn others ⟨accounts, entry⟩ idle guarded runs
      moves
    refine ⟨accounts.move moves, ?_⟩
    apply moves.awaited accounts entry
    intro result awaits starts
    rcases awaits.guarded guarded runs with free | ⟨value, rfl⟩
    · exact free
    · have servesNone : serving (manager.settle result value).queued = [] := by
        rw [show (manager.settle result value).queued = [] from idle]
        rfl
      exact absurd servesNone starts

namespace ConnectionManager

variable {manager : ConnectionManager} {task : RoomTask}
  {tasks others : List RoomTask} {outside : Surroundings}
  {turn : ConnectionManager × List RoomTask}

theorem Live.of_perm {ref : Nat} (live : manager.Live tasks ref)
    (moved : tasks.Perm others) : manager.Live others ref :=
  live.of_openings fun _ member => (openings_perm moved).mem_iff.mp member

theorem OneClient.of_perm (one : manager.OneClient tasks)
    (moved : tasks.Perm others) : manager.OneClient others :=
  ⟨fun ref live => one.client ref (live.of_perm moved.symm),
    fun stage result member =>
      have fits := one.fits stage result (moved.mem_iff.mpr member)
      ⟨fun early ref live => fits.early early ref (live.of_perm moved.symm),
        fits.stage⟩⟩

/-- A task that is no flow connects no client. -/
theorem Sound.subsides (sound : manager.Sound (task :: others))
    (guarded : manager.Guarded task outside)
    (runs : task.run outside manager = some turn)
    (other : ∀ stage result, task ≠ .flow stage result) :
    Subsides manager (task :: others) turn.1 (turn.2 ++ others) := by
  have fewer : ∀ entry, entry ∈ openings others →
      entry ∈ openings (task :: others) := fun entry member => by
    have split : openings (task :: others) =
        openings [task] ++ openings others := openings_append [task] others
    rw [split]
    exact List.mem_append_right _ member
  have kept : openings [task] = [] → manager.Sound others := by
    intro opensNone
    apply sound.of_openings
    have split : openings (task :: others) =
        openings [task] ++ openings others := openings_append [task] others
    rw [split, opensNone, List.nil_append]
  cases opens : task.opens with
  | false =>
      have opensNone : openings [task] = [] := by
        cases task <;> first | rfl | cases opens
      have kept := kept opensNone
      have subsides := (task.calm kept guarded runs opens).subsides kept
      refine subsides.of_openings fewer fun entry member => ?_
      rw [openings_append, (kept.quiet runs opens).opensNone] at member
      exact member
  | true =>
      cases task with
      | flow stage result => exact absurd rfl (other stage result)
      | openSocket client generation =>
          cases runs
          exact sound.openSocket_subsides
      | socketOpen ws =>
          obtain ⟨manager', opened, rfl⟩ := Option.map_eq_some_iff.mp runs
          exact ((kept rfl).onSocketOpen_subsides opened).of_openings fewer
            fun _ => id
      | _ => cases opens

theorem Fits.of_openings {stage : ConnectFlow}
    (fits : manager.Fits tasks stage)
    (same : ∀ entry, entry ∈ openings others → entry ∈ openings tasks) :
    manager.Fits others stage :=
  ⟨fun early ref live => fits.early early ref (live.of_openings same),
    fits.stage⟩

theorem Sound.rest (sound : manager.Sound (task :: others))
    (opensNone : openings [task] = []) : manager.Sound others := by
  apply sound.of_openings
  have split : openings (task :: others) = openings [task] ++ openings others :=
    openings_append [task] others
  rw [split, opensNone, List.nil_append]

theorem OneClient.own (one : manager.OneClient (task :: others)) (ref : Nat)
    (live : manager.Live others ref) : manager.client = some ref := by
  apply one.client
  apply live.of_openings
  intro entry member
  have split : openings (task :: others) = openings [task] ++ openings others :=
    openings_append [task] others
  rw [split]
  exact List.mem_append_right _ member

/-- The flow that a guarded call starts finds what it needs. -/
theorem OneClient.starts (one : manager.OneClient (task :: others))
    (sound : manager.Sound (task :: others)) (idle : manager.queued = [])
    {result : Nat} (awaits : Calls.Awaiting task result)
    (runs : task.run outside manager = some turn) {stage : ConnectFlow}
    {promise : Nat} (started : .flow stage promise ∈ turn.2 ++ turn.1.queued) :
    turn.1.Fits (turn.2 ++ others) stage := by
  have settled : ∀ value, turn = (manager.settle result value, []) →
      turn.1.Fits (turn.2 ++ others) stage := by
    rintro value rfl
    have none : .flow stage promise ∈ manager.queued := started
    rw [idle] at none
    cases none
  have registered : ∀ {middle : ConnectionManager}
      {start : ConnectionManager → Nat → ConnectionManager × List RoomTask},
      Calm manager middle → middle.queued = [] →
      (∀ {manager : ConnectionManager} (promise), manager.Sound others →
        (∀ ref, manager.Live others ref → manager.client = some ref) →
          Advances others (start manager promise)) →
      (∀ manager promise, Quiet manager (start manager promise)) →
      (∀ manager promise, FlowTurn manager promise task.left
        (start manager promise)) →
      turn = middle.register result start →
        turn.1.Fits (turn.2 ++ others) stage := by
    rintro middle start calm idle advances quiet turns rfl
    have opensNone : openings [task] = [] := by
      cases awaits <;> rfl
    have kept := sound.rest opensNone
    have fits := (register_advances (kept.retreats calm.retreats) result
      (own_calm kept one.own calm) advances quiet
      fun stage promise => (turns _ _).queuedNone idle).2 stage promise
    refine (fits ?_).of_openings fun _ => id
    rcases List.mem_append.mp started with finish | queued
    · cases List.mem_singleton.mp finish
    · exact queued
  rcases awaits.run_cases runs with ⟨value, same⟩ | ⟨rfl, same⟩ | ⟨rfl, same⟩
  · exact settled value same
  · exact registered ((Retreats.refl manager).calm rfl) idle
      (fun _ sound own => doOpenRoom_advances sound own)
      (fun manager promise => doOpenRoom_quiet manager outside promise)
      (fun manager promise => doOpenRoom_flowTurn manager outside promise) same
  · exact registered ((Retreats.resetReconnectState manager).calm (by simp))
      idle (fun _ sound own => doReconnectRoom_advances sound own)
      doReconnectRoom_quiet doReconnectRoom_flowTurn same

/-- At most one client is connected or connecting after every guarded step,
if that was so before and no other flow is running. -/
theorem OneClient.run (one : manager.OneClient (task :: others))
    (sound : manager.Sound (task :: others)) (idle : manager.queued = [])
    (guarded : manager.Guarded task outside)
    (runs : task.run outside manager = some turn)
    (alone : ∀ stage result, task = .flow stage result →
      ∀ stage' result', .flow stage' result' ∉ others) :
    (∀ ref, turn.1.Live (turn.2 ++ others) ref →
        turn.1.client = some ref) ∧
      ∀ stage result, .flow stage result ∈
        turn.2 ++ (turn.1.queued ++ others) →
          turn.1.Fits (turn.2 ++ others) stage := by
  by_cases flows : ∃ stage result, task = .flow stage result
  · obtain ⟨stage, result, rfl⟩ := flows
    have kept := sound.rest rfl
    have advances := flow_advances kept one.own
      ((one.fits stage result List.mem_cons_self).of_openings fun _ => id) runs
    have opensNone : openings turn.2 = [] := (flow_keepsSound runs).opensNone
    have same : ∀ entry, entry ∈ openings (turn.2 ++ others) →
        entry ∈ openings others := by
      intro entry member
      rw [openings_append, opensNone] at member
      exact member
    refine ⟨fun ref live => advances.client ref (live.of_openings same), ?_⟩
    intro stage' result' member
    rcases List.mem_append.mp member with new | later
    · exact (advances.fits stage' result' new).of_openings same
    · rcases List.mem_append.mp later with queued | old
      · rcases flow_turns runs with turns | ⟨-, -, rfl⟩
        · exact absurd queued (turns.queuedNone idle)
        · have none : .flow stage' result' ∈ manager.queued := by
            unfold ConnectionManager.openRoom enter at queued
            dsimp only [ConnectionManager.unsuppress] at queued
            split at queued <;> exact queued
          rw [idle] at none
          cases none
      · exact absurd old (alone stage result rfl stage' result')
  · have other : ∀ stage result, task ≠ .flow stage result :=
      fun stage result same => flows ⟨stage, result, same⟩
    have subsides := sound.subsides guarded runs other
    refine ⟨fun ref live => subsides.kept ref
      (one.client ref (subsides.live ref live)) live, ?_⟩
    intro stage result member
    rw [← List.append_assoc] at member
    rcases List.mem_append.mp member with started | old
    · rcases started_cases idle runs started with ⟨result', awaits⟩ |
        ⟨stage', result', same⟩
      · exact one.starts sound idle awaits runs started
      · exact absurd same (other stage' result')
    · exact (one.fits stage result
        (List.mem_cons_of_mem _ old)).subsides subsides

end ConnectionManager

/-- A connect flow with this promise is running. -/
def Running (pool : Pool ConnectionManager RoomTask) (promise : Nat) : Prop :=
  Awaited pool.acts promise ∧ pool.shared.settled? promise = none

def RoomTask.isFlow : RoomTask → Bool
  | .flow _ _ => true
  | _ => false

/-- At most one flow is running, every activation of a flow is a part of it,
and at most one client is connected or connecting. -/
structure OneFlow (pool : Pool ConnectionManager RoomTask) : Prop where
  running : ∀ promise promise', Running pool promise →
    Running pool promise' → promise = promise'
  flows : ∀ stage promise, .flow stage promise ∈ pool.acts →
    Running pool promise
  single : (pool.acts.filter RoomTask.isFlow).length ≤ 1
  clients : ∀ ref ref', pool.shared.Live pool.acts ref →
    pool.shared.Live pool.acts ref' → ref = ref'

/-- Flows that have one promise are one. -/
theorem flows_le_one {tasks : List RoomTask} (promise : Nat)
    (once : (owed tasks).Nodup)
    (same : ∀ stage result, .flow stage result ∈ tasks → result = promise) :
    (tasks.filter RoomTask.isFlow).length ≤ 1 := by
  have serves : ∀ task ∈ tasks.filter RoomTask.isFlow,
      task.result? = some promise := by
    intro task member
    obtain ⟨member, flow⟩ := List.mem_filter.mp member
    cases task with
    | flow stage result => rw [← same stage result member]; rfl
    | _ => cases flow
  have count : owed (tasks.filter RoomTask.isFlow) =
      List.replicate (tasks.filter RoomTask.isFlow).length promise := by
    unfold owed
    rw [List.filterMap_congr serves, ← List.map_const',
      ← List.filterMap_eq_map]
    rfl
  have few : (owed (tasks.filter RoomTask.isFlow)).Nodup :=
    once.sublist (List.filter_sublist.filterMap _)
  rw [count] at few
  exact List.nodup_replicate.mp few

theorem entry_of_flow {pool : Pool ConnectionManager RoomTask}
    (reachable : GuardedReachable pool) {stage : ConnectFlow} {promise : Nat}
    (member : .flow stage promise ∈ pool.acts) :
    pool.shared.openPromise = some promise := by
  have accounts := accounts_of_reachable (Lts.reachable_of_restrict reachable)
  have awaited := accounts.flows stage promise
    (mem_serving.mpr ⟨member, rfl⟩)
  exact entry_of_awaited reachable (awaited_serving.mp awaited)

theorem oneClient_of_reachable {pool : Pool ConnectionManager RoomTask}
    (reachable : GuardedReachable pool) :
    pool.shared.OneClient pool.acts := by
  refine Program.reachable_invariant ConnectionManager.OneClient
    (fun moved one => one.of_perm moved) ?_ ?_ ?_ reachable
  · rintro pool rfl
    refine ⟨fun ref live => ?_, fun stage result member => by cases member⟩
    rcases live with ⟨ws, socket, found, -⟩ | ⟨_, client, pending, -⟩
    · cases found
    · cases pending
  · intro manager tasks task entry one
    have opensNone : openings [task] = [] := by
      cases task <;> first | rfl | cases entry
    have fewer : ∀ waiting, waiting ∈ openings (task :: tasks) →
        waiting ∈ openings tasks := by
      intro waiting member
      have split : openings (task :: tasks) =
          openings [task] ++ openings tasks := openings_append [task] tasks
      rw [split, opensNone] at member
      exact member
    refine ⟨fun ref live => one.client ref (live.of_openings fewer), ?_⟩
    intro stage result member
    rcases List.mem_cons.mp member with same | old
    · subst same
      cases entry
    · have fits := one.fits stage result old
      exact ⟨fun early ref live =>
        fits.early early ref (live.of_openings fewer), fits.stage⟩
  · intro pool manager' task tasks others outside reached moved one next guarded
    obtain ⟨turn, runs, same⟩ := Option.map_eq_some_iff.mp next
    obtain ⟨rfl, rfl⟩ := Prod.mk.inj same
    have unguarded := Lts.reachable_of_restrict reached
    obtain ⟨sound, idle⟩ := sound_of_reachable unguarded
    have sound := sound.of_openings (openings_perm moved)
    have accounts := accounts_of_reachable unguarded
    have alone : ∀ stage result, task = .flow stage result →
        ∀ stage' result', .flow stage' result' ∉ others := by
      rintro stage result rfl stage' result' member
      have entry := entry_of_flow reached
        (moved.mem_iff.mpr List.mem_cons_self)
      rw [entry_of_flow reached
        (moved.mem_iff.mpr (List.mem_cons_of_mem _ member))] at entry
      obtain rfl := Option.some.inj entry
      have accounts : Accounts pool.shared.calls
          (.flow stage result' :: serving others) :=
        accounts.of_perm (serving_perm moved)
      exact accounts.not_owed rfl
        (mem_owed (mem_serving.mpr ⟨member, rfl⟩) rfl)
    have forks : connectionManager.forks outside task pool.shared =
        turn.1.queued := by
      simp [connectionManager, RoomTask.forks, runs]
    obtain ⟨client, fits⟩ := one.run sound idle guarded runs alone
    rw [forks]
    have fewer : ∀ ref, ConnectionManager.Live { turn.1 with queued := [] }
        (turn.2 ++ (turn.1.queued ++ others)) ref →
        turn.1.Live (turn.2 ++ others) ref := by
      intro ref live
      rcases live with socket | ⟨generation, client, pending, found, current⟩
      · exact .inl socket
      · refine .inr ⟨generation, client, ?_, found, current⟩
        have pending : (ref, generation) ∈
            openings ([] ++ (turn.2 ++ (turn.1.queued ++ others))) := pending
        simp only [openings_append, List.nil_append,
          List.mem_append] at pending ⊢
        rcases pending with new | queued | old
        · exact .inr (.inl new)
        · exact .inl queued
        · exact .inr (.inr old)
    refine ⟨fun ref live => client ref (fewer ref live), ?_⟩
    intro stage result member
    have kept := fits stage result member
    refine ⟨fun early ref live => kept.early early ref (fewer ref live), ?_⟩
    have fitted := kept.stage
    cases stage <;> exact fitted

/-- One flow runs at a time, and one client is connected or connecting, in
every run whose steps are guarded. -/
theorem one_flow {pool : Pool ConnectionManager RoomTask}
    (reachable : GuardedReachable pool) : OneFlow pool := by
  have accounts := accounts_of_reachable (Lts.reachable_of_restrict reachable)
  have one := oneClient_of_reachable reachable
  constructor
  · intro promise promise' runs runs'
    have entry := entry_of_awaited reachable runs.1
    rw [entry_of_awaited reachable runs'.1] at entry
    exact (Option.some.inj entry).symm
  · intro stage promise member
    have serves := mem_serving.mpr ⟨member, rfl⟩
    refine ⟨awaited_serving.mp (accounts.flows stage promise serves), ?_⟩
    have unsettled := (accounts.owed promise).mp (mem_owed serves rfl)
    have unsettled : pool.shared.promises[promise]? = some none := unsettled
    simp [settled?, unsettled]
  · have once := accounts.once
    rw [owed_serving] at once
    cases entry : pool.shared.openPromise with
    | none =>
        refine flows_le_one 0 once ?_
        intro stage result member
        rw [entry_of_flow reachable member] at entry
        cases entry
    | some promise =>
        refine flows_le_one promise once ?_
        intro stage result member
        rw [entry_of_flow reachable member] at entry
        exact Option.some.inj entry
  · intro ref ref' live live'
    have client := one.client ref live
    rw [one.client ref' live'] at client
    exact (Option.some.inj client).symm

/-- Two calls that both read the room's record before either has started its
flow. -/
private def twoCalls : List (Program.Move RoomTask Surroundings) :=
  [.spawn .callOpenRoom, .spawn .callOpenRoom, .run 0 untroubled,
    .run 1 untroubled, .run 0 untroubled, .run 1 untroubled,
    .run 2 untroubled, .run 2 untroubled, .run 2 untroubled,
    .run 2 untroubled, .run 3 untroubled, .run 3 untroubled,
    .run 3 untroubled, .run 3 untroubled, .run 4 untroubled,
    .run 5 untroubled, .spawn (.socketOpen 0), .spawn (.socketOpen 1),
    .run 6 untroubled, .run 7 untroubled]

/-- Both calls start a flow, and the clients of both are connected. -/
theorem two_flows_connected :
    ∃ pool : Pool ConnectionManager RoomTask,
      connectionSystem.Reachable pool ∧ Running pool 2 ∧ Running pool 3 ∧
        pool.shared.clientConnected 0 = true ∧
        pool.shared.clientConnected 1 = true ∧ ¬ OneFlow pool := by
  obtain ⟨trace, pool, played, threads, promises, first, second⟩ :
      ∃ trace pool, connectionManager.play ⟨.blank, []⟩ twoCalls =
          some (trace, pool) ∧
        pool.threads = [[.finish 2 0], [.finish 3 1],
          [.flow (.waitForRelay 1) 2], [.flow (.waitForRelay 1) 3], [], [],
          [], []] ∧
        pool.shared.promises = [none, none, none, none] ∧
        pool.shared.clientConnected 0 = true ∧
        pool.shared.clientConnected 1 = true :=
    ⟨_, _, rfl, rfl, rfl, rfl, rfl⟩
  have running : Running pool 2 ∧ Running pool 3 := by
    simp [Running, Awaited, Pool.acts, threads, settled?, promises]
  refine ⟨pool, played_reachable (by decide) played, running.1, running.2,
    first, second, ?_⟩
  intro one
  have same := one.running 2 3 running.1 running.2
  cases same

/-- One call is made after the other, and shares its flow. -/
private def oneAfterOther : List (Program.Move RoomTask Surroundings) :=
  [.spawn .callOpenRoom, .run 0 untroubled, .run 0 untroubled,
    .spawn .callOpenRoom, .run 2 untroubled, .run 1 untroubled,
    .run 1 untroubled, .run 1 untroubled, .run 1 untroubled,
    .run 3 untroubled, .spawn (.socketOpen 0), .run 4 untroubled]

theorem one_flow_shared :
    ∃ pool : Pool ConnectionManager RoomTask,
      Running pool 1 ∧ .forward 1 2 ∈ pool.acts ∧
        pool.shared.clientConnected 0 = true ∧ OneFlow pool := by
  obtain ⟨trace, pool, played, threads, promises, connected, steps⟩ :
      ∃ trace pool, connectionManager.play ⟨.blank, []⟩ oneAfterOther =
          some (trace, pool) ∧
        pool.threads = [[.finish 1 0], [.flow (.waitForRelay 1) 1],
          [.forward 1 2], [], []] ∧
        pool.shared.promises = [none, none, none] ∧
        pool.shared.clientConnected 0 = true ∧
        trace.map (fun entry => (entry.1.shared.openPromise, entry.2)) =
          [(none, .spawn .callOpenRoom),
            (none, .run .callOpenRoom untroubled),
            (none, .run (.openRoom 0) untroubled),
            (some 1, .spawn .callOpenRoom),
            (some 1, .run .callOpenRoom untroubled),
            (some 1, .run (.flow .openRecord 1) untroubled),
            (some 1, .run (.flow .openMessages 1) untroubled),
            (some 1, .run (.flow .openPending 1) untroubled),
            (some 1, .run (.flow .openToken 1) untroubled),
            (some 1, .run (.openSocket 0 1) untroubled),
            (some 1, .spawn (.socketOpen 0)),
            (some 1, .run (.socketOpen 0) untroubled)] :=
    ⟨_, _, rfl, rfl, rfl, rfl, rfl⟩
  have guarded : GuardedReachable pool := by
    obtain ⟨start, initial, run⟩ : ∃ start, start = ⟨.blank, []⟩ ∧
        connectionSystem.Run start trace pool := by
      refine ⟨_, rfl, Program.play_run ?_ played⟩
      intro task member
      simp only [oneAfterOther, List.mem_cons, List.not_mem_nil, or_false,
        reduceCtorEq, false_or, or_false, Program.Move.spawn.injEq] at member
      rcases member with rfl | rfl | rfl <;> rfl
    refine ⟨start, trace, initial, Lts.run_restrict_iff.mpr ⟨run, ?_⟩⟩
    rintro ⟨before, label⟩ member
    have listed := List.mem_map_of_mem
      (f := fun entry => (entry.1.shared.openPromise, entry.2)) member
    rw [steps] at listed
    simp only [List.mem_cons, Prod.mk.injEq, List.not_mem_nil, or_false]
      at listed
    rcases listed with ⟨-, rfl⟩ | ⟨-, rfl⟩ | ⟨free, rfl⟩ | ⟨-, rfl⟩ |
      ⟨-, rfl⟩ | ⟨-, rfl⟩ | ⟨-, rfl⟩ | ⟨-, rfl⟩ | ⟨-, rfl⟩ | ⟨-, rfl⟩ |
      ⟨-, rfl⟩ | ⟨-, rfl⟩
    · trivial
    · trivial
    · exact .inr (.inr free)
    all_goals trivial
  refine ⟨pool, ?_, ?_, connected, one_flow guarded⟩
  · simp [Running, Awaited, Pool.acts, threads, settled?, promises]
  · simp [Pool.acts, threads]

end Byteln.Client

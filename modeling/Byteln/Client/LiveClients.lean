import Byteln.Client.CallAccounts

/-!
# Clients that are connected or connecting

A step that only closes things connects no client.  It takes the client from
the room only when it has closed it, unless the seat is given up for another
client.
-/

namespace Byteln.Client

open Byteln.Library

namespace ConnectionManager

/-- The client is connected or connecting. -/
def Live (manager : ConnectionManager) (tasks : List RoomTask) (ref : Nat) :
    Prop :=
  (∃ (ws : Nat) (socket : Socket), manager.sockets[ws]? = some socket ∧
      socket.client = ref ∧ socket.readyState.live = true) ∨
    ∃ (generation : Nat) (client : RelayClient),
      (ref, generation) ∈ openings (manager.queued ++ tasks) ∧
        manager.relayClients[ref]? = some client ∧
        client.connectGeneration = generation

variable {manager before middle after : ConnectionManager} {ref : Nat}
  {tasks others : List RoomTask}

theorem Live.of_openings (live : manager.Live tasks ref)
    (same : ∀ entry, entry ∈ openings tasks → entry ∈ openings others) :
    manager.Live others ref := by
  rcases live with socket | ⟨generation, client, pending, found, current⟩
  · exact .inl socket
  · refine .inr ⟨generation, client, ?_, found, current⟩
    rw [openings_append, List.mem_append] at pending ⊢
    exact pending.imp_right (same _)

/-- What only closes things connects no client. -/
theorem Live.retreats (live : after.Live tasks ref)
    (sound : before.Sound tasks) (retreats : Retreats before after) :
    before.Live tasks ref := by
  rcases live with ⟨ws, socket', found', owner, live⟩ |
    ⟨generation, client', pending, found', current⟩
  · obtain ⟨socket, found⟩ := getElem?_of_length retreats.socketsLength found'
    have kept := retreats.sockets ws socket socket' found found'
    exact .inl ⟨ws, socket, found, kept.client.symm.trans owner,
      kept.state live ▸ live⟩
  · obtain ⟨client, found⟩ := getElem?_of_length retreats.clientsLength found'
    obtain ⟨queued, same, opensNone, -⟩ := retreats.queued
    rw [same, List.append_assoc, openings_append, openings_append, opensNone,
      List.nil_append, ← openings_append] at pending
    obtain ⟨⟨client'', known, le⟩, -⟩ :=
      sound.opening ref generation pending
    obtain rfl := Option.some.inj (found.symm.trans known)
    have grows := (retreats.clients ref client client' found found').generation
    exact .inr ⟨generation, client, pending, found, by omega⟩

/-- The client was closed. -/
structure Shut (before after : ConnectionManager) (ref : Nat) : Prop where
  sockets : ∀ (ws : Nat) socket, after.sockets[ws]? = some socket →
    socket.client = ref → socket.readyState.live = false
  generation : ∀ client client', before.relayClients[ref]? = some client →
    after.relayClients[ref]? = some client' →
      client.connectGeneration < client'.connectGeneration

theorem Shut.not_live (shut : Shut before after ref)
    (sound : before.Sound tasks) (retreats : Retreats before after) :
    ¬ after.Live tasks ref := by
  rintro (⟨ws, socket, found, owner, live⟩ |
    ⟨generation, client', pending, found', current⟩)
  · rw [shut.sockets ws socket found owner] at live
    cases live
  · obtain ⟨client, found⟩ := getElem?_of_length retreats.clientsLength found'
    obtain ⟨queued, same, opensNone, -⟩ := retreats.queued
    rw [same, List.append_assoc, openings_append, openings_append, opensNone,
      List.nil_append, ← openings_append] at pending
    obtain ⟨⟨client'', known, le⟩, -⟩ :=
      sound.opening ref generation pending
    obtain rfl := Option.some.inj (found.symm.trans known)
    have grows := shut.generation client client' found found'
    omega

theorem Shut.later (shut : Shut before middle ref)
    (retreats : Retreats middle after) : Shut before after ref := by
  constructor
  · intro ws socket' found' owner
    obtain ⟨socket, found⟩ := getElem?_of_length retreats.socketsLength found'
    have kept := retreats.sockets ws socket socket' found found'
    by_contra live
    have live := Bool.eq_true_of_not_eq_false live
    have dead := shut.sockets ws socket found (kept.client ▸ owner)
    rw [← kept.state live, live] at dead
    cases dead
  · intro client client'' found found''
    obtain ⟨client', found'⟩ := getElem?_of_length retreats.clientsLength found''
    exact (shut.generation client client' found found').trans_le
      (retreats.clients ref client' client'' found' found'').generation

theorem Shut.since (shut : Shut middle after ref)
    (retreats : Retreats before middle) : Shut before after ref := by
  refine ⟨shut.sockets, ?_⟩
  intro client client'' found found''
  obtain ⟨client', found'⟩ :=
    getElem?_of_length retreats.clientsLength.symm found
  exact (retreats.clients ref client client' found found').generation.trans_lt
    (shut.generation client' client'' found' found'')

/-- A client whose own socket is closed, and whose generation has grown. -/
theorem Sound.shut (sound : before.Sound tasks)
    (retreats : Retreats before after)
    (own : ∀ client ws, before.relayClients[ref]? = some client →
      client.ws = some ws → ¬ after.LiveSocket ws)
    (generation : ∀ client client', before.relayClients[ref]? = some client →
      after.relayClients[ref]? = some client' →
        client.connectGeneration < client'.connectGeneration) :
    Shut before after ref := by
  refine ⟨?_, generation⟩
  intro ws socket found owner
  by_contra live
  have live := Bool.eq_true_of_not_eq_false live
  obtain ⟨socket', found', live'⟩ := retreats.live ⟨socket, found, live⟩
  obtain ⟨client, known, owns⟩ := sound.live ws socket' found' live'
  have same := (retreats.sockets ws socket' socket found' found).client
  rw [← same, owner] at known
  exact own client ws known owns ⟨socket, found, live⟩

theorem Sound.closeClient_shut (sound : manager.Sound tasks) (ref : Nat) :
    Shut manager (manager.closeClient ref) ref := by
  refine sound.shut (.closeClient manager ref) ?_ ?_
  · intro client ws found owns
    have closed : (manager.closeClient ref).sockets =
        (manager.closeSocket ws).sockets := by
      simp [closeClient, found, owns, ConnectionManager.modifyClient]
    rintro ⟨socket, present, live⟩
    rw [closed] at present
    exact not_live_closeSocket manager ws ⟨socket, present, live⟩
  · intro client client' found found'
    unfold closeClient at found'
    dsimp only at found'
    split at found' <;>
      · simp only [closeSocket, ConnectionManager.modifySocket,
          ConnectionManager.modifyClient, List.getElem?_modify_eq,
          found, Option.map_eq_map, Option.map_some, Option.some.injEq]
          at found'
        subst found'
        exact Nat.lt_succ_self _

theorem Sound.closeAndWait_shut (sound : manager.Sound tasks) (ref : Nat) :
    Shut manager (manager.closeAndWait ref) ref := by
  refine sound.shut (.closeAndWait manager ref) ?_ ?_
  · intro client ws found owns
    unfold closeAndWait
    simp only [ConnectionManager.modifyClient, List.getElem?_modify_eq, found,
      Option.map_eq_map, Option.map_some, Option.bind_some, owns]
    split
    · rename_i noLive
      rintro ⟨socket, present, live⟩
      have present : manager.sockets[ws]? = some socket := present
      rw [Option.filter_some, present] at noLive
      cases state : socket.readyState <;> simp_all [ReadyState.live]
    · rename_i ws' hasLive
      have same : ws = ws' :=
        Option.some.inj (Option.filter_eq_some_iff.mp hasLive).1
      subst same
      exact not_live_closeSocket _ ws
  · intro client client' found found'
    unfold closeAndWait at found'
    dsimp only at found'
    split at found' <;>
      · simp only [closeSocket, ConnectionManager.modifySocket, queue,
          ConnectionManager.modifyClient, List.getElem?_modify_eq,
          found, Option.map_eq_map, Option.map_some, Option.some.injEq]
          at found'
        subst found'
        exact Nat.lt_succ_self _

/-! ## The client of the room -/

section Client

variable (manager)

@[simp] theorem client_stopHeartbeat :
    manager.stopHeartbeat.client = manager.client := rfl

@[simp] theorem client_startHeartbeat :
    manager.startHeartbeat.client = manager.client := rfl

@[simp] theorem client_cancelManagedReconnect :
    manager.cancelManagedReconnect.client = manager.client := rfl

@[simp] theorem client_settle (promise : Nat) (value : Bool) :
    (manager.settle promise value).client = manager.client := rfl

@[simp] theorem client_newPromise :
    manager.newPromise.client = manager.client := rfl

@[simp] theorem client_resetReconnectState :
    manager.resetReconnectState.client = manager.client :=
  client_modifyRuntime _ _

@[simp] theorem client_scheduleManagedReconnect :
    manager.scheduleManagedReconnect.client = manager.client := by
  unfold scheduleManagedReconnect
  split
  · rfl
  · split
    · rfl
    · dsimp only
      split
      · exact client_modifyRuntime _ _
      · exact client_modifyRuntime manager.cancelManagedReconnect
          (reconnecting (manager.reconnectAttempts.getD 0))

@[simp] theorem client_handleDisconnect :
    manager.handleDisconnectForReconnect.client = manager.client := by
  unfold handleDisconnectForReconnect
  split
  · rfl
  · split
    · rfl
    · exact client_scheduleManagedReconnect manager

@[simp] theorem client_showStatus (s : ConnState) (detail : JSString) :
    (manager.showStatus s detail).client = manager.client := by
  unfold showStatus
  split
  · simp
  · split <;> simp

@[simp] theorem client_losePeer : manager.losePeer.client = manager.client := by
  unfold losePeer
  split
  · rfl
  · simp

@[simp] theorem client_closeClient (ref : Nat) :
    (manager.closeClient ref).client = manager.client := by
  rw [closeClient_eq]
  rfl

@[simp] theorem client_closeAndWait (ref : Nat) :
    (manager.closeAndWait ref).client = manager.client := by
  unfold closeAndWait
  dsimp only
  split <;> rfl

@[simp] theorem client_finishWait (ref : Nat) :
    (manager.finishWait ref).client = manager.client := by
  unfold finishWait
  split <;> rfl

@[simp] theorem client_finishWaits (ws : Nat) :
    (manager.finishWaits ws).client = manager.client := by
  apply finishWaits_rule (P := fun next => next.client = manager.client)
  · intro next ref wait before _ _
    exact (client_finishWait next ref).trans before
  · rfl

@[simp] theorem client_onControl (msg : Control) :
    (manager.onControl msg).client = manager.client := by
  unfold onControl
  split
  · rfl
  · cases msg with
    | pong => rfl
    | slot => rfl
    | peerJoin => simp
    | peerLeave => simp

@[simp] theorem client_onBinary :
    manager.onBinary.client = manager.client := by
  unfold onBinary
  split
  · rfl
  · split
    · rfl
    · simp

/-- Only a full bucket takes the client from the room. -/
theorem client_notify (ref : Nat) {s : ConnState} {detail : JSString}
    (kept : s = .closed → detail ≠ BUCKET_FULL) :
    (manager.notify ref s detail).client = manager.client := by
  unfold ConnectionManager.notify
  split
  · rfl
  · split
    · unfold onStatus
      dsimp only
      split
      · rfl
      · split
        · rename_i closed
          rw [if_neg (kept closed)]
          simp
        · split <;> simp
    · rfl

end Client

/-! ## Calm steps -/

/-- Nothing is opened, and the room loses its client only if it was closed. -/
structure Calm (before after : ConnectionManager) : Prop where
  retreats : Retreats before after
  client : ∀ ref, before.client = some ref →
    after.client = some ref ∨ Shut before after ref

theorem Retreats.calm (retreats : Retreats before after)
    (client : after.client = before.client) : Calm before after :=
  ⟨retreats, fun _ has => .inl (client.trans has)⟩

theorem Calm.trans (first : Calm before middle) (second : Calm middle after) :
    Calm before after := by
  refine ⟨first.retreats.trans second.retreats, ?_⟩
  intro ref has
  rcases first.client ref has with kept | shut
  · exact (second.client ref kept).imp_right fun shut =>
      shut.since first.retreats
  · exact .inr (shut.later second.retreats)

theorem Sound.closeRoomConnection_calm (sound : manager.Sound tasks) :
    Calm manager manager.closeRoomConnection := by
  refine ⟨.closeRoomConnection manager, ?_⟩
  intro ref has
  have quiet := (Retreats.cancelManagedReconnect manager).trans
    (.stopHeartbeat _)
  have stopped := sound.retreats quiet
  have closes := (stopped.closeClient_shut ref).since quiet
  unfold closeRoomConnection
  cases opened : manager.room with
  | none => simp [ConnectionManager.client, internalRoom, opened] at has
  | some room =>
      dsimp only
      have present :
          manager.cancelManagedReconnect.stopHeartbeat.client = some ref := has
      rw [present]
      exact .inr ⟨closes.sockets, closes.generation⟩

/-- The seat is given up by the client of the room, if there is one. -/
theorem Sound.giveUpSeat_calm (sound : manager.Sound tasks) (ref : Nat)
    (own : ∀ client, manager.client = some client → client = ref) :
    Calm manager (manager.giveUpSeat ref) := by
  refine ⟨.giveUpSeat manager ref, ?_⟩
  intro client has
  obtain rfl := own client has
  have marked := (Retreats.modifyRuntime manager fun runtime =>
    { runtime with bucketFull := true }).trans (.cancelManagedReconnect _)
  have closes := ((sound.retreats marked).closeClient_shut client).since marked
  right
  unfold giveUpSeat
  dsimp only
  split
  · exact closes
  · exact ⟨closes.sockets, closes.generation⟩

/-- A report that a client's connection has ended. -/
theorem Sound.notify_calm (sound : manager.Sound tasks) (ref : Nat)
    (detail : JSString)
    (own : detail = BUCKET_FULL → ∀ client, manager.client = some client →
      client = ref) :
    Calm manager (manager.notify ref .closed detail) := by
  by_cases full : detail = BUCKET_FULL
  · unfold ConnectionManager.notify
    split
    · exact (Retreats.refl manager).calm rfl
    · split
      · unfold onStatus
        dsimp only
        split
        · exact (Retreats.refl manager).calm rfl
        · rw [if_pos rfl]
          have shown := Retreats.showStatus manager .closed detail
          have gives := (sound.retreats shown).giveUpSeat_calm ref
            fun client has => own full client (by simpa using has)
          exact ((shown.calm (by simp)).trans gives).trans
            ((Retreats.losePeer _).calm (by simp))
      · exact (Retreats.refl manager).calm rfl
  · exact (Retreats.notify manager ref .closed detail).calm
      (client_notify manager ref fun _ => full)

/-- The close of a socket takes its own client from the room at most. -/
theorem Sound.onSocketClose_calm (sound : manager.Sound tasks) {ws code : Nat}
    (own : code = 4001 → ∀ client, manager.client = some client →
      ∀ socket, manager.sockets[ws]? = some socket → client = socket.client)
    (handled : manager.onSocketClose ws code = some after) :
    Calm manager after := by
  unfold ConnectionManager.onSocketClose at handled
  split at handled
  · rename_i ref state found
    obtain rfl := Option.some.inj handled
    have dropped := sound.closedSocket found
    have told := (dropped.calm rfl).trans
      ((sound.retreats dropped).notify_calm ref (closeDetail code)
        fun full client has => by
          have code : code = 4001 := by
            by_contra other
            exact closeDetail_ne other full
          exact own code client has _ found)
    have kept := sound.retreats told.retreats
    have retried := kept.noClientReconnect ref code
    refine (told.trans (retried.calm rfl)).trans ?_
    exact ((kept.retreats retried).finishWaits ws).calm (by simp)
  · cases handled

/-! ## What a step may assume -/

/-- A flow is started only while `openPromises` has no entry, and only the
room's own client, if it has one, gives up the seat. -/
def Guarded (manager : ConnectionManager) (task : RoomTask)
    (outside : Surroundings) : Prop :=
  match task with
  | .openRoom _ =>
      outside.seatReleased = true ∨ manager.connected = true ∨
        manager.openPromise = none
  | .reconnectRoom _ =>
      outside.seatReleased = true ∨ manager.openPromise = none
  | .socketClose ws code =>
      code = 4001 → ∀ client, manager.client = some client →
        ∀ socket, manager.sockets[ws]? = some socket → client = socket.client
  | _ => True

section Client

theorem client_call (manager : ConnectionManager)
    {enters : ConnectionManager → Nat → ConnectionManager × List RoomTask}
    (following : Nat → List RoomTask) {awaiting : Nat → RoomTask}
    (enter : ∀ manager result, enters manager result =
      ConnectionManager.enter manager result (awaiting result)) :
    (manager.call enters following).1.client = manager.client := by
  simp only [ConnectionManager.call, enter, ConnectionManager.enter]
  split <;> rfl

variable (manager)

@[simp] theorem client_callOpen (following : Nat → List RoomTask) :
    (manager.call ConnectionManager.openRoom following).1.client =
      manager.client :=
  client_call manager following fun _ _ => rfl

@[simp] theorem client_callReconnect (following : Nat → List RoomTask) :
    (manager.call ConnectionManager.reconnectRoom following).1.client =
      manager.client :=
  client_call manager following fun _ _ => rfl

@[simp] theorem client_forceStaleReconnect :
    manager.forceStaleReconnect.1.client = manager.client := by
  unfold forceStaleReconnect
  split
  · rfl
  · split
    · rfl
    · simp

@[simp] theorem client_sendHeartbeatPing :
    manager.sendHeartbeatPing.1.client = manager.client := by
  unfold sendHeartbeatPing
  split
  · rfl
  · split
    · simp
    · rfl

@[simp] theorem client_closeThen (closing : Nat → RoomTask)
    (following : RoomTask) :
    (manager.closeThen closing following).1.client = manager.client := by
  unfold closeThen
  split
  · simp
  · rfl

@[simp] theorem client_connectExisting (room result : Nat) :
    (manager.connectExisting room result).1.client = manager.client := by
  unfold connectExisting
  dsimp only
  split <;> simp <;> rfl

@[simp] theorem client_connectRoom (result : Nat) :
    (manager.connectRoom result).1.client = manager.client := by
  unfold connectRoom
  split
  · rfl
  · split
    · rfl
    · simp

@[simp] theorem client_doOpenRoom (outside : Surroundings) (result : Nat) :
    (manager.doOpenRoom outside result).1.client = manager.client := by
  unfold doOpenRoom
  split
  · split
    · rfl
    · simp
  · split
    · rfl
    · split <;> rfl

@[simp] theorem client_doReconnectRoom (result : Nat) :
    (manager.doReconnectRoom result).1.client = manager.client := by
  unfold doReconnectRoom
  dsimp only
  split
  · rfl
  · split <;> simp <;> rfl

theorem client_register (result : Nat)
    {start : ConnectionManager → Nat → ConnectionManager × List RoomTask}
    (starts : ∀ manager promise,
      (start manager promise).1.client = manager.client) :
    (manager.register result start).1.client = manager.client := by
  simp only [register, foldl_queue]
  exact starts manager.newPromise manager.promises.length

end Client

end ConnectionManager

open ConnectionManager

/-- The client of a room stays or was closed. -/
theorem RoomTask.calm {outside : Surroundings} {task : RoomTask}
    {manager : ConnectionManager} {tasks : List RoomTask}
    {turn : ConnectionManager × List RoomTask} (sound : manager.Sound tasks)
    (guarded : manager.Guarded task outside)
    (runs : task.run outside manager = some turn)
    (closes : task.opens = false) : Calm manager turn.1 := by
  have retreats := (sound.quiet runs closes).retreats
  cases task with
  | flow stage result => cases closes
  | openSocket client generation => cases closes
  | socketOpen ws => cases closes
  | connectWithPin =>
      simp only [RoomTask.run] at runs
      split at runs <;> cases runs
      · exact sound.closeRoomConnection_calm
      · exact retreats.calm rfl
  | socketClose ws code =>
      obtain ⟨manager', closed, rfl⟩ := Option.map_eq_some_iff.mp runs
      exact sound.onSocketClose_calm guarded closed
  | closeRoom =>
      cases runs
      refine sound.closeRoomConnection_calm.trans (Retreats.calm ?_ rfl)
      apply Retreats.of_same <;> rfl
  | releaseSeatPause =>
      cases runs
      exact sound.closeRoomConnection_calm
  | lockPause =>
      cases runs
      have marked := Retreats.modifyRuntime manager fun runtime =>
        { runtime with bucketFull := false }
      exact (marked.calm (by simp)).trans
        (sound.retreats marked).closeRoomConnection_calm
  | callOpenRoom =>
      cases runs
      exact retreats.calm (by simp)
  | callReconnectRoom =>
      cases runs
      exact retreats.calm (by simp)
  | openRoom result =>
      apply retreats.calm
      simp only [RoomTask.run] at runs
      split at runs
      · cases runs
        rfl
      · split at runs <;> cases runs
        · rfl
        · exact client_register manager result fun _ _ => by simp
  | reconnectRoom result =>
      apply retreats.calm
      simp only [RoomTask.run] at runs
      split at runs <;> cases runs
      · rfl
      · rw [client_register _ result client_doReconnectRoom]
        simp
  | forward inflight result =>
      obtain ⟨ok, -, rfl⟩ := Option.map_eq_some_iff.mp runs
      exact retreats.calm rfl
  | finish promise result =>
      obtain ⟨ok, -, rfl⟩ := Option.map_eq_some_iff.mp runs
      exact retreats.calm rfl
  | seatReclaimed =>
      cases runs
      exact retreats.calm (by simp)
  | closeTimeout wait =>
      cases runs
      exact retreats.calm (by simp)
  | socketError ws =>
      obtain ⟨manager', failed, rfl⟩ := Option.map_eq_some_iff.mp runs
      apply retreats.calm
      unfold ConnectionManager.onSocketError at failed
      split at failed
      · rename_i ref state found
        obtain rfl := Option.some.inj failed
        exact client_notify _ ref fun closed => by cases closed
      · cases failed
  | socketControl ws msg =>
      obtain ⟨manager', handled, rfl⟩ := Option.map_eq_some_iff.mp runs
      apply retreats.calm
      unfold ConnectionManager.onSocketMessage at handled
      split at handled
      · split at handled <;> cases handled
        · rfl
        · split <;> simp
      · cases handled
  | socketBinary ws =>
      obtain ⟨manager', handled, rfl⟩ := Option.map_eq_some_iff.mp runs
      apply retreats.calm
      unfold ConnectionManager.onSocketMessage at handled
      split at handled
      · split at handled <;> cases handled
        · rfl
        · split <;> simp
      · cases handled
  | clientReconnectTimer ref =>
      simp only [RoomTask.run] at runs
      split at runs
      · cases runs
      · rename_i client found
        have passive := sound.passive ref client found
        simp [passive.2] at runs
  | managedReconnect =>
      apply retreats.calm
      simp only [RoomTask.run] at runs
      split at runs
      · cases runs
      · split at runs <;> cases runs
        · rfl
        · rw [client_callReconnect]
          rfl
  | afterManagedReconnect call =>
      obtain ⟨ok, -, rfl⟩ := Option.map_eq_some_iff.mp runs
      apply retreats.calm
      split
      · rfl
      · split
        · rfl
        · simp
  | heartbeatTick =>
      apply retreats.calm
      simp only [RoomTask.run] at runs
      split at runs
      · cases runs
        rfl
      · split at runs <;> cases runs
        · rfl
        · simp
  | heartbeatTimeout =>
      apply retreats.calm
      simp only [RoomTask.run] at runs
      split at runs <;> cases runs
      rw [client_forceStaleReconnect]
      rfl
  | afterStaleReconnect call =>
      obtain ⟨ok, -, rfl⟩ := Option.map_eq_some_iff.mp runs
      apply retreats.calm
      split
      · rfl
      · split
        · rfl
        · simp
  | ensureAllConnected =>
      apply retreats.calm
      simp only [RoomTask.run] at runs
      split at runs
      · cases runs
        rfl
      · split at runs
        · cases runs
          rfl
        · split at runs
          · cases runs
            simp
          · split at runs <;> cases runs
            · simp
            · rfl
  | offline =>
      cases runs
      exact retreats.calm (by simp)
  | releaseSeat =>
      cases runs
      apply retreats.calm
      rw [client_closeThen]
      rfl
  | releaseSeatClosing wait =>
      simp only [RoomTask.run] at runs
      split at runs <;> cases runs
      exact retreats.calm rfl
  | releaseSeatRecord =>
      cases runs
      exact retreats.calm rfl
  | lock =>
      cases runs
      apply retreats.calm
      rw [client_closeThen]
      rfl
  | lockClosing wait =>
      simp only [RoomTask.run] at runs
      split at runs <;> cases runs
      exact retreats.calm rfl
  | restoreAll =>
      cases runs
      exact retreats.calm rfl
  | messagesChanged fromPeer =>
      cases runs
      exact retreats.calm rfl

end Byteln.Client

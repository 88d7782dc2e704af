import Byteln.Client.ConnectionSound

/-!
# Events of superseded sockets

The handlers of a client act on whatever room is open under its bucket id.
An event of a socket whose client is no longer the room's therefore changes
what is shown of the room, its heartbeat and its reconnecting, unless these
are already as the event says.
-/

namespace Byteln.Client

open Byteln.Library

/-- The socket whose event a task handles. -/
def RoomTask.socket? : RoomTask → Option Nat
  | .socketOpen ws | .socketError ws | .socketClose ws _ => some ws
  | .socketControl ws _ | .socketBinary ws => some ws
  | _ => none

namespace ConnectionManager

/-- The room has another client by now, or the client of the socket has opened
a newer one. -/
def Superseded (manager : ConnectionManager) (ws : Nat) : Prop :=
  ∃ socket, manager.sockets[ws]? = some socket ∧
    ((∃ client, manager.client = some client ∧ client ≠ socket.client) ∨
      ∃ (ws' : Nat) (socket' : Socket), ws < ws' ∧
        manager.sockets[ws']? = some socket' ∧
        socket'.client = socket.client)

/-- The room is shown as before, its heartbeat goes on, and no reconnect is
scheduled. -/
structure Untouched (before after : ConnectionManager) : Prop where
  connState : after.runtime.map RoomRuntime.connState =
    before.runtime.map RoomRuntime.connState
  peerPresent : after.runtime.map RoomRuntime.peerPresent =
    before.runtime.map RoomRuntime.peerPresent
  connected : after.connected = before.connected
  heartbeat : ∀ handle, before.heartbeatTimer = some handle →
    after.heartbeatTimer = some handle
  reconnect : ∀ timer, after.reconnectTimer = some timer →
    before.reconnectTimer = some timer

/-- The runtime that a client's handlers act on. -/
def heardBy (manager : ConnectionManager) (ref : Nat) : Option RoomRuntime :=
  match manager.relayClients[ref]? with
  | none => none
  | some client => if client.wired then manager.runtime else none

/-- The runtime that the handlers of a socket's client act on. -/
def heard (manager : ConnectionManager) (ws : Nat) : Option RoomRuntime :=
  (manager.sockets[ws]?).bind fun socket => manager.heardBy socket.client

/-- No heartbeat runs, and the peer is not shown as present, unless it is
known from its messages. -/
def AtRest (manager : ConnectionManager) (runtime : RoomRuntime) : Prop :=
  manager.heartbeatTimer = none ∧
    (manager.peerMessages = true ∨ runtime.peerPresent = false)

/-- Nothing is scheduled when the connection ends. -/
def Resigned (manager : ConnectionManager) (runtime : RoomRuntime) : Prop :=
  manager.suppressReconnect = true ∨ manager.appLocked = true ∨
    runtime.bucketFull = true ∨ runtime.reconnectStalled = true

/-- The room already is as the event says. -/
def Agrees (manager : ConnectionManager) (runtime : RoomRuntime) :
    RoomTask → Prop
  | .socketOpen _ =>
      runtime.connState = .open ∧ manager.heartbeatTimer = none
  | .socketError _ => runtime.connState = .error ∧ manager.AtRest runtime
  | .socketClose _ code =>
      manager.AtRest runtime ∧
        if code = 4001 then
          runtime.connState = .closed ∧ manager.connected = false
        else
          (manager.Resigned runtime ∧ runtime.connState = .closed) ∨
            ¬ manager.Resigned runtime ∧ runtime.connState = .error ∧
              MAX_RECONNECT_ATTEMPTS ≤ manager.reconnectAttempts.getD 0
  | .socketControl _ .peerJoin => runtime.peerPresent = true
  | .socketControl _ .peerLeave => runtime.peerPresent = false
  | .socketBinary _ =>
      runtime.bucketFull = true ∨ runtime.peerPresent = true
  | _ => True

variable {manager before after : ConnectionManager} {tasks : List RoomTask}
  {runtime : RoomRuntime}

/-! ## What is shown -/

@[simp] theorem runtime_modifyRuntime (manager : ConnectionManager)
    (change : RoomRuntime → RoomRuntime) :
    (manager.modifyRuntime change).runtime = manager.runtime.map change := by
  unfold ConnectionManager.runtime internalRoom modifyRuntime
  cases opened : manager.room with
  | none => simp
  | some ref =>
      cases found : manager.internalRooms[ref]? <;> simp [found]

theorem connected_congr (client : after.client = before.client)
    (relayClients : after.relayClients = before.relayClients)
    (sockets : after.sockets = before.sockets) :
    after.connected = before.connected := by
  unfold connected
  rw [client]
  split
  · rfl
  · unfold clientConnected
    rw [relayClients, sockets]

@[simp] theorem connected_modifyRuntime (manager : ConnectionManager)
    (change : RoomRuntime → RoomRuntime) :
    (manager.modifyRuntime change).connected = manager.connected :=
  connected_congr (client_modifyRuntime manager change) rfl rfl

@[simp] theorem runtime_startHeartbeat (manager : ConnectionManager) :
    manager.startHeartbeat.runtime = manager.runtime := rfl

@[simp] theorem connected_startHeartbeat (manager : ConnectionManager) :
    manager.startHeartbeat.connected = manager.connected := rfl

@[simp] theorem runtime_stopHeartbeat (manager : ConnectionManager) :
    manager.stopHeartbeat.runtime = manager.runtime := rfl

@[simp] theorem connected_stopHeartbeat (manager : ConnectionManager) :
    manager.stopHeartbeat.connected = manager.connected := rfl

@[simp] theorem runtime_resetReconnectState (manager : ConnectionManager) :
    manager.resetReconnectState.runtime = manager.runtime.map fun runtime =>
      { runtime with reconnectAttempt := 0, reconnectStalled := false } :=
  runtime_modifyRuntime _ _

@[simp] theorem connected_resetReconnectState (manager : ConnectionManager) :
    manager.resetReconnectState.connected = manager.connected :=
  connected_modifyRuntime _ _

theorem room_of_runtime (shown : manager.runtime = some runtime) :
    manager.room ≠ none := by
  intro closed
  simp [ConnectionManager.runtime, internalRoom, closed] at shown

theorem Sound.room_none (sound : manager.Sound tasks)
    (hidden : manager.runtime = none) : manager.room = none := by
  cases opened : manager.room with
  | none => rfl
  | some ref =>
      have inside := sound.room ref opened
      simp [ConnectionManager.runtime, internalRoom, opened] at hidden
      omega

theorem Untouched.refl (manager : ConnectionManager) :
    Untouched manager manager :=
  ⟨rfl, rfl, rfl, fun _ => id, fun _ => id⟩

/-- What is untouched depends on what is shown and on the timers only. -/
theorem untouched_congr {before' after' : ConnectionManager}
    (first : Untouched before before' ∧ Untouched before' before)
    (last : Untouched after after' ∧ Untouched after' after) :
    Untouched before after ↔ Untouched before' after' := by
  have trans : ∀ {a b c : ConnectionManager}, Untouched a b → Untouched b c →
      Untouched a c := fun early late =>
    ⟨late.connState.trans early.connState,
      late.peerPresent.trans early.peerPresent,
      late.connected.trans early.connected,
      fun handle runs => late.heartbeat handle (early.heartbeat handle runs),
      fun timer runs => early.reconnect timer (late.reconnect timer runs)⟩
  constructor
  · intro untouched
    exact trans first.2 (trans untouched last.1)
  · intro untouched
    exact trans first.1 (trans untouched last.2)

/-- The same is shown, and the same timers run. -/
theorem untouched_of_same (runtime : after.runtime = before.runtime)
    (connected : after.connected = before.connected)
    (heartbeatTimer : after.heartbeatTimer = before.heartbeatTimer)
    (reconnectTimer : after.reconnectTimer = before.reconnectTimer) :
    Untouched before after ∧ Untouched after before := by
  constructor
  · exact ⟨by rw [runtime], by rw [runtime], connected,
      fun _ runs => heartbeatTimer.trans runs,
      fun _ runs => reconnectTimer ▸ runs⟩
  · exact ⟨by rw [runtime], by rw [runtime], connected.symm,
      fun _ runs => heartbeatTimer ▸ runs,
      fun _ runs => reconnectTimer.trans runs⟩

/-! ## Reports of a status -/

theorem untouched_open (sound : manager.Sound tasks) (ref : Nat)
    (shown : manager.runtime = some runtime) :
    Untouched manager (manager.onStatus ref .open []) ↔
      runtime.connState = .open ∧ manager.heartbeatTimer = none := by
  have opens : manager.onStatus ref .open [] =
      (manager.resetReconnectState.modifyRuntime fun runtime =>
        { runtime with
          connState := .open, connDetail := [] }).startHeartbeat := by
    simp [onStatus, room_of_runtime shown, showStatus]
  rw [opens]
  constructor
  · intro untouched
    constructor
    · have state := untouched.connState
      simp only [runtime_startHeartbeat, runtime_modifyRuntime,
        runtime_resetReconnectState, shown, Option.map_some,
        Option.some.injEq] at state
      exact state.symm
    · cases beats : manager.heartbeatTimer with
      | none => rfl
      | some handle =>
          have replaced : some manager.handles = some handle :=
            untouched.heartbeat handle beats
          have older := sound.heartbeat handle beats
          simp only [Option.some.injEq] at replaced
          omega
  · rintro ⟨state, silent⟩
    refine ⟨by simp [shown, state], by simp [shown], by simp, ?_, ?_⟩
    · intro handle runs
      rw [silent] at runs
      cases runs
    · intro timer runs
      cases runs

@[simp] theorem runtime_losePeer (manager : ConnectionManager) :
    manager.losePeer.runtime = manager.runtime.map fun runtime =>
      { runtime with
        peerPresent := runtime.peerPresent && manager.peerMessages } := by
  unfold losePeer
  cases known : manager.peerMessages with
  | true => cases shown : manager.runtime <;> simp [shown]
  | false => simp

@[simp] theorem connected_losePeer (manager : ConnectionManager) :
    manager.losePeer.connected = manager.connected := by
  unfold losePeer
  split
  · rfl
  · exact connected_modifyRuntime _ _

/-- The parts of the manager that neither a status nor the peer's leaving
changes, besides the heartbeat. -/
theorem losePeer_eq (manager : ConnectionManager) :
    manager.losePeer = { manager with
      internalRooms := manager.losePeer.internalRooms } := by
  unfold losePeer
  split <;> rfl

/-- The report of the end of a connection, up to the reconnecting. -/
def ended (manager : ConnectionManager) (s : ConnState) (detail : JSString) :
    ConnectionManager :=
  (manager.modifyRuntime fun runtime =>
    { runtime with connState := s, connDetail := detail }).stopHeartbeat

theorem runtime_ended {s : ConnState} {detail : JSString}
    (shown : manager.runtime = some runtime) :
    (manager.ended s detail).losePeer.runtime =
      some { runtime with
        connState := s, connDetail := detail
        peerPresent := runtime.peerPresent && manager.peerMessages } := by
  have messages : (manager.ended s detail).peerMessages =
    manager.peerMessages := rfl
  rw [runtime_losePeer, messages]
  simp [ended, shown]

@[simp] theorem connected_ended (s : ConnState) (detail : JSString) :
    (manager.ended s detail).connected = manager.connected :=
  (connected_stopHeartbeat _).trans (connected_modifyRuntime _ _)

theorem timers_ended (manager : ConnectionManager) (s : ConnState)
    (detail : JSString) :
    (manager.ended s detail).losePeer.heartbeatTimer = none ∧
      (manager.ended s detail).losePeer.reconnectTimer =
        manager.reconnectTimer := by
  rw [losePeer_eq]
  exact ⟨rfl, rfl⟩

/-- A report that ends the heartbeat and forgets a peer without messages. -/
theorem untouched_report {s : ConnState}
    (shown : manager.runtime = some runtime)
    (state : after.runtime.map RoomRuntime.connState = some s)
    (present : after.runtime.map RoomRuntime.peerPresent =
      some (runtime.peerPresent && manager.peerMessages))
    (connected : after.connected = manager.connected)
    (silent : after.heartbeatTimer = none)
    (timer : ∀ timer, after.reconnectTimer = some timer →
      manager.reconnectTimer = some timer) :
    Untouched manager after ↔
      runtime.connState = s ∧ manager.AtRest runtime := by
  constructor
  · intro untouched
    have state' := untouched.connState
    have present' := untouched.peerPresent
    rw [state, shown] at state'
    rw [present, shown] at present'
    refine ⟨(Option.some.inj state').symm, ?_, ?_⟩
    · cases beats : manager.heartbeatTimer with
      | none => rfl
      | some handle =>
          have stopped := untouched.heartbeat handle beats
          rw [silent] at stopped
          cases stopped
    · have kept : (runtime.peerPresent && manager.peerMessages) =
          runtime.peerPresent := Option.some.inj present'
      revert kept
      cases manager.peerMessages <;> cases runtime.peerPresent <;> simp
  · rintro ⟨state', quiet, peer⟩
    refine ⟨?_, ?_, connected, ?_, timer⟩
    · rw [state, shown]
      simp [state']
    · rw [present, shown]
      rcases peer with known | absent
      · simp [known]
      · simp [absent]
    · intro handle runs
      rw [quiet] at runs
      cases runs

theorem untouched_ended {s : ConnState} {detail : JSString}
    (shown : manager.runtime = some runtime) :
    Untouched manager (manager.ended s detail).losePeer ↔
      runtime.connState = s ∧ manager.AtRest runtime := by
  have after : (manager.ended s detail).losePeer.runtime = _ :=
    runtime_ended shown
  obtain ⟨silent, timer⟩ := timers_ended manager s detail
  apply untouched_report shown (by simp [after]) (by simp [after]) (by simp)
    silent
  intro scheduled runs
  exact timer ▸ runs

theorem untouched_error (ref : Nat) (detail : JSString)
    (shown : manager.runtime = some runtime) :
    Untouched manager (manager.onStatus ref .error detail) ↔
      runtime.connState = .error ∧ manager.AtRest runtime := by
  have reports : manager.onStatus ref .error detail =
      (manager.ended .error detail).losePeer := by
    simp [onStatus, room_of_runtime shown, showStatus, ended]
  rw [reports]
  exact untouched_ended shown

theorem handleDisconnect_of_resigned (shown : manager.runtime = some runtime)
    (resigned : manager.Resigned runtime) :
    manager.handleDisconnectForReconnect = manager := by
  unfold handleDisconnectForReconnect scheduleManagedReconnect
  simp only [shown]
  rcases resigned with held | held | held | held <;> simp [held]

/-- What is scheduled when the connection ends. -/
theorem handleDisconnect_eq (shown : manager.runtime = some runtime)
    (resigned : ¬ manager.Resigned runtime) :
    manager.handleDisconnectForReconnect =
      if MAX_RECONNECT_ATTEMPTS ≤ manager.reconnectAttempts.getD 0 then
        manager.cancelManagedReconnect.markReconnectStalled
      else
        { manager.cancelManagedReconnect.modifyRuntime
            (reconnecting (manager.reconnectAttempts.getD 0)) with
          reconnectTimer := some
            ⟨manager.handles, manager.reconnectAttempts.getD 0⟩
          handles := manager.handles + 1 } := by
  simp only [Resigned, not_or, Bool.not_eq_true] at resigned
  obtain ⟨active, unlocked, free, trying⟩ := resigned
  unfold handleDisconnectForReconnect scheduleManagedReconnect
  simp [shown, active, unlocked, free, trying, cancelManagedReconnect]

@[simp] theorem connected_cancelManagedReconnect
    (manager : ConnectionManager) :
    manager.cancelManagedReconnect.connected = manager.connected := rfl

@[simp] theorem runtime_cancelManagedReconnect (manager : ConnectionManager) :
    manager.cancelManagedReconnect.runtime = manager.runtime := rfl

theorem untouched_closed (sound : manager.Sound tasks) (ref : Nat)
    {detail : JSString} (other : detail ≠ BUCKET_FULL)
    (shown : manager.runtime = some runtime) :
    Untouched manager (manager.onStatus ref .closed detail) ↔
      manager.AtRest runtime ∧
        ((manager.Resigned runtime ∧ runtime.connState = .closed) ∨
          ¬ manager.Resigned runtime ∧ runtime.connState = .error ∧
            MAX_RECONNECT_ATTEMPTS ≤ manager.reconnectAttempts.getD 0) := by
  have reports : manager.onStatus ref .closed detail =
      (manager.ended .closed detail).losePeer.handleDisconnectForReconnect := by
    simp [onStatus, room_of_runtime shown, showStatus, ended, other]
  have after : (manager.ended .closed detail).losePeer.runtime = _ :=
    runtime_ended shown
  have flags : (manager.ended .closed detail).losePeer.suppressReconnect =
        manager.suppressReconnect ∧
      (manager.ended .closed detail).losePeer.appLocked =
        manager.appLocked ∧
      (manager.ended .closed detail).losePeer.reconnectAttempts =
        manager.reconnectAttempts ∧
      (manager.ended .closed detail).losePeer.handles = manager.handles := by
    rw [losePeer_eq]
    exact ⟨rfl, rfl, rfl, rfl⟩
  obtain ⟨suppress, locked, attempts, handles⟩ := flags
  rw [reports]
  by_cases resigned : manager.Resigned runtime
  · rw [handleDisconnect_of_resigned after
      (by simpa [Resigned, suppress, locked] using resigned),
      untouched_ended shown]
    simp [resigned, and_comm]
  · rw [handleDisconnect_eq after
      (by simpa [Resigned, suppress, locked] using resigned), attempts]
    obtain ⟨silent, timer⟩ := timers_ended manager .closed detail
    split
    · rename_i exhausted
      have marked : Untouched manager
          (manager.ended .closed
            detail).losePeer.cancelManagedReconnect.markReconnectStalled ↔
          runtime.connState = .error ∧ manager.AtRest runtime := by
        apply untouched_report shown
        · simp [markReconnectStalled, after]
        · simp [markReconnectStalled, after]
        · simp [markReconnectStalled]
        · exact silent
        · intro scheduled runs
          cases runs
      rw [marked]
      simp [resigned, exhausted, and_comm]
    · rename_i left
      constructor
      · intro untouched
        have scheduled := sound.reconnect _ (untouched.reconnect _ rfl)
        rw [handles] at scheduled
        exact absurd scheduled (Nat.lt_irrefl _)
      · rintro ⟨-, ⟨gone, -⟩ | ⟨-, -, exhausted⟩⟩
        · exact absurd gone resigned
        · exact absurd exhausted left

theorem giveUpSeat_eq (manager : ConnectionManager) (ref : Nat) :
    (manager.giveUpSeat ref).runtime = manager.runtime.map (fun runtime =>
        { runtime with bucketFull := true }) ∧
      (manager.giveUpSeat ref).client = none ∧
      (manager.giveUpSeat ref).heartbeatTimer = manager.heartbeatTimer ∧
      (manager.giveUpSeat ref).reconnectTimer = none ∧
      (manager.giveUpSeat ref).peerMessages = manager.peerMessages := by
  have marked := runtime_modifyRuntime manager fun runtime =>
    { runtime with bucketFull := true }
  have closed := closeClient_eq (manager.modifyRuntime fun runtime =>
    { runtime with bucketFull := true }).cancelManagedReconnect ref
  unfold giveUpSeat
  dsimp only
  split
  · rename_i noRoom
    have noRoom' : manager.room = none := by
      rw [closed] at noRoom
      exact noRoom
    rw [closed]
    refine ⟨?_, ?_, rfl, rfl, rfl⟩
    · exact marked
    · simp [client, internalRoom, noRoom', cancelManagedReconnect,
        modifyRuntime]
  · rename_i room opened
    have opened' : manager.room = some room := by
      rw [closed] at opened
      exact opened
    rw [closed]
    refine ⟨?_, ?_, rfl, rfl, rfl⟩
    · rw [← marked]
      unfold ConnectionManager.runtime internalRoom
      simp only [setClient, modifyRoom, cancelManagedReconnect, modifyRuntime,
        opened', Option.bind_some, List.getElem?_modify_eq,
        Option.map_eq_map, Option.map_map]
      rfl
    · simp only [client, internalRoom, setClient, modifyRoom,
        cancelManagedReconnect, modifyRuntime, opened', Option.bind_some,
        List.getElem?_modify_eq, Option.map_eq_map]
      cases manager.internalRooms[room]? <;> rfl

theorem untouched_full (ref : Nat) (shown : manager.runtime = some runtime) :
    Untouched manager (manager.onStatus ref .closed BUCKET_FULL) ↔
      manager.AtRest runtime ∧
        runtime.connState = .closed ∧ manager.connected = false := by
  have reports : manager.onStatus ref .closed BUCKET_FULL =
      ((manager.ended .closed BUCKET_FULL).giveUpSeat ref).losePeer := by
    simp [onStatus, room_of_runtime shown, showStatus, ended]
  obtain ⟨after, noClient, silent, timer, messages⟩ :=
    giveUpSeat_eq (manager.ended .closed BUCKET_FULL) ref
  have ended : (manager.ended .closed BUCKET_FULL).runtime =
      some { runtime with
        connState := .closed, connDetail := BUCKET_FULL } := by
    simp [ended, shown]
  rw [ended] at after
  have disconnected : ((manager.ended .closed
      BUCKET_FULL).giveUpSeat ref).losePeer.connected = false := by
    rw [connected_losePeer]
    simp [connected, noClient]
  have kept : (manager.ended .closed BUCKET_FULL).peerMessages =
      manager.peerMessages := rfl
  rw [reports]
  by_cases live : manager.connected = false
  · have report : Untouched manager
        ((manager.ended .closed BUCKET_FULL).giveUpSeat ref).losePeer ↔
          runtime.connState = .closed ∧ manager.AtRest runtime := by
      apply untouched_report shown
      · simp [after]
      · simp [after, messages, kept]
      · rw [disconnected, live]
      · rw [losePeer_eq]
        exact silent
      · intro scheduled runs
        rw [losePeer_eq] at runs
        rw [timer] at runs
        cases runs
    rw [report]
    simp [live, and_comm]
  · constructor
    · intro untouched
      exact absurd (untouched.connected.symm.trans disconnected) live
    · rintro ⟨-, -, gone⟩
      exact absurd gone live

/-! ## Steps beside the room's client -/

/-- A step on one client, its socket and the waits for it. -/
structure Beside (ref : Nat) (before after : ConnectionManager) : Prop where
  room : after.room = before.room
  internalRooms : after.internalRooms = before.internalRooms
  heartbeatTimer : after.heartbeatTimer = before.heartbeatTimer
  reconnectTimer : after.reconnectTimer = before.reconnectTimer
  reconnectAttempts : after.reconnectAttempts = before.reconnectAttempts
  suppressReconnect : after.suppressReconnect = before.suppressReconnect
  appLocked : after.appLocked = before.appLocked
  peerMessages : after.peerMessages = before.peerMessages
  clients : ∀ other : Nat, other ≠ ref →
    after.relayClients[other]? = before.relayClients[other]?
  wired : (after.relayClients[ref]?).map RelayClient.wired =
    (before.relayClients[ref]?).map RelayClient.wired
  sockets : ∀ (ws : Nat) socket, before.sockets[ws]? = some socket →
    socket.client ≠ ref → after.sockets[ws]? = some socket

theorem Beside.refl (ref : Nat) (manager : ConnectionManager) :
    Beside ref manager manager :=
  ⟨rfl, rfl, rfl, rfl, rfl, rfl, rfl, rfl, fun _ _ => rfl, rfl,
    fun _ _ found _ => found⟩

theorem Beside.trans {ref : Nat} {middle : ConnectionManager}
    (first : Beside ref before middle) (second : Beside ref middle after) :
    Beside ref before after where
  room := second.room.trans first.room
  internalRooms := second.internalRooms.trans first.internalRooms
  heartbeatTimer := second.heartbeatTimer.trans first.heartbeatTimer
  reconnectTimer := second.reconnectTimer.trans first.reconnectTimer
  reconnectAttempts := second.reconnectAttempts.trans first.reconnectAttempts
  suppressReconnect := second.suppressReconnect.trans first.suppressReconnect
  appLocked := second.appLocked.trans first.appLocked
  peerMessages := second.peerMessages.trans first.peerMessages
  clients other different :=
    (second.clients other different).trans (first.clients other different)
  wired := second.wired.trans first.wired
  sockets ws socket found different :=
    second.sockets ws socket (first.sockets ws socket found different)
      different

theorem Beside.modifySocket {ws ref : Nat} {socket : Socket}
    (found : manager.sockets[ws]? = some socket) (owner : socket.client = ref)
    (change : Socket → Socket) :
    Beside ref manager (manager.modifySocket ws change) := by
  refine { Beside.refl ref manager with sockets := ?_ }
  intro other socket' found' different
  have apart : ws ≠ other := by
    rintro rfl
    obtain rfl := Option.some.inj (found.symm.trans found')
    exact different owner
  simpa [ConnectionManager.modifySocket, apart] using found'

theorem Beside.modifyClient (manager : ConnectionManager) (ref : Nat)
    {change : RelayClient → RelayClient}
    (wired : ∀ client, (change client).wired = client.wired) :
    Beside ref manager (manager.modifyClient ref change) := by
  refine { Beside.refl ref manager with clients := ?_, wired := ?_ }
  · intro other different
    simp [ConnectionManager.modifyClient, different.symm]
  · cases found : manager.relayClients[ref]? <;>
      simp [ConnectionManager.modifyClient, found, wired]

theorem Beside.shown {ref : Nat} (beside : Beside ref before after) :
    after.runtime = before.runtime := by
  unfold ConnectionManager.runtime internalRoom
  rw [beside.room, beside.internalRooms]

theorem Beside.client {ref : Nat} (beside : Beside ref before after) :
    after.client = before.client := by
  unfold ConnectionManager.client internalRoom
  rw [beside.room, beside.internalRooms]

theorem Beside.heardBy {ref : Nat} (beside : Beside ref before after) :
    after.heardBy ref = before.heardBy ref := by
  have wired := beside.wired
  unfold ConnectionManager.heardBy
  rw [beside.shown]
  cases found : after.relayClients[ref]? <;>
    cases found' : before.relayClients[ref]? <;>
    simp_all

/-- The room's client is another one. -/
theorem Beside.connected {ref : Nat} (beside : Beside ref before after)
    (sound : before.Sound tasks) (other : before.client ≠ some ref) :
    after.connected = before.connected := by
  unfold ConnectionManager.connected
  rw [beside.client]
  split
  · rfl
  · rename_i client isClient
    have different : client ≠ ref := by
      rintro rfl
      exact other isClient
    unfold clientConnected
    rw [beside.clients client different]
    split
    · rfl
    · rename_i object found
      split
      · rfl
      · rename_i ws owns
        obtain ⟨socket, present, owner⟩ :=
          sound.owned client object ws found owns
        rw [present, beside.sockets ws socket present (owner ▸ different)]

theorem Beside.untouched {ref : Nat} (beside : Beside ref before after)
    (sound : before.Sound tasks) (other : before.client ≠ some ref) :
    Untouched before after ∧ Untouched after before :=
  untouched_of_same beside.shown (beside.connected sound other)
    beside.heartbeatTimer beside.reconnectTimer

theorem Beside.agrees {ref : Nat} (beside : Beside ref before after)
    (sound : before.Sound tasks) (other : before.client ≠ some ref)
    (task : RoomTask) :
    after.Agrees runtime task ↔ before.Agrees runtime task := by
  cases task <;>
    simp only [Agrees, AtRest, Resigned, beside.heartbeatTimer,
      beside.peerMessages, beside.suppressReconnect, beside.appLocked,
      beside.reconnectAttempts, beside.connected sound other]

theorem Sound.finishWait_beside (sound : manager.Sound tasks) {ref ws : Nat}
    {socket : Socket} (found : manager.sockets[ws]? = some socket)
    (owner : socket.client = ref) {wait : Nat} {known : CloseWait}
    (waits : manager.closeWaits[wait]? = some known)
    (about : known.ws = some ws) :
    Beside ref manager (manager.finishWait wait) := by
  obtain ⟨-, socket', found', owner'⟩ := sound.waits wait known ws waits about
  obtain rfl := Option.some.inj (found.symm.trans found')
  have same : known.client = ref := owner'.symm.trans owner
  unfold ConnectionManager.finishWait
  split
  · rename_i client ws' present
    obtain rfl := Option.some.inj (waits.symm.trans present)
    obtain rfl : client = ref := same
    have settled : Beside client manager { manager with
        closeWaits := manager.closeWaits.modify wait fun wait =>
          { wait with settled := true } } :=
      { Beside.refl client manager with }
    exact settled.trans (.modifyClient _ client fun _ => rfl)
  · exact .refl ref manager

theorem Sound.finishWaits_beside (sound : manager.Sound tasks) {ref ws : Nat}
    {socket : Socket} (found : manager.sockets[ws]? = some socket)
    (owner : socket.client = ref) :
    Beside ref manager (manager.finishWaits ws) := by
  suffices both : Beside ref manager (manager.finishWaits ws) ∧
      Retreats manager (manager.finishWaits ws) from both.1
  apply finishWaits_rule
    (P := fun next => Beside ref manager next ∧ Retreats manager next)
  · intro next wait known before present about
    obtain ⟨socket', found'⟩ :=
      getElem?_of_length before.2.socketsLength.symm found
    have owner' := (before.2.sockets ws socket socket' found found').client
    have still := sound.retreats before.2
    exact ⟨before.1.trans
        (still.finishWait_beside found' (owner'.trans owner) present about),
      before.2.trans (still.finishWait wait)⟩
  · exact ⟨.refl ref manager, .refl manager⟩

/-! ## Events -/

theorem notify_unheard (sound : manager.Sound tasks) {ref : Nat}
    (unheard : manager.heardBy ref = none) (s : ConnState)
    (detail : JSString) : manager.notify ref s detail = manager := by
  unfold ConnectionManager.notify
  unfold heardBy at unheard
  split
  · rfl
  · rename_i client found
    rw [found] at unheard
    dsimp only at unheard
    split
    · rename_i wired
      rw [if_pos wired] at unheard
      simp [onStatus, sound.room_none unheard]
    · rfl

theorem notify_heard {ref : Nat} (heard : manager.heardBy ref = some runtime)
    (s : ConnState) (detail : JSString) :
    manager.notify ref s detail = manager.onStatus ref s detail ∧
      manager.runtime = some runtime := by
  unfold ConnectionManager.notify
  unfold heardBy at heard
  split
  · rename_i noClient
    rw [noClient] at heard
    cases heard
  · rename_i client found
    rw [found] at heard
    dsimp only at heard
    split
    · rename_i wired
      rw [if_pos wired] at heard
      exact ⟨rfl, heard⟩
    · rename_i notWired
      rw [if_neg notWired] at heard
      cases heard

/-- The handler of a status changes nothing just where the room already is as
the status says. -/
theorem untouched_notify (sound : manager.Sound tasks) {ref : Nat}
    {s : ConnState} {detail : JSString} {agrees : RoomRuntime → Prop}
    (reports : ∀ runtime, manager.runtime = some runtime →
      (Untouched manager (manager.onStatus ref s detail) ↔ agrees runtime)) :
    Untouched manager (manager.notify ref s detail) ↔
      ∀ runtime, manager.heardBy ref = some runtime → agrees runtime := by
  cases heard : manager.heardBy ref with
  | none =>
      rw [notify_unheard sound heard]
      simp [Untouched.refl]
  | some runtime =>
      obtain ⟨same, shown⟩ := notify_heard heard s detail
      rw [same, reports runtime shown]
      simp

/-- The client of a superseded socket is not the room's. -/
theorem Superseded.client {ws : Nat} {socket : Socket}
    (superseded : manager.Superseded ws) (sound : manager.Sound tasks)
    (found : manager.sockets[ws]? = some socket) :
    manager.client ≠ some socket.client := by
  obtain ⟨socket', found', replaced⟩ := superseded
  obtain rfl := Option.some.inj (found.symm.trans found')
  rcases replaced with ⟨client, isClient, other⟩ | ⟨ws', socket', newer,
    present, same⟩
  · rw [isClient]
    exact fun equal => other (Option.some.inj equal)
  · exact absurd (sound.single ws ws' socket socket' found present same.symm)
      (Nat.ne_of_lt newer)

theorem heard_eq {ws : Nat} {socket : Socket}
    (found : manager.sockets[ws]? = some socket) :
    manager.heard ws = manager.heardBy socket.client := by
  simp [heard, found]

theorem untouched_message {ws : Nat}
    {handle : ConnectionManager → ConnectionManager}
    {agrees : RoomRuntime → Prop}
    (idle : manager.runtime = none → handle manager = manager)
    (handles : ∀ runtime, manager.runtime = some runtime →
      (Untouched manager (handle manager) ↔ agrees runtime))
    (handled : manager.onSocketMessage ws handle = some after) :
    Untouched manager after ↔
      ∀ runtime, manager.heard ws = some runtime → agrees runtime := by
  unfold onSocketMessage at handled
  split at handled
  · rename_i ref seen found
    rw [heard_eq found]
    split at handled
    · rename_i noClient
      obtain rfl := Option.some.inj handled
      simp [ConnectionManager.heardBy, noClient, Untouched.refl]
    · rename_i client present
      obtain rfl := Option.some.inj handled
      rw [ConnectionManager.heardBy, present]
      dsimp only
      split
      · cases shown : manager.runtime with
        | none =>
            rw [idle shown]
            simp [Untouched.refl]
        | some runtime =>
            rw [handles runtime shown]
            simp
      · simp [Untouched.refl]
  · cases handled

/-- The peer is shown as present or as absent, and nothing else changes. -/
theorem untouched_presence (present : Bool)
    (shown : manager.runtime = some runtime) :
    Untouched manager (manager.modifyRuntime fun runtime =>
      { runtime with peerPresent := present }) ↔
        runtime.peerPresent = present := by
  constructor
  · intro untouched
    have same := untouched.peerPresent
    simp only [runtime_modifyRuntime, shown, Option.map_some,
      Option.some.injEq] at same
    exact same.symm
  · intro same
    exact ⟨by simp [shown], by simp [shown, same], by simp, fun _ => id,
      fun _ => id⟩

theorem untouched_control (msg : Control) (ws : Nat)
    (shown : manager.runtime = some runtime) :
    Untouched manager (manager.onControl msg) ↔
      manager.Agrees runtime (.socketControl ws msg) := by
  unfold onControl
  rw [if_neg (room_of_runtime shown)]
  cases msg with
  | pong =>
      simp only [Agrees, iff_true]
      exact ⟨rfl, rfl, rfl, fun _ => id, fun _ => id⟩
  | slot =>
      simp only [Agrees, iff_true]
      exact .refl manager
  | peerJoin => exact untouched_presence true shown
  | peerLeave => exact untouched_presence false shown

theorem untouched_binary (ws : Nat) (shown : manager.runtime = some runtime) :
    Untouched manager manager.onBinary ↔
      manager.Agrees runtime (.socketBinary ws) := by
  unfold onBinary
  simp only [shown, Agrees]
  split
  · rename_i ignored
    simp only [Bool.or_eq_true] at ignored
    simp [ignored, Untouched.refl]
  · rename_i heeded
    simp only [Bool.or_eq_true, not_or, Bool.not_eq_true] at heeded
    rw [untouched_presence true shown]
    simp [heeded.1]

theorem untouched_opened (sound : manager.Sound tasks) {ws : Nat}
    (superseded : manager.Superseded ws)
    (opened : manager.onSocketOpen ws = some after) :
    Untouched manager after ↔ ∀ runtime, manager.heard ws = some runtime →
      manager.Agrees runtime (.socketOpen ws) := by
  unfold onSocketOpen at opened
  split at opened
  · rename_i ref seen found
    obtain rfl := Option.some.inj opened
    have other : manager.client ≠ some ref := superseded.client sound found
    have marked : Beside ref manager (manager.modifySocket ws fun socket =>
        { socket with readyState := .open }) := .modifySocket found rfl _
    have beside : Beside ref manager ((manager.modifySocket ws fun socket =>
        { socket with readyState := .open }).modifyClient ref fun client =>
          { client with reconnectAttempt := 0 }) :=
      marked.trans (.modifyClient _ ref fun _ => rfl)
    have kept : ((manager.modifySocket ws fun socket =>
        { socket with readyState := .open }).modifyClient ref fun client =>
          { client with reconnectAttempt := 0 }).Sound tasks := by
      refine (sound.connectedSocket found).retreats ?_
      apply Retreats.modifyClient
      intro client _
      exact ⟨rfl, id, le_rfl, .inl rfl⟩
    rw [untouched_congr (beside.untouched sound other)
      ⟨.refl _, .refl _⟩, heard_eq found]
    dsimp only
    rw [← beside.heardBy]
    simp only [← beside.agrees sound other]
    exact untouched_notify kept fun runtime shown =>
      untouched_open kept ref shown
  · cases opened

theorem untouched_failed (sound : manager.Sound tasks) {ws : Nat}
    (superseded : manager.Superseded ws)
    (failed : manager.onSocketError ws = some after) :
    Untouched manager after ↔ ∀ runtime, manager.heard ws = some runtime →
      manager.Agrees runtime (.socketError ws) := by
  unfold onSocketError at failed
  split at failed
  · rename_i ref state found
    obtain rfl := Option.some.inj failed
    have other : manager.client ≠ some ref := superseded.client sound found
    have closed : Retreats manager (manager.modifySocket ws fun socket =>
        { socket with readyState := .closed }) := by
      apply Retreats.modifySocket
      intro socket
      exact ⟨rfl, by simp [ReadyState.live]⟩
    have beside : Beside ref manager (manager.modifySocket ws fun socket =>
        { socket with readyState := .closed }) :=
      .modifySocket found rfl _
    rw [untouched_congr (beside.untouched sound other)
      ⟨.refl _, .refl _⟩, heard_eq found]
    dsimp only
    rw [← beside.heardBy]
    simp only [← beside.agrees sound other]
    exact untouched_notify (sound.retreats closed) fun runtime shown =>
      untouched_error ref _ shown
  · cases failed

theorem untouched_lost (sound : manager.Sound tasks) {ws code : Nat}
    (superseded : manager.Superseded ws)
    (closed : manager.onSocketClose ws code = some after) :
    Untouched manager after ↔ ∀ runtime, manager.heard ws = some runtime →
      manager.Agrees runtime (.socketClose ws code) := by
  unfold onSocketClose at closed
  split at closed
  · rename_i ref state found
    obtain rfl := Option.some.inj closed
    have other : manager.client ≠ some ref := superseded.client sound found
    have dropped := sound.closedSocket found
    have beside : Beside ref manager ((manager.modifySocket ws fun socket =>
        { socket with
          readyState := .closed, closeSeen := true }).modifyClient ref
            fun client => { client with ws := none }) :=
      (Beside.modifySocket found rfl _).trans
        (.modifyClient _ ref fun _ => rfl)
    rw [heard_eq found]
    dsimp only
    rw [← beside.heardBy]
    simp only [← beside.agrees sound other]
    have apart := other
    rw [← beside.client] at apart
    have first := beside.untouched sound other
    obtain ⟨socket, known, owner⟩ : ∃ socket, ((manager.modifySocket ws
        fun socket =>
          { socket with
            readyState := .closed, closeSeen := true }).modifyClient ref
              fun client => { client with ws := none }).sockets[ws]? =
        some socket ∧ socket.client = ref :=
      ⟨⟨ref, .closed, true⟩, by
        simp [ConnectionManager.modifySocket, ConnectionManager.modifyClient,
          found], rfl⟩
    have kept := sound.retreats dropped
    rw [untouched_congr first ⟨.refl _, .refl _⟩]
    generalize (manager.modifySocket ws _).modifyClient ref _ = manager
      at kept apart known ⊢
    have told := Retreats.notify manager ref .closed (closeDetail code)
    have toldSound := kept.retreats told
    have away : (manager.notify ref .closed (closeDetail code)).client ≠
        some ref := by
      rcases told.client with same | gone
      · rw [same]
        exact apart
      · rw [gone]
        simp
    have retried := toldSound.noClientReconnect ref code
    have quiet : Beside ref (manager.notify ref .closed (closeDetail code))
        ((manager.notify ref .closed (closeDetail code)).modifyClient ref
          fun client =>
            if !client.intentionalClose && code ≠ 4001 && client.autoReconnect
            then
              { client with
                reconnectAttempt := client.reconnectAttempt + 1
                reconnectTimer := true }
            else client) := by
      apply Beside.modifyClient
      intro client
      split <;> rfl
    have moved := told.trans retried
    obtain ⟨socket', known'⟩ :=
      getElem?_of_length moved.socketsLength.symm known
    have owner' := (moved.sockets ws socket socket' known known').client
    have last := quiet.trans ((toldSound.retreats retried).finishWaits_beside
      known' (owner'.trans owner))
    rw [untouched_congr ⟨.refl _, .refl _⟩
      (last.untouched toldSound away).symm]
    apply untouched_notify kept
    intro runtime shown
    by_cases full : code = 4001
    · subst full
      simpa [Agrees, closeDetail] using untouched_full ref shown
    · simpa [Agrees, full] using
        untouched_closed kept ref (closeDetail_ne full) shown
  · cases closed

end ConnectionManager

open ConnectionManager

/-- An event of a superseded socket leaves the room, its heartbeat and its
reconnecting alone just when the handlers of its client find the room as the
event says, or no room to act on. -/
theorem superseded_event_ignored {pool pool' : Pool ConnectionManager RoomTask}
    {task : RoomTask} {outside : Surroundings} {ws : Nat}
    (reachable : connectionSystem.Reachable pool)
    (event : task.socket? = some ws) (superseded : pool.shared.Superseded ws)
    (step : connectionManager.Step pool (.run task outside) pool') :
    Untouched pool.shared pool'.shared ↔
      ∀ runtime, pool.shared.heard ws = some runtime →
        pool.shared.Agrees runtime task := by
  obtain ⟨sound, -⟩ := sound_of_reachable reachable
  obtain ⟨tasks, -, next, -, -⟩ := Program.Step.run_inv step
  obtain ⟨turn, runs, same⟩ := Option.map_eq_some_iff.mp next
  have view : Untouched turn.1 pool'.shared ∧
      Untouched pool'.shared turn.1 := by
    rw [← (Prod.mk.inj same).1]
    exact untouched_of_same rfl rfl rfl rfl
  rw [untouched_congr ⟨.refl _, .refl _⟩ view.symm]
  cases task with
  | socketOpen ws =>
      obtain rfl := Option.some.inj event
      obtain ⟨manager, opened, rfl⟩ := Option.map_eq_some_iff.mp runs
      exact untouched_opened sound superseded opened
  | socketError ws =>
      obtain rfl := Option.some.inj event
      obtain ⟨manager, failed, rfl⟩ := Option.map_eq_some_iff.mp runs
      exact untouched_failed sound superseded failed
  | socketClose ws code =>
      obtain rfl := Option.some.inj event
      obtain ⟨manager, closed, rfl⟩ := Option.map_eq_some_iff.mp runs
      exact untouched_lost sound superseded closed
  | socketControl ws msg =>
      obtain rfl := Option.some.inj event
      obtain ⟨manager, handled, rfl⟩ := Option.map_eq_some_iff.mp runs
      refine untouched_message ?_ (fun runtime shown =>
        untouched_control msg ws shown) handled
      intro hidden
      simp [onControl, sound.room_none hidden]
  | socketBinary ws =>
      obtain rfl := Option.some.inj event
      obtain ⟨manager, handled, rfl⟩ := Option.map_eq_some_iff.mp runs
      refine untouched_message ?_ (fun runtime shown =>
        untouched_binary ws shown) handled
      intro hidden
      simp [onBinary, hidden]
  | _ => cases event

/-- The room is opened and reconnected; the close of the first socket is late,
so `closeAndWait` gives up. -/
private def reconnected : List (Program.Move RoomTask Surroundings) :=
  [.spawn .callOpenRoom, .run 0 untroubled, .run 0 untroubled,
    .run 1 untroubled, .run 1 untroubled, .run 1 untroubled,
    .run 1 untroubled, .run 2 untroubled, .spawn (.socketOpen 0),
    .run 3 untroubled, .run 1 untroubled, .run 0 untroubled,
    .spawn .callReconnectRoom, .run 4 untroubled, .run 4 untroubled,
    .run 5 untroubled, .run 6 untroubled, .run 6 untroubled,
    .run 6 untroubled, .run 7 untroubled, .spawn (.socketOpen 1),
    .run 8 untroubled]

/-- The late close event ends the heartbeat of the new connection, which is
still open, and schedules a reconnect. -/
theorem late_close_reconnects :
    ∃ pool pool' : Pool ConnectionManager RoomTask,
      connectionSystem.Reachable pool ∧ pool.shared.Superseded 0 ∧
        connectionManager.Step pool (.run (.socketClose 0 1006) untroubled)
          pool' ∧
        pool'.shared.connected = true ∧
        pool'.shared.reconnectTimer.isSome = true ∧
        ¬ Untouched pool.shared pool'.shared := by
  obtain ⟨trace, pool, played, found, client, socket, open', beats, pool', ran,
    connected, reconnecting, silent, scheduled⟩ :
      ∃ trace pool, connectionManager.play ⟨.blank, []⟩
          (reconnected ++ [.spawn (.socketClose 0 1006)]) =
            some (trace, pool) ∧
        pool.threads[9]? = some [.socketClose 0 1006] ∧
        pool.shared.client = some 1 ∧
        pool.shared.sockets[0]? = some ⟨0, .closing, false⟩ ∧
        pool.shared.runtime.map RoomRuntime.connState = some .open ∧
        pool.shared.heartbeatTimer = some 1 ∧ ∃ pool',
        connectionManager.exec pool (9, untroubled) = some pool' ∧
        pool'.shared.connected = true ∧
        pool'.shared.runtime.map RoomRuntime.connState =
          some .reconnecting ∧
        pool'.shared.heartbeatTimer = none ∧
        pool'.shared.reconnectTimer.isSome = true :=
    ⟨_, _, rfl, rfl, rfl, rfl, rfl, rfl, _, rfl, rfl, rfl, rfl, rfl⟩
  refine ⟨pool, pool', played_reachable (by decide) played,
    ⟨_, socket, .inl ⟨1, client, by decide⟩⟩, Program.exec_step_of found ran,
    connected, scheduled, ?_⟩
  intro untouched
  have goesOn := untouched.heartbeat 1 beats
  rw [silent] at goesOn
  cases goesOn

/-- While the app is being locked, the connection has ended and its end was
reported, the late close event changes nothing. -/
theorem superseded_event_ignored_locked :
    ∃ pool pool' : Pool ConnectionManager RoomTask,
      pool.shared.Superseded 0 ∧
        connectionManager.Step pool (.run (.socketClose 0 1006) untroubled)
          pool' ∧
        Untouched pool.shared pool'.shared := by
  obtain ⟨trace, pool, played, found, client, socket, heard, locked, messages,
    silent, closed, absent, pool', ran⟩ :
      ∃ trace pool, connectionManager.play ⟨.blank, []⟩
          (reconnected ++ [.spawn .lock, .run 9 untroubled,
            .spawn (.socketClose 1 1000), .run 11 untroubled,
            .spawn (.socketClose 0 1006)]) = some (trace, pool) ∧
        pool.threads[12]? = some [.socketClose 0 1006] ∧
        pool.shared.client = some 1 ∧
        pool.shared.sockets[0]? = some ⟨0, .closing, false⟩ ∧
        pool.shared.heard 0 = pool.shared.runtime ∧
        pool.shared.appLocked = true ∧ pool.shared.peerMessages = false ∧
        pool.shared.heartbeatTimer = none ∧
        pool.shared.runtime.map RoomRuntime.connState = some .closed ∧
        pool.shared.runtime.map RoomRuntime.peerPresent = some false ∧
        ∃ pool', connectionManager.exec pool (12, untroubled) = some pool' :=
    ⟨_, _, rfl, rfl, rfl, rfl, rfl, rfl, rfl, rfl, rfl, rfl, _, rfl⟩
  have superseded : pool.shared.Superseded 0 :=
    ⟨_, socket, .inl ⟨1, client, by decide⟩⟩
  refine ⟨pool, pool', superseded, Program.exec_step_of found ran, ?_⟩
  apply (superseded_event_ignored (played_reachable (by decide) played) rfl
    superseded (Program.exec_step_of found ran)).mpr
  intro runtime hears
  rw [heard] at hears
  rw [hears] at closed absent
  have state : runtime.connState = .closed := Option.some.inj closed
  refine ⟨⟨silent, .inr (Option.some.inj absent)⟩, ?_⟩
  rw [if_neg (by decide)]
  exact .inl ⟨.inr (.inl locked), state⟩

end Byteln.Client

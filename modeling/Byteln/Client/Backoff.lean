import Byteln.Client.Superseded

/-!
# Managed reconnects

How long a managed reconnect waits, and when the room stops trying.  The
attempt counter is written by the timer and read by the scheduler; the
reconnect that the timer starts deletes it again when it resets the reconnect
state.
-/

namespace Byteln.Client

open Byteln.Library

def MAX_RECONNECT_DELAY_MS : Nat := 30000

/-- What `scheduleManagedReconnect` waits before an attempt. -/
def ReconnectTimer.delay (timer : ReconnectTimer) : Nat :=
  min (1000 * 2 ^ timer.attempt) MAX_RECONNECT_DELAY_MS

namespace ConnectionManager

/-- The room that is open waits for a manual reconnect. -/
def stalled (manager : ConnectionManager) : Bool :=
  manager.runtime.any RoomRuntime.reconnectStalled

/-- The number that the next attempt will have. -/
def nextAttempt (manager : ConnectionManager) : Nat :=
  manager.reconnectAttempts.getD 0

variable {manager before middle after : ConnectionManager}
  {tasks : List RoomTask}

/-! ## Steps that do not count -/

/-- The counter is left alone; a timer that is set has its number, and the
room stops trying only at the end of the attempts. -/
structure Steady (before after : ConnectionManager) : Prop where
  attempts : after.reconnectAttempts = before.reconnectAttempts
  locked : after.appLocked = before.appLocked
  timer : ∀ timer, after.reconnectTimer = some timer →
    before.reconnectTimer = some timer ∨
      timer.attempt = before.nextAttempt ∧
        timer.attempt < MAX_RECONNECT_ATTEMPTS ∧ before.appLocked = false
  stalled : after.stalled = true →
    before.stalled = true ∨ MAX_RECONNECT_ATTEMPTS ≤ before.nextAttempt

theorem Steady.of_same
    (attempts : after.reconnectAttempts = before.reconnectAttempts)
    (locked : after.appLocked = before.appLocked)
    (timer : after.reconnectTimer = before.reconnectTimer)
    (stalled : after.stalled = true → before.stalled = true) :
    Steady before after :=
  ⟨attempts, locked, fun _ set => .inl (timer ▸ set),
    fun held => .inl (stalled held)⟩

theorem Steady.refl (manager : ConnectionManager) : Steady manager manager :=
  .of_same rfl rfl rfl id

theorem Steady.trans (first : Steady before middle)
    (second : Steady middle after) : Steady before after := by
  have number : middle.nextAttempt = before.nextAttempt :=
    congrArg (Option.getD · 0) first.attempts
  refine ⟨second.attempts.trans first.attempts,
    second.locked.trans first.locked, ?_, ?_⟩
  · intro timer set
    rcases second.timer timer set with old | ⟨same, below, open'⟩
    · exact first.timer timer old
    · exact .inr ⟨same.trans number, below, first.locked ▸ open'⟩
  · intro held
    rcases second.stalled held with old | reached
    · exact first.stalled old
    · exact .inr (number ▸ reached)

theorem stalled_modifyRuntime (manager : ConnectionManager)
    {change : RoomRuntime → RoomRuntime}
    (keeps : ∀ runtime, (change runtime).reconnectStalled = true →
      runtime.reconnectStalled = true) :
    (manager.modifyRuntime change).stalled = true →
      manager.stalled = true := by
  unfold stalled
  rw [runtime_modifyRuntime]
  cases manager.runtime with
  | none => exact id
  | some runtime => exact keeps runtime

theorem modifyRuntime_steady (manager : ConnectionManager)
    {change : RoomRuntime → RoomRuntime}
    (keeps : ∀ runtime, (change runtime).reconnectStalled = true →
      runtime.reconnectStalled = true) :
    Steady manager (manager.modifyRuntime change) :=
  .of_same rfl rfl rfl (stalled_modifyRuntime manager keeps)

theorem runtime_setClient (manager : ConnectionManager) (ref : Nat)
    (client : Option Nat) :
    (manager.setClient ref client).runtime = manager.runtime := by
  unfold ConnectionManager.runtime internalRoom setClient modifyRoom
  cases opened : manager.room with
  | none => simp
  | some room =>
      simp only [Option.bind_some, List.getElem?_modify]
      cases manager.internalRooms[room]? with
      | none => rfl
      | some found => split <;> rfl

theorem setClient_steady (manager : ConnectionManager) (ref : Nat)
    (client : Option Nat) : Steady manager (manager.setClient ref client) := by
  have same : (manager.setClient ref client).stalled = manager.stalled := by
    unfold stalled
    rw [runtime_setClient]
  exact .of_same rfl rfl rfl fun held => same ▸ held

theorem cancelManagedReconnect_steady (manager : ConnectionManager) :
    Steady manager manager.cancelManagedReconnect :=
  ⟨rfl, rfl, fun _ set => (nomatch set), fun held => .inl held⟩

theorem stopHeartbeat_steady (manager : ConnectionManager) :
    Steady manager manager.stopHeartbeat := .of_same rfl rfl rfl id

/-- The room stops trying when its attempts are used up. -/
theorem stall_steady (manager : ConnectionManager)
    (reached : MAX_RECONNECT_ATTEMPTS ≤ manager.nextAttempt) :
    Steady manager manager.cancelManagedReconnect.markReconnectStalled :=
  ⟨rfl, rfl, fun _ set => (nomatch set), fun _ => .inr reached⟩

theorem scheduleManagedReconnect_steady (manager : ConnectionManager) :
    Steady manager manager.scheduleManagedReconnect := by
  unfold scheduleManagedReconnect
  split
  · exact .refl manager
  · rename_i runtime shown
    split
    · exact .refl manager
    · rename_i free
      dsimp only
      split
      · rename_i reached
        exact stall_steady manager reached
      · rename_i more
        have unlocked : manager.appLocked = false := by
          simp only [Bool.or_eq_true, not_or, Bool.not_eq_true] at free
          exact free.1.1.1
        refine ⟨rfl, rfl, ?_, ?_⟩
        · intro timer set
          obtain rfl := Option.some.inj set
          exact .inr ⟨rfl, Nat.lt_of_not_le more, unlocked⟩
        · intro held
          have cleared := @stalled_modifyRuntime
            manager.cancelManagedReconnect (reconnecting manager.nextAttempt)
            (fun _ set => (nomatch set)) held
          exact .inl cleared

theorem handleDisconnect_steady (manager : ConnectionManager) :
    Steady manager manager.handleDisconnectForReconnect := by
  unfold handleDisconnectForReconnect
  split
  · exact .refl manager
  · split
    · exact .refl manager
    · exact scheduleManagedReconnect_steady manager

theorem closeClient_steady (manager : ConnectionManager) (ref : Nat) :
    Steady manager (manager.closeClient ref) := by
  unfold closeClient
  dsimp only
  split <;> exact .of_same rfl rfl rfl id

theorem showStatus_steady (manager : ConnectionManager) {s : ConnState}
    (detail : JSString) (ends : s ≠ .open) :
    Steady manager (manager.showStatus s detail) := by
  unfold showStatus
  rw [if_neg ends]
  have shown : Steady manager (manager.modifyRuntime fun runtime =>
      { runtime with connState := s, connDetail := detail }) :=
    modifyRuntime_steady manager fun _ => id
  split
  · exact shown.trans (stopHeartbeat_steady _)
  · exact shown

theorem giveUpSeat_steady (manager : ConnectionManager) (ref : Nat) :
    Steady manager (manager.giveUpSeat ref) := by
  have marked : Steady manager (manager.modifyRuntime fun runtime =>
      { runtime with bucketFull := true }) :=
    modifyRuntime_steady manager fun _ => id
  have closed := (marked.trans (cancelManagedReconnect_steady _)).trans
    (closeClient_steady _ ref)
  unfold giveUpSeat
  dsimp only
  split
  · exact closed
  · exact closed.trans (setClient_steady _ _ none)

theorem losePeer_steady (manager : ConnectionManager) :
    Steady manager manager.losePeer := by
  unfold losePeer
  split
  · exact .refl manager
  · exact modifyRuntime_steady manager fun _ => id

theorem onStatus_steady (manager : ConnectionManager) (ref : Nat)
    {s : ConnState} (detail : JSString) (ends : s ≠ .open) :
    Steady manager (manager.onStatus ref s detail) := by
  have shown := showStatus_steady manager detail ends
  unfold onStatus
  dsimp only
  split
  · exact .refl manager
  · split
    · split
      · exact (shown.trans (giveUpSeat_steady _ ref)).trans (losePeer_steady _)
      · exact (shown.trans (losePeer_steady _)).trans
          (handleDisconnect_steady _)
    · split
      · exact shown.trans (losePeer_steady _)
      · exact shown

theorem notify_steady (manager : ConnectionManager) (ref : Nat)
    {s : ConnState} (detail : JSString) (ends : s ≠ .open) :
    Steady manager (manager.notify ref s detail) := by
  unfold notify
  split
  · exact .refl manager
  · split
    · exact onStatus_steady manager ref detail ends
    · exact .refl manager

theorem closeAndWait_steady (manager : ConnectionManager) (ref : Nat) :
    Steady manager (manager.closeAndWait ref) := by
  unfold closeAndWait
  dsimp only
  split <;> exact .of_same rfl rfl rfl id

theorem Steady.queued (steady : Steady before middle) (ref : Nat)
    (change : RelayClient → RelayClient) (task : RoomTask) :
    Steady before ((middle.modifyClient ref change).queue task) :=
  steady.trans (.of_same rfl rfl rfl id)

theorem connect_steady (manager : ConnectionManager) (ref : Nat) :
    Steady manager (manager.connect ref) := by
  unfold connect
  split
  · exact .refl manager
  · dsimp only
    apply Steady.queued
    refine Steady.trans ?_ (notify_steady _ ref [] ?_)
    · split <;> exact .of_same rfl rfl rfl id
    · split <;> simp

theorem finishWait_steady (manager : ConnectionManager) (ref : Nat) :
    Steady manager (manager.finishWait ref) := by
  unfold finishWait
  split
  · exact .of_same rfl rfl rfl id
  · exact .refl manager

theorem finishWaits_steady (manager : ConnectionManager) (ws : Nat) :
    Steady manager (manager.finishWaits ws) := by
  apply finishWaits_rule
  · intro next ref wait before _ _
    exact before.trans (finishWait_steady next ref)
  · exact .refl manager

theorem onSocketError_steady {ws : Nat}
    (handled : manager.onSocketError ws = some after) :
    Steady manager after := by
  unfold onSocketError at handled
  split at handled
  · obtain rfl := Option.some.inj handled
    have closed : Steady manager (manager.modifySocket ws fun socket =>
        { socket with readyState := .closed }) := .of_same rfl rfl rfl id
    exact closed.trans (notify_steady _ _ _ (by simp))
  · cases handled

theorem onSocketClose_steady {ws code : Nat}
    (handled : manager.onSocketClose ws code = some after) :
    Steady manager after := by
  unfold onSocketClose at handled
  split at handled
  · rename_i ref state found
    obtain rfl := Option.some.inj handled
    have closed : Steady manager ((manager.modifySocket ws fun socket =>
        { socket with
          readyState := .closed, closeSeen := true }).modifyClient ref
            fun client => { client with ws := none }) :=
      .of_same rfl rfl rfl id
    have told := closed.trans
      (notify_steady _ ref (s := .closed) (closeDetail code) (by simp))
    refine told.trans (.trans ?_ (finishWaits_steady _ ws))
    exact .of_same rfl rfl rfl id
  · cases handled

theorem onSocketMessage_steady {ws : Nat}
    {handle : ConnectionManager → ConnectionManager}
    (handles : Steady manager (handle manager))
    (handled : manager.onSocketMessage ws handle = some after) :
    Steady manager after := by
  unfold onSocketMessage at handled
  split at handled
  · split at handled
    · obtain rfl := Option.some.inj handled
      exact .refl manager
    · obtain rfl := Option.some.inj handled
      split
      · exact handles
      · exact .refl manager
  · cases handled

theorem onControl_steady (manager : ConnectionManager) (msg : Control) :
    Steady manager (manager.onControl msg) := by
  unfold onControl
  split
  · exact .refl manager
  · cases msg with
    | pong => exact .of_same rfl rfl rfl id
    | slot => exact .refl manager
    | peerJoin => exact modifyRuntime_steady manager fun _ => id
    | peerLeave => exact modifyRuntime_steady manager fun _ => id

theorem onBinary_steady (manager : ConnectionManager) :
    Steady manager manager.onBinary := by
  unfold onBinary
  split
  · exact .refl manager
  · split
    · exact .refl manager
    · exact modifyRuntime_steady manager fun _ => id

theorem openSocket_steady (manager : ConnectionManager)
    (ref generation : Nat) :
    Steady manager (manager.openSocket ref generation) := by
  unfold openSocket
  split
  · exact .refl manager
  · split
    · exact .of_same rfl rfl rfl id
    · exact .refl manager

theorem closeRoomConnection_steady (manager : ConnectionManager) :
    Steady manager manager.closeRoomConnection := by
  have left : ∀ closed : ConnectionManager,
      Steady closed { closed with room := none } := fun _ =>
    .of_same rfl rfl rfl fun held => (nomatch held)
  have quiet : Steady manager manager.cancelManagedReconnect.stopHeartbeat :=
    (cancelManagedReconnect_steady manager).trans (stopHeartbeat_steady _)
  unfold closeRoomConnection
  split
  · exact .refl manager
  · dsimp only
    split
    · exact (quiet.trans (setClient_steady _ _ none)).trans (left _)
    · exact ((quiet.trans (closeClient_steady _ _)).trans
        (setClient_steady _ _ none)).trans (left _)

theorem settle_steady (manager : ConnectionManager) (promise : Nat)
    (value : Bool) : Steady manager (manager.settle promise value) :=
  .of_same rfl rfl rfl id

theorem suppress_steady (manager : ConnectionManager) (value : Bool) :
    Steady manager { manager with suppressReconnect := value } :=
  .of_same rfl rfl rfl id

/-! ## Connect flows and calls -/

variable {turn : ConnectionManager × List RoomTask} {outside : Surroundings}

theorem unsuppress_steady (steady : Steady manager turn.1) :
    Steady manager (unsuppress turn).1 :=
  steady.trans (suppress_steady _ false)

theorem waitForRelay_steady (manager : ConnectionManager)
    (outside : Surroundings) (polls result : Nat) :
    Steady manager (manager.waitForRelay outside polls result).1 := by
  unfold waitForRelay
  split
  · exact settle_steady manager result _
  · split
    · exact settle_steady manager result _
    · exact .refl manager

theorem startClient_steady (manager : ConnectionManager)
    (outside : Surroundings) (room result : Nat) :
    Steady manager (manager.startClient outside room result).1 := by
  let client : RelayClient :=
    ⟨none, false, 0, false, 0, false, manager.room.isSome⟩
  have added : Steady manager { manager with
      relayClients := manager.relayClients ++ [client] } :=
    .of_same rfl rfl rfl id
  have made : Steady manager (manager.withClient room) :=
    added.trans (setClient_steady _ room _)
  exact (made.trans (connect_steady _ _)).trans
    (waitForRelay_steady _ outside 0 result)

theorem connectRelay_steady (manager : ConnectionManager)
    (outside : Surroundings) (result : Nat) :
    Steady manager (manager.connectRelay outside result).1 := by
  unfold connectRelay
  split
  · exact settle_steady manager result false
  · split
    · exact settle_steady manager result false
    · have marked : Steady manager (manager.modifyRuntime fun runtime =>
          { runtime with bucketFull := false }) :=
        modifyRuntime_steady manager fun _ => id
      dsimp only
      split
      · exact marked.trans (closeAndWait_steady _ _)
      · exact marked.trans (startClient_steady _ outside _ result)

theorem connectExisting_steady (manager : ConnectionManager)
    (room result : Nat) :
    Steady manager (manager.connectExisting room result).1 := by
  have marked : Steady manager
      ({ manager with suppressReconnect := true }.modifyRuntime fun runtime =>
        { runtime with bucketFull := false, connState := .connecting }) :=
    (suppress_steady manager true).trans (modifyRuntime_steady _ fun _ => id)
  unfold connectExisting
  dsimp only
  split
  · exact marked.trans (closeAndWait_steady _ _)
  · exact marked

theorem connectRoom_steady (manager : ConnectionManager) (result : Nat) :
    Steady manager (manager.connectRoom result).1 := by
  unfold connectRoom
  split
  · exact settle_steady manager result false
  · split
    · exact settle_steady manager result true
    · exact (stopHeartbeat_steady manager).trans
        (connectExisting_steady _ _ result)

theorem doOpenRoom_steady (manager : ConnectionManager)
    (outside : Surroundings) (result : Nat) :
    Steady manager (manager.doOpenRoom outside result).1 := by
  unfold doOpenRoom
  split
  · split
    · exact settle_steady manager result true
    · exact connectExisting_steady manager _ result
  · split
    · exact settle_steady manager result false
    · split <;> exact .refl manager

theorem doReconnectRoom_steady (manager : ConnectionManager)
    (result : Nat) : Steady manager (manager.doReconnectRoom result).1 := by
  have stopped : Steady manager
      { manager with suppressReconnect := true }.stopHeartbeat :=
    (suppress_steady manager true).trans (stopHeartbeat_steady _)
  unfold doReconnectRoom
  dsimp only
  split
  · exact stopped
  · have marked := stopped.trans (@modifyRuntime_steady
      { manager with suppressReconnect := true }.stopHeartbeat
      (fun runtime =>
        { runtime with bucketFull := false, reconnectStalled := false })
      fun _ held => (nomatch held))
    split
    · exact marked.trans (closeAndWait_steady _ _)
    · exact marked

theorem enter_steady (manager : ConnectionManager) (result : Nat)
    (awaiting : RoomTask) :
    Steady manager (manager.enter result awaiting).1 := by
  unfold enter
  split <;> exact .refl manager

theorem newPromise_steady (manager : ConnectionManager) :
    Steady manager manager.newPromise := .of_same rfl rfl rfl id

theorem register_steady (manager : ConnectionManager) (result : Nat)
    {start : ConnectionManager → Nat → ConnectionManager × List RoomTask}
    (starts : ∀ manager promise, Steady manager (start manager promise).1) :
    Steady manager (manager.register result start).1 := by
  have begun := (newPromise_steady manager).trans
    (starts manager.newPromise manager.promises.length)
  simp only [register, foldl_queue]
  exact begun.trans (.of_same rfl rfl rfl id)

theorem callOpen_steady (manager : ConnectionManager)
    (after : Nat → List RoomTask) :
    Steady manager (manager.call ConnectionManager.openRoom after).1 :=
  (newPromise_steady manager).trans (enter_steady _ _ _)

theorem callReconnect_steady (manager : ConnectionManager)
    (after : Nat → List RoomTask) :
    Steady manager (manager.call ConnectionManager.reconnectRoom after).1 :=
  (newPromise_steady manager).trans (enter_steady _ _ _)

theorem forceStaleReconnect_steady (manager : ConnectionManager) :
    Steady manager manager.forceStaleReconnect.1 := by
  unfold forceStaleReconnect
  split
  · exact .refl manager
  · split
    · exact .refl manager
    · exact (stopHeartbeat_steady manager).trans (callReconnect_steady _ _)

theorem sendHeartbeatPing_steady (manager : ConnectionManager) :
    Steady manager manager.sendHeartbeatPing.1 := by
  unfold sendHeartbeatPing
  split
  · exact .refl manager
  · split
    · exact forceStaleReconnect_steady manager
    · exact .of_same rfl rfl rfl id

theorem closeThen_steady (manager : ConnectionManager)
    (closing : Nat → RoomTask) (after : RoomTask) :
    Steady manager (manager.closeThen closing after).1 := by
  unfold closeThen
  split
  · exact closeAndWait_steady manager _
  · exact .refl manager

theorem flow_steady {result : Nat} {stage : ConnectFlow}
    (goes : manager.flow outside result stage = some turn) :
    Steady manager turn.1 := by
  cases stage with
  | reconnectClosing room wait =>
      simp only [flow] at goes
      split at goes <;> cases goes
      exact setClient_steady manager room none
  | reconnectPause =>
      simp only [flow] at goes
      split at goes <;> cases goes
      · exact unsuppress_steady (enter_steady manager result _)
      · exact unsuppress_steady (connectRoom_steady manager result)
  | connectClosing room wait =>
      simp only [flow] at goes
      split at goes <;> cases goes
      exact setClient_steady manager room none
  | connectToken =>
      simp only [flow] at goes
      split at goes <;> cases goes
      · exact unsuppress_steady (connectRelay_steady manager outside result)
      · exact unsuppress_steady (settle_steady manager result false)
  | openCredentials =>
      simp only [flow] at goes
      split at goes <;> cases goes
      · exact .refl manager
      · exact settle_steady manager result false
  | openRecord =>
      simp only [flow] at goes
      split at goes <;> cases goes
      · exact .refl manager
      · exact settle_steady manager result false
  | openMessages =>
      cases goes
      refine .of_same rfl rfl rfl fun held => ?_
      simp [stalled, ConnectionManager.runtime, internalRoom, addRoom] at held
  | openPending =>
      cases goes
      exact .refl manager
  | openToken =>
      simp only [flow] at goes
      split at goes <;> cases goes
      · exact connectRelay_steady manager outside result
      · exact settle_steady manager result false
  | relayClosing room wait =>
      simp only [flow] at goes
      split at goes <;> cases goes
      exact (setClient_steady manager room none).trans
        (startClient_steady _ outside room result)
  | waitForRelay polls =>
      cases goes
      exact waitForRelay_steady manager outside polls result

/-! ## Steps -/

/-- The client of a socket has the handlers of the room. -/
def wiredSocket (manager : ConnectionManager) (ws : Nat) : Bool :=
  match manager.sockets[ws]? with
  | none => false
  | some socket =>
      (manager.relayClients[socket.client]?).any RelayClient.wired

/-- A status of an open connection, or an event of the user or the page that
makes the room reconnect or stop. -/
def intervenes (manager : ConnectionManager) : RoomTask → Bool
  | .socketOpen ws => manager.wiredSocket ws
  | .callOpenRoom | .callReconnectRoom | .connectWithPin => true
  | .closeRoom | .releaseSeat | .lock | .restoreAll => true
  | .ensureAllConnected => true
  | _ => false

/-- The reset at the start of a reconnect finds no counter to delete. -/
def CounterKept (manager : ConnectionManager) (outside : Surroundings) :
    RoomTask → Prop
  | .reconnectRoom _ =>
      outside.seatReleased = true ∨ manager.reconnectAttempts = none
  | _ => True

theorem resetReconnectState_steady (manager : ConnectionManager)
    (unused : manager.reconnectAttempts = none) :
    Steady manager manager.resetReconnectState := by
  have cleared : Steady manager { manager.cancelManagedReconnect with
      reconnectAttempts := none } :=
    ⟨unused.symm, rfl, fun _ set => (nomatch set), fun held => .inl held⟩
  exact cleared.trans (modifyRuntime_steady _ fun _ held => (nomatch held))

theorem onSocketOpen_steady {ws : Nat}
    (handled : manager.onSocketOpen ws = some after)
    (unwired : manager.wiredSocket ws = false) : Steady manager after := by
  unfold onSocketOpen at handled
  split at handled
  · rename_i ref seen found
    obtain rfl := Option.some.inj handled
    let opened := (manager.modifySocket ws fun socket =>
      { socket with readyState := .open }).modifyClient ref fun client =>
        { client with reconnectAttempt := 0 }
    have same : Steady manager opened := .of_same rfl rfl rfl id
    have clients : opened.relayClients[ref]? =
        (manager.relayClients[ref]?).map fun client =>
          { client with reconnectAttempt := 0 } := by
      simp [opened, modifyClient, modifySocket]
    have mute : opened.notify ref .open [] = opened := by
      simp only [wiredSocket, found] at unwired
      unfold notify
      rw [clients]
      cases known : manager.relayClients[ref]? with
      | none => rfl
      | some client =>
          simp only [known, Option.any_some] at unwired
          simp [unwired]
    rw [mute]
    exact same
  · cases handled

end ConnectionManager

open ConnectionManager

/-- A step that neither intervenes nor starts an attempt does not count, as
long as no counter is deleted. -/
theorem RoomTask.steady {outside : Surroundings} {task : RoomTask}
    {manager : ConnectionManager} {turn : ConnectionManager × List RoomTask}
    (runs : task.run outside manager = some turn)
    (alone : manager.intervenes task = false)
    (kept : manager.CounterKept outside task)
    (waits : task = .managedReconnect → manager.room = none) :
    Steady manager turn.1 := by
  cases task with
  | callOpenRoom => cases alone
  | callReconnectRoom => cases alone
  | connectWithPin => cases alone
  | ensureAllConnected => cases alone
  | closeRoom => cases alone
  | releaseSeat => cases alone
  | lock => cases alone
  | restoreAll => cases alone
  | openRoom result =>
      simp only [RoomTask.run] at runs
      split at runs
      · cases runs
        exact settle_steady manager result false
      · split at runs <;> cases runs
        · exact settle_steady manager result true
        · exact register_steady manager result fun manager promise =>
            doOpenRoom_steady manager outside promise
  | reconnectRoom result =>
      simp only [RoomTask.run] at runs
      split at runs <;> cases runs
      · exact settle_steady manager result false
      · rename_i held
        have unused := kept.resolve_left held
        exact (resetReconnectState_steady manager unused).trans
          (register_steady _ result doReconnectRoom_steady)
  | forward inflight result =>
      obtain ⟨ok, -, rfl⟩ := Option.map_eq_some_iff.mp runs
      exact settle_steady manager result ok
  | finish promise result =>
      obtain ⟨ok, -, rfl⟩ := Option.map_eq_some_iff.mp runs
      exact .of_same rfl rfl rfl id
  | flow stage result => exact flow_steady runs
  | seatReclaimed =>
      cases runs
      exact callOpen_steady manager _
  | openSocket client generation =>
      cases runs
      exact openSocket_steady manager client generation
  | closeTimeout wait =>
      cases runs
      exact finishWait_steady manager wait
  | socketOpen ws =>
      obtain ⟨manager', opened, rfl⟩ := Option.map_eq_some_iff.mp runs
      exact onSocketOpen_steady opened alone
  | socketError ws =>
      obtain ⟨manager', failed, rfl⟩ := Option.map_eq_some_iff.mp runs
      exact onSocketError_steady failed
  | socketClose ws code =>
      obtain ⟨manager', closed, rfl⟩ := Option.map_eq_some_iff.mp runs
      exact onSocketClose_steady closed
  | socketControl ws msg =>
      obtain ⟨manager', handled, rfl⟩ := Option.map_eq_some_iff.mp runs
      exact onSocketMessage_steady (onControl_steady manager msg) handled
  | socketBinary ws =>
      obtain ⟨manager', handled, rfl⟩ := Option.map_eq_some_iff.mp runs
      exact onSocketMessage_steady (onBinary_steady manager) handled
  | clientReconnectTimer ref =>
      simp only [RoomTask.run] at runs
      split at runs
      · cases runs
      · split at runs <;> cases runs
        exact connect_steady manager ref
  | managedReconnect =>
      simp only [RoomTask.run] at runs
      split at runs
      · cases runs
      · rw [if_pos (waits rfl)] at runs
        cases runs
        exact cancelManagedReconnect_steady manager
  | afterManagedReconnect call =>
      obtain ⟨ok, -, rfl⟩ := Option.map_eq_some_iff.mp runs
      split
      · exact .refl manager
      · split
        · exact .refl manager
        · exact scheduleManagedReconnect_steady manager
  | heartbeatTick =>
      simp only [RoomTask.run] at runs
      split at runs
      · cases runs
        exact .refl manager
      · split at runs <;> cases runs
        · exact .refl manager
        · exact sendHeartbeatPing_steady manager
  | heartbeatTimeout =>
      simp only [RoomTask.run] at runs
      split at runs <;> cases runs
      have cleared : Steady manager
          { manager with heartbeatPending := false } := .of_same rfl rfl rfl id
      exact cleared.trans (forceStaleReconnect_steady _)
  | afterStaleReconnect call =>
      obtain ⟨ok, -, rfl⟩ := Option.map_eq_some_iff.mp runs
      split
      · exact .refl manager
      · split
        · exact .refl manager
        · exact scheduleManagedReconnect_steady manager
  | offline =>
      cases runs
      dsimp only
      refine modifyRuntime_steady manager fun runtime held => ?_
      split at held <;> exact held
  | releaseSeatClosing wait =>
      simp only [RoomTask.run] at runs
      split at runs <;> cases runs
      exact .refl manager
  | releaseSeatPause =>
      cases runs
      exact closeRoomConnection_steady manager
  | releaseSeatRecord =>
      cases runs
      exact suppress_steady manager false
  | lockClosing wait =>
      simp only [RoomTask.run] at runs
      split at runs <;> cases runs
      exact .refl manager
  | lockPause =>
      cases runs
      have marked : Steady manager (manager.modifyRuntime fun runtime =>
          { runtime with bucketFull := false }) :=
        modifyRuntime_steady manager fun _ => id
      exact marked.trans (closeRoomConnection_steady _)
  | messagesChanged fromPeer =>
      cases runs
      exact .of_same rfl rfl rfl id

namespace ConnectionManager

variable {manager before after : ConnectionManager}

/-! ## Timers and the counter -/

/-- A timer that runs has the number in the counter, and the room has stopped
trying only if the counter has reached its end. -/
structure Attempting (manager : ConnectionManager) : Prop where
  timer : ∀ timer, manager.reconnectTimer = some timer →
    timer.attempt = manager.nextAttempt ∧
      timer.attempt < MAX_RECONNECT_ATTEMPTS ∧ manager.appLocked = false
  stalled : manager.stalled = true →
    MAX_RECONNECT_ATTEMPTS ≤ manager.nextAttempt

theorem Steady.nextAttempt (steady : Steady before after) :
    after.nextAttempt = before.nextAttempt :=
  congrArg (Option.getD · 0) steady.attempts

theorem Steady.attempting (steady : Steady before after)
    (attempting : Attempting before) : Attempting after := by
  constructor
  · intro timer set
    rw [steady.nextAttempt, steady.locked]
    rcases steady.timer timer set with old | scheduled
    · exact attempting.timer timer old
    · exact scheduled
  · intro held
    rw [steady.nextAttempt]
    exact (steady.stalled held).elim attempting.stalled id

/-- A room that is trying, and whose timer does not run. -/
theorem Attempting.idle (waits : manager.reconnectTimer = none)
    (trying : manager.stalled = false) : Attempting manager := by
  constructor
  · intro timer set
    rw [waits] at set
    cases set
  · intro held
    rw [trying] at held
    cases held

theorem stalled_resetReconnectState (manager : ConnectionManager) :
    manager.resetReconnectState.stalled = false := by
  unfold stalled
  rw [runtime_resetReconnectState]
  cases manager.runtime <;> rfl

theorem resetReconnectState_attempting (manager : ConnectionManager) :
    Attempting manager.resetReconnectState :=
  .idle rfl (stalled_resetReconnectState manager)

theorem onStatus_attempting (attempting : Attempting manager) (ref : Nat)
    (s : ConnState) (detail : JSString) :
    Attempting (manager.onStatus ref s detail) := by
  by_cases opens : s = .open
  · subst opens
    unfold onStatus
    split
    · exact attempting
    · have reset := resetReconnectState_attempting manager
      have shown : Steady manager.resetReconnectState
          (manager.resetReconnectState.modifyRuntime fun runtime =>
            { runtime with connState := .open, connDetail := [] }) :=
        modifyRuntime_steady _ fun _ => id
      have beats : Steady manager.resetReconnectState
          (manager.showStatus .open detail) :=
        shown.trans (.of_same rfl rfl rfl id)
      exact beats.attempting reset
  · exact (onStatus_steady manager ref detail opens).attempting attempting

theorem onSocketOpen_attempting {ws : Nat}
    (attempting : Attempting manager)
    (handled : manager.onSocketOpen ws = some after) : Attempting after := by
  unfold onSocketOpen at handled
  split at handled
  · rename_i ref seen found
    obtain rfl := Option.some.inj handled
    have opened : Steady manager ((manager.modifySocket ws fun socket =>
        { socket with readyState := .open }).modifyClient ref fun client =>
          { client with reconnectAttempt := 0 }) := .of_same rfl rfl rfl id
    have before := opened.attempting attempting
    unfold notify
    split
    · exact before
    · split
      · exact onStatus_attempting before ref .open []
      · exact before
  · cases handled

end ConnectionManager

/-- An attempt starts: the counter is one ahead of the timer. -/
theorem RoomTask.run_managedReconnect {outside : Surroundings}
    {manager : ConnectionManager} {turn : ConnectionManager × List RoomTask}
    (runs : RoomTask.managedReconnect.run outside manager = some turn)
    (opened : manager.room ≠ none) :
    ∃ timer, manager.reconnectTimer = some timer ∧
      Steady { manager with
        reconnectTimer := none
        reconnectAttempts := some (timer.attempt + 1) } turn.1 := by
  simp only [RoomTask.run] at runs
  split at runs
  · cases runs
  · rename_i timer set
    rw [if_neg opened] at runs
    cases runs
    exact ⟨timer, set, callReconnect_steady _ _⟩

/-- An attempt that starts is not the last word: the room still tries. -/
theorem ConnectionManager.Attempting.start {manager : ConnectionManager}
    {timer : ReconnectTimer} (attempting : manager.Attempting)
    (set : manager.reconnectTimer = some timer) :
    Attempting { manager with
      reconnectTimer := none
      reconnectAttempts := some (timer.attempt + 1) } := by
  obtain ⟨same, below, -⟩ := attempting.timer timer set
  apply Attempting.idle rfl
  apply Bool.eq_false_of_not_eq_true
  intro held
  have reached := attempting.stalled held
  omega

/-- Every step keeps the timer and the counter together. -/
theorem RoomTask.attempting {outside : Surroundings} {task : RoomTask}
    {manager : ConnectionManager} {turn : ConnectionManager × List RoomTask}
    (runs : task.run outside manager = some turn)
    (attempting : manager.Attempting) : turn.1.Attempting := by
  have quiet : Steady manager turn.1 → turn.1.Attempting :=
    fun steady => steady.attempting attempting
  have locked : ∀ value, Attempting
      { manager.cancelManagedReconnect.stopHeartbeat with
        appLocked := value } :=
    fun _ => ⟨fun _ set => (nomatch set), attempting.stalled⟩
  cases alone : manager.intervenes task with
  | false =>
      by_cases kept : manager.CounterKept outside task
      · by_cases waits : task = .managedReconnect → manager.room = none
        · exact quiet (task.steady runs alone kept waits)
        · obtain ⟨rfl, opened⟩ := Classical.not_imp.mp waits
          obtain ⟨timer, set, steady⟩ := RoomTask.run_managedReconnect runs
            opened
          exact steady.attempting (attempting.start set)
      · cases task with
        | reconnectRoom result =>
            have held : outside.seatReleased ≠ true :=
              fun held => kept (.inl held)
            simp only [RoomTask.run, if_neg held, Option.some.injEq] at runs
            subst runs
            exact (register_steady _ result doReconnectRoom_steady).attempting
              (resetReconnectState_attempting manager)
        | _ => exact absurd trivial kept
  | true =>
      cases task with
      | socketOpen ws =>
          obtain ⟨manager', opened, rfl⟩ := Option.map_eq_some_iff.mp runs
          exact onSocketOpen_attempting attempting opened
      | callOpenRoom =>
          cases runs
          exact quiet (callOpen_steady manager _)
      | callReconnectRoom =>
          cases runs
          exact quiet (callReconnect_steady manager _)
      | connectWithPin =>
          simp only [RoomTask.run] at runs
          split at runs <;> cases runs
          · exact quiet (closeRoomConnection_steady manager)
          · exact attempting
      | ensureAllConnected =>
          simp only [RoomTask.run] at runs
          split at runs
          · cases runs
            exact attempting
          · split at runs
            · cases runs
              exact attempting
            · split at runs
              · cases runs
                exact (callReconnect_steady _ _).attempting
                  (resetReconnectState_attempting manager)
              · split at runs <;> cases runs
                · exact quiet (sendHeartbeatPing_steady manager)
                · exact attempting
      | closeRoom =>
          cases runs
          exact quiet ((closeRoomConnection_steady manager).trans
            (.of_same rfl rfl rfl id))
      | releaseSeat =>
          cases runs
          have cancelled := ((cancelManagedReconnect_steady manager).trans
            (stopHeartbeat_steady _)).trans (suppress_steady _ true)
          exact quiet (cancelled.trans (closeThen_steady _ _ _))
      | lock =>
          cases runs
          exact (closeThen_steady _ _ _).attempting (locked true)
      | restoreAll =>
          cases runs
          refine ⟨fun timer set => ?_, attempting.stalled⟩
          obtain ⟨same, below, -⟩ := attempting.timer timer set
          exact ⟨same, below, rfl⟩
      | _ => cases alone

theorem attempting_of_reachable {pool : Pool ConnectionManager RoomTask}
    (reachable : connectionSystem.Reachable pool) :
    pool.shared.Attempting := by
  refine reachable.invariant (fun pool => pool.shared.Attempting) ?_ ?_
  · rintro pool rfl
    exact .idle rfl rfl
  · intro pool label next attempting step
    cases label with
    | spawn task =>
        rw [(Program.Step.spawn_inv step).2.1]
        exact attempting
    | run task outside =>
        obtain ⟨acts, others, runs, -, -⟩ := Program.Step.run_inv step
        obtain ⟨turn, taken, same⟩ := Option.map_eq_some_iff.mp runs
        have kept := task.attempting taken attempting
        obtain ⟨cleared, -⟩ := Prod.mk.inj same
        rw [← cleared]
        exact ⟨kept.timer, kept.stalled⟩

/-! ## Runs in which reconnecting fails -/

abbrev ConnectionTrace :=
  List (Pool ConnectionManager RoomTask × PoolLabel RoomTask Surroundings)

/-- The step starts an attempt of a room that is open. -/
def startsAttempt : Pool ConnectionManager RoomTask →
    PoolLabel RoomTask Surroundings → Bool
  | pool, .run .managedReconnect _ => pool.shared.room.isSome
  | _, _ => false

/-- How many attempts a run has started. -/
def attemptsMade (trace : ConnectionTrace) : Nat :=
  trace.countP fun entry => startsAttempt entry.1 entry.2

/-- A run from a room that has made no attempt yet, in which no connection
opens and nobody intervenes. -/
structure FailingRun (start : Pool ConnectionManager RoomTask)
    (trace : ConnectionTrace) (pool : Pool ConnectionManager RoomTask) :
    Prop where
  reachable : connectionSystem.Reachable start
  attempts : start.shared.reconnectAttempts = none
  timer : start.shared.reconnectTimer = none
  run : connectionSystem.Run start trace pool
  alone : Lts.AllMeet (Program.OnRun fun manager task _ =>
    manager.intervenes task = false) trace

/-- A failed attempt is reported to a room that may reconnect. -/
def ConnectionManager.FailureHeard (manager : ConnectionManager) :
    RoomTask → Prop
  | .afterManagedReconnect call =>
      manager.settled? call = some false →
        manager.suppressReconnect = false ∧
          ∀ runtime, manager.runtime = some runtime →
            runtime.bucketFull = false
  | _ => True

/-- The delays grow with the attempts made, and the last failure stalls the
room. -/
structure BacksOff (trace : ConnectionTrace)
    (pool : Pool ConnectionManager RoomTask) : Prop where
  delay : ∀ timer, pool.shared.reconnectTimer = some timer →
    timer.delay = min (1000 * 2 ^ attemptsMade trace) MAX_RECONNECT_DELAY_MS
  ends : MAX_RECONNECT_ATTEMPTS ≤ attemptsMade trace →
    pool.shared.reconnectTimer = none
  failed : ∀ earlier before call outside,
    trace = earlier ++
      [(before, .run (.afterManagedReconnect call) outside)] →
    before.shared.settled? call = some false →
    before.shared.runtime ≠ none →
      (0 < attemptsMade trace → attemptsMade trace < MAX_RECONNECT_ATTEMPTS →
        pool.shared.reconnectTimer ≠ none) ∧
      (MAX_RECONNECT_ATTEMPTS ≤ attemptsMade trace →
        pool.shared.stalled = true)

/-- The counter has counted the attempts of the run. -/
structure Counted (trace : ConnectionTrace) (manager : ConnectionManager) :
    Prop where
  attempting : manager.Attempting
  counted : manager.nextAttempt = attemptsMade trace
  locked : manager.appLocked = true → attemptsMade trace = 0

variable {manager after : ConnectionManager} {trace : ConnectionTrace}
  {start pool next : Pool ConnectionManager RoomTask}
  {label : PoolLabel RoomTask Surroundings}

theorem attemptsMade_snoc (trace : ConnectionTrace)
    (pool : Pool ConnectionManager RoomTask)
    (label : PoolLabel RoomTask Surroundings) :
    attemptsMade (trace ++ [(pool, label)]) =
      attemptsMade trace + if startsAttempt pool label then 1 else 0 := by
  simp [attemptsMade, List.countP_append, List.countP_singleton]

theorem Counted.steady (counted : Counted trace manager)
    (steady : Steady manager after) : Counted trace after := by
  refine ⟨steady.attempting counted.attempting, ?_, ?_⟩
  · exact steady.nextAttempt.trans counted.counted
  · intro held
    exact counted.locked (steady.locked ▸ held)

/-- One step of a failing run that keeps the counter. -/
theorem Counted.step (counted : Counted trace pool.shared)
    (step : connectionManager.Step pool label next)
    (alone : Program.OnRun (fun manager task _ =>
      manager.intervenes task = false) pool label)
    (kept : Program.OnRun (fun manager task outside =>
      manager.CounterKept outside task) pool label) :
    Counted (trace ++ [(pool, label)]) next.shared := by
  cases label with
  | spawn task =>
      have same : attemptsMade (trace ++ [(pool, .spawn task)]) =
          attemptsMade trace := by
        rw [attemptsMade_snoc]
        rfl
      rw [(Program.Step.spawn_inv step).2.1]
      exact ⟨counted.attempting, same ▸ counted.counted,
        same ▸ counted.locked⟩
  | run task outside =>
      obtain ⟨acts, others, runs, -, -⟩ := Program.Step.run_inv step
      obtain ⟨turn, taken, same⟩ := Option.map_eq_some_iff.mp runs
      obtain ⟨cleared, -⟩ := Prod.mk.inj same
      rw [← cleared]
      have idle : Steady turn.1 { turn.1 with queued := [] } :=
        .of_same rfl rfl rfl id
      by_cases waits : task = .managedReconnect → pool.shared.room = none
      · have same : attemptsMade (trace ++ [(pool, .run task outside)]) =
            attemptsMade trace := by
          rw [attemptsMade_snoc]
          cases task with
          | managedReconnect => simp [startsAttempt, waits rfl]
          | _ => rfl
        have steady := (task.steady taken alone kept waits).trans idle
        obtain ⟨attempting, number, locked⟩ := counted.steady steady
        exact ⟨attempting, same ▸ number, same ▸ locked⟩
      · obtain ⟨rfl, opened⟩ := Classical.not_imp.mp waits
        obtain ⟨timer, set, steady⟩ :=
          RoomTask.run_managedReconnect taken opened
        have more : attemptsMade
            (trace ++ [(pool, .run .managedReconnect outside)]) =
              attemptsMade trace + 1 := by
          rw [attemptsMade_snoc]
          simp [startsAttempt, Option.isSome_iff_ne_none, opened]
        obtain ⟨number, -, unlocked⟩ := counted.attempting.timer timer set
        have before := counted.attempting.start set
        have steady := steady.trans idle
        refine ⟨steady.attempting before, ?_, ?_⟩
        · rw [steady.nextAttempt, more, ← counted.counted, ← number]
          rfl
        · intro held
          rw [steady.locked] at held
          cases unlocked.symm.trans held

/-- The counter counts the attempts of a failing run, as long as no reconnect
deletes it. -/
theorem FailingRun.counted (fails : FailingRun start trace pool)
    (kept : Lts.AllMeet (Program.OnRun fun manager task outside =>
      manager.CounterKept outside task) trace) :
    Counted trace pool.shared := by
  obtain ⟨reachable, attempts, -, run, alone⟩ := fails
  induction run with
  | refl =>
      refine ⟨attempting_of_reachable reachable, ?_, fun _ => rfl⟩
      simp [nextAttempt, attempts, attemptsMade]
  | snoc _ step induction =>
      obtain ⟨keptBefore, keptLast⟩ := Lts.allMeet_append.mp kept
      obtain ⟨aloneBefore, aloneLast⟩ := Lts.allMeet_append.mp alone
      exact (induction keptBefore aloneBefore).step step
        (aloneLast _ (List.mem_singleton_self _))
        (keptLast _ (List.mem_singleton_self _))

/-- What the scheduler does for a room that may reconnect. -/
theorem scheduleManagedReconnect_free {runtime : RoomRuntime}
    (attempting : manager.Attempting) (shown : manager.runtime = some runtime)
    (unlocked : manager.appLocked = false)
    (active : manager.suppressReconnect = false)
    (free : runtime.bucketFull = false) :
    (manager.nextAttempt < MAX_RECONNECT_ATTEMPTS →
      manager.scheduleManagedReconnect.reconnectTimer ≠ none) ∧
    (MAX_RECONNECT_ATTEMPTS ≤ manager.nextAttempt →
      manager.scheduleManagedReconnect.stalled = true) := by
  unfold scheduleManagedReconnect
  cases stops : runtime.reconnectStalled with
  | true =>
      have held : manager.stalled = true := by simp [stalled, shown, stops]
      have reached := attempting.stalled held
      simp only [shown, stops, Bool.or_true, if_true]
      exact ⟨fun below => absurd below (Nat.not_lt_of_le reached),
        fun _ => held⟩
  | false =>
      simp only [shown, unlocked, active, free, stops, Bool.or_false,
        Bool.false_eq_true, if_false]
      have same : manager.cancelManagedReconnect.reconnectAttempts.getD 0 =
        manager.nextAttempt := rfl
      rw [same]
      split
      · rename_i reached
        refine ⟨fun below => absurd below (Nat.not_lt_of_le reached), ?_⟩
        intro _
        have runs : manager.cancelManagedReconnect.runtime = some runtime :=
          shown
        simp [stalled, markReconnectStalled, runs]
      · rename_i more
        exact ⟨fun _ => Option.some_ne_none _,
          fun reached => absurd reached more⟩

/-- As long as no reconnect deletes the counter, and every failure is reported
to a room that may reconnect, the attempts back off and come to an end. -/
theorem managed_reconnects_back_off (fails : FailingRun start trace pool)
    (undisturbed : Lts.AllMeet (Program.OnRun fun manager task outside =>
      manager.CounterKept outside task ∧ manager.FailureHeard task) trace) :
    BacksOff trace pool := by
  have kept : Lts.AllMeet (Program.OnRun fun manager task outside =>
      manager.CounterKept outside task) trace := by
    rintro ⟨before, label⟩ member
    cases label with
    | spawn task => trivial
    | run task outside => exact (undisturbed _ member).1
  have counted := fails.counted kept
  refine ⟨?_, ?_, ?_⟩
  · intro timer set
    obtain ⟨same, -, -⟩ := counted.attempting.timer timer set
    rw [ReconnectTimer.delay, same, counted.counted]
  · intro reached
    cases set : pool.shared.reconnectTimer with
    | none => rfl
    | some timer =>
        obtain ⟨same, below, -⟩ := counted.attempting.timer timer set
        rw [same, counted.counted] at below
        omega
  · rintro earlier before call outside rfl failure opened
    obtain ⟨run, step⟩ := fails.run.of_snoc
    obtain ⟨keptBefore, -⟩ := Lts.allMeet_append.mp kept
    obtain ⟨aloneBefore, -⟩ := Lts.allMeet_append.mp fails.alone
    have counted : Counted earlier before.shared :=
      FailingRun.counted ⟨fails.reachable, fails.attempts, fails.timer, run,
        aloneBefore⟩ keptBefore
    have heard : before.shared.FailureHeard (.afterManagedReconnect call) :=
      (undisturbed _ (List.mem_append_right _ (List.mem_singleton_self _))).2
    obtain ⟨active, free⟩ := heard failure
    obtain ⟨runtime, shown⟩ := Option.ne_none_iff_exists'.mp opened
    have free := free runtime shown
    obtain ⟨acts, others, runs, -, -⟩ := Program.Step.run_inv step
    have same : pool.shared =
        { before.shared.scheduleManagedReconnect with queued := [] } := by
      obtain ⟨turn, taken, same⟩ := Option.map_eq_some_iff.mp runs
      obtain ⟨cleared, -⟩ := Prod.mk.inj same
      rw [← cleared]
      simp only [RoomTask.run, failure, shown, free, Option.map_some,
        Bool.or_false, Bool.false_eq_true, if_false,
        Option.some.injEq] at taken
      rw [← taken]
    have number : attemptsMade (earlier ++
        [(before, .run (.afterManagedReconnect call) outside)]) =
          before.shared.nextAttempt := by
      rw [attemptsMade_snoc, counted.counted]
      rfl
    rw [number, same]
    have freed := fun unlocked => scheduleManagedReconnect_free
      counted.attempting shown unlocked active free
    have unlocked : 0 < before.shared.nextAttempt →
        before.shared.appLocked = false := by
      intro made
      apply Bool.eq_false_of_not_eq_true
      intro held
      have none := counted.locked held
      rw [← counted.counted] at none
      omega
    constructor
    · intro made below
      exact (freed (unlocked made)).1 below
    · intro reached
      exact (freed (unlocked ((by decide : 0 < 10).trans_le reached))).2
        reached

/-- A failing run that is played from a room that has been opened. -/
theorem FailingRun.of_played
    {opening moves : List (Program.Move RoomTask Surroundings)}
    {earlier : ConnectionTrace}
    (entriesOpening : opening.all fun
      | .spawn task => task.isEntry
      | .run _ _ => true)
    (opened : connectionManager.play ⟨.blank, []⟩ opening =
      some (earlier, start))
    (attempts : start.shared.reconnectAttempts = none)
    (timer : start.shared.reconnectTimer = none)
    (entries : moves.all fun
      | .spawn task => task.isEntry
      | .run _ _ => true)
    (played : connectionManager.play start moves = some (trace, pool))
    (alone : ∀ label ∈ trace.map Prod.snd,
      ∀ pool : Pool ConnectionManager RoomTask,
        Program.OnRun (fun manager task _ => manager.intervenes task = false)
          pool label) :
    FailingRun start trace pool := by
  refine ⟨played_reachable entriesOpening opened, attempts, timer, ?_, ?_⟩
  · refine Program.play_run ?_ played
    intro task member
    exact List.all_eq_true.mp entries _ member
  · intro entry member
    exact alone _ (List.mem_map_of_mem member) entry.1

/-- A room whose first connection does not come about. -/
private def firstFails : List (Program.Move RoomTask Surroundings) :=
  [.spawn .callOpenRoom, .run 0 untroubled, .run 0 untroubled,
    .run 1 untroubled, .run 1 untroubled, .run 1 untroubled,
    .run 1 untroubled, .run 2 untroubled,
    .run 1 { untroubled with elapsed := true }, .run 0 untroubled]

/-- The first attempt fails because the room's seat was released. -/
private def seatGone : List (Program.Move RoomTask Surroundings) :=
  [.spawn (.socketClose 0 1006), .run 3 untroubled, .spawn .managedReconnect,
    .run 4 untroubled, .run 4 { untroubled with seatReleased := true },
    .run 4 untroubled]

theorem second_attempt_backs_off :
    ∃ start trace pool, FailingRun start trace pool ∧
      attemptsMade trace = 1 ∧ BacksOff trace pool ∧
      pool.shared.reconnectTimer = some ⟨1, 1⟩ := by
  obtain ⟨opening, start, trace, pool, opened, attempts, timer, played, made,
      set, steps⟩ :
      ∃ opening start trace pool,
        connectionManager.play ⟨.blank, []⟩ firstFails =
          some (opening, start) ∧
        start.shared.reconnectAttempts = none ∧
        start.shared.reconnectTimer = none ∧
        connectionManager.play start seatGone = some (trace, pool) ∧
        attemptsMade trace = 1 ∧
        pool.shared.reconnectTimer = some ⟨1, 1⟩ ∧
        trace.map (fun entry => (entry.1.shared.suppressReconnect,
            entry.1.shared.runtime.any RoomRuntime.bucketFull, entry.2)) =
          [(false, false, .spawn (.socketClose 0 1006)),
            (false, false, .run (.socketClose 0 1006) untroubled),
            (false, false, .spawn .managedReconnect),
            (false, false, .run .managedReconnect untroubled),
            (false, false, .run (.reconnectRoom 2)
              { untroubled with seatReleased := true }),
            (false, false, .run (.afterManagedReconnect 2) untroubled)] :=
    ⟨_, _, _, _, rfl, rfl, rfl, rfl, rfl, rfl, rfl⟩
  have labels := congrArg (List.map fun entry => entry.2.2) steps
  rw [List.map_map] at labels
  have fails : FailingRun start trace pool := by
    apply FailingRun.of_played (by decide) opened attempts timer (by decide)
      played
    intro label member pool
    rw [show trace.map Prod.snd = _ from labels] at member
    simp only [List.map_cons, List.map_nil, List.mem_cons, List.not_mem_nil,
      or_false] at member
    rcases member with rfl | rfl | rfl | rfl | rfl | rfl <;> trivial
  refine ⟨start, trace, pool, fails, made,
    managed_reconnects_back_off fails ?_, set⟩
  rintro ⟨before, label⟩ member
  have listed := List.mem_map_of_mem
    (f := fun entry => (entry.1.shared.suppressReconnect,
      entry.1.shared.runtime.any RoomRuntime.bucketFull, entry.2)) member
  rw [steps] at listed
  simp only [List.mem_cons, Prod.mk.injEq, List.not_mem_nil, or_false]
    at listed
  rcases listed with ⟨-, -, rfl⟩ | ⟨-, -, rfl⟩ | ⟨-, -, rfl⟩ | ⟨-, -, rfl⟩ |
    ⟨-, -, rfl⟩ | ⟨active, free, rfl⟩
  · trivial
  · exact ⟨trivial, trivial⟩
  · trivial
  · exact ⟨trivial, trivial⟩
  · exact ⟨.inl rfl, trivial⟩
  · refine ⟨trivial, fun _ => ⟨active, fun runtime shown => ?_⟩⟩
    rw [shown] at free
    exact free

/-- The first attempt gets as far as its socket, which does not open in time. -/
private def attemptFails : List (Program.Move RoomTask Surroundings) :=
  [.spawn (.socketClose 0 1006), .run 3 untroubled, .spawn .managedReconnect,
    .run 4 untroubled, .run 4 untroubled, .run 5 untroubled,
    .run 5 untroubled, .run 5 untroubled, .run 6 untroubled,
    .run 5 { untroubled with elapsed := true }, .run 4 untroubled,
    .run 4 untroubled]

/-- The attempt after the first failure waits as long as the first did. -/
theorem second_attempt_after_one_second :
    ∃ start trace pool, FailingRun start trace pool ∧
      attemptsMade trace = 1 ∧
      (∃ timer, pool.shared.reconnectTimer = some timer ∧
        timer.delay = 1000) ∧
      ¬ BacksOff trace pool := by
  obtain ⟨opening, start, trace, pool, opened, attempts, timer, played, made,
      set, labels⟩ :
      ∃ opening start trace pool,
        connectionManager.play ⟨.blank, []⟩ firstFails =
          some (opening, start) ∧
        start.shared.reconnectAttempts = none ∧
        start.shared.reconnectTimer = none ∧
        connectionManager.play start attemptFails = some (trace, pool) ∧
        attemptsMade trace = 1 ∧
        pool.shared.reconnectTimer = some ⟨1, 0⟩ ∧
        trace.map Prod.snd =
          [.spawn (.socketClose 0 1006), .run (.socketClose 0 1006) untroubled,
            .spawn .managedReconnect, .run .managedReconnect untroubled,
            .run (.reconnectRoom 2) untroubled,
            .run (.flow (.reconnectClosing 0 0) 3) untroubled,
            .run (.flow .reconnectPause 3) untroubled,
            .run (.flow .connectToken 3) untroubled,
            .run (.openSocket 1 1) untroubled,
            .run (.flow (.waitForRelay 1) 3)
              { untroubled with elapsed := true },
            .run (.finish 3 2) untroubled,
            .run (.afterManagedReconnect 2) untroubled] :=
    ⟨_, _, _, _, rfl, rfl, rfl, rfl, rfl, rfl, rfl⟩
  have fails : FailingRun start trace pool := by
    apply FailingRun.of_played (by decide) opened attempts timer (by decide)
      played
    intro label member pool
    rw [labels] at member
    simp only [List.mem_cons, List.not_mem_nil, or_false] at member
    rcases member with rfl | rfl | rfl | rfl | rfl | rfl | rfl | rfl | rfl |
      rfl | rfl | rfl <;> trivial
  refine ⟨start, trace, pool, fails, made, ⟨_, set, by decide⟩, ?_⟩
  intro backsOff
  have delay := backsOff.delay _ set
  rw [made] at delay
  exact absurd delay (by decide)

end Byteln.Client

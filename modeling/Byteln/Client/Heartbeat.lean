import Byteln.Client.SingleFlow
import Byteln.Client.Superseded

/-!
# The heartbeat

Ticks, wake-up events and the timer of an unanswered ping share one pending
ping.  `connection` is the socket that the room is connected with; a ping that
is pending was sent on it, as long as nothing takes the client from the room
behind the heartbeat's back.  The page's clock is added to the connection
manager to say how old the ping is when `forceStaleReconnect` is invoked.
-/

namespace Byteln.Client

open Byteln.Library

def HEARTBEAT_TIMEOUT_MS : Nat := 70000

/-- The socket is connected, or was when it was told to close. -/
def ReadyState.up : ReadyState → Bool
  | .open | .closing => true
  | .connecting | .closed => false

namespace ConnectionManager

/-- The socket of the room's client, if it is up. -/
def connection (manager : ConnectionManager) : Option Nat :=
  ((manager.client.bind fun ref => manager.relayClients[ref]?).bind
    RelayClient.ws).filter fun ws =>
      (manager.sockets[ws]?).any fun socket => socket.readyState.up

/-- The step calls `sendHeartbeatPing` for a room that is connected. -/
def beats (manager : ConnectionManager) (outside : Surroundings) :
    RoomTask → Bool
  | .heartbeatTick =>
      manager.connected && !outside.hidden &&
        manager.runtime.any fun runtime => runtime.connState = .open
  | .ensureAllConnected =>
      manager.connected && !manager.appLocked &&
        manager.runtime.any fun runtime =>
          runtime.connState = .open && !runtime.bucketFull &&
            !runtime.reconnectStalled
  | _ => false

/-- The step sends a ping. -/
def pings (manager : ConnectionManager) (outside : Surroundings)
    (task : RoomTask) : Bool :=
  manager.beats outside task && !manager.heartbeatPending

/-- The step invokes `forceStaleReconnect`. -/
def forces (manager : ConnectionManager) (outside : Surroundings)
    (task : RoomTask) : Bool :=
  task = .heartbeatTimeout ||
    manager.beats outside task && manager.heartbeatPending

/-- While a ping is pending, the client whose connection it was sent on is not
taken from the room by a flow that does not know of it. -/
def KeepsConnection (manager : ConnectionManager) (task : RoomTask) : Prop :=
  manager.heartbeatPending = true →
    match task with
    | .flow (.reconnectClosing room _) _ => manager.room ≠ some room
    | .flow (.connectClosing room _) _ => manager.room ≠ some room
    | .flow (.relayClosing room _) _ => manager.room ≠ some room
    | .flow .openMessages _ => False
    | .closeTimeout wait =>
        ∀ known, manager.closeWaits[wait]? = some known →
          manager.client ≠ some known.client
    | _ => True

variable {manager before middle after : ConnectionManager}
  {tasks : List RoomTask}

/-! ## The connection of the room -/

theorem connection_congr (client : after.client = before.client)
    (relayClients : after.relayClients = before.relayClients)
    (sockets : after.sockets = before.sockets) :
    after.connection = before.connection := by
  unfold connection
  rw [client, relayClients, sockets]

theorem connection_eq_some {ws : Nat} :
    manager.connection = some ws ↔
      ∃ (ref : Nat) (client : RelayClient) (socket : Socket),
        manager.client = some ref ∧
        manager.relayClients[ref]? = some client ∧ client.ws = some ws ∧
        manager.sockets[ws]? = some socket ∧ socket.readyState.up = true := by
  simp [connection, Option.filter_eq_some_iff, Option.bind_eq_some_iff,
    Option.any_eq_true]
  grind

theorem connected_connection (connected : manager.connected = true) :
    ∃ ws, manager.connection = some ws := by
  unfold ConnectionManager.connected at connected
  split at connected
  · cases connected
  · rename_i ref isClient
    unfold clientConnected at connected
    split at connected
    · cases connected
    · rename_i client found
      split at connected
      · cases connected
      · rename_i ws owns
        split at connected
        · cases connected
        · rename_i socket present
          refine ⟨ws, connection_eq_some.mpr
            ⟨ref, client, socket, isClient, found, owns, present, ?_⟩⟩
          rw [of_decide_eq_true connected]
          rfl

/-! ## Steps that keep the ping -/

/-- A ping that is pending afterwards was pending before, and its connection
is still the room's. -/
structure Watches (before after : ConnectionManager) : Prop where
  pending : after.heartbeatPending = true → before.heartbeatPending = true
  connection : after.heartbeatPending = true →
    ∀ ws, before.connection = some ws → after.connection = some ws

theorem Watches.of_same
    (pending : after.heartbeatPending = before.heartbeatPending)
    (client : after.client = before.client)
    (relayClients : after.relayClients = before.relayClients)
    (sockets : after.sockets = before.sockets) : Watches before after :=
  ⟨fun held => pending ▸ held,
    fun _ _ isUp => (connection_congr client relayClients sockets).trans isUp⟩

theorem Watches.refl (manager : ConnectionManager) : Watches manager manager :=
  .of_same rfl rfl rfl rfl

theorem Watches.trans (first : Watches before middle)
    (second : Watches middle after) : Watches before after := by
  constructor
  · intro held
    exact first.pending (second.pending held)
  · intro held ws isUp
    apply second.connection held
    exact first.connection (second.pending held) ws isUp

theorem Watches.of_silent (silent : after.heartbeatPending = false) :
    Watches before after :=
  ⟨fun held => (nomatch silent.symm.trans held),
    fun held => (nomatch silent.symm.trans held)⟩

theorem modifyRuntime_watches (manager : ConnectionManager)
    (change : RoomRuntime → RoomRuntime) :
    Watches manager (manager.modifyRuntime change) :=
  .of_same rfl (client_modifyRuntime manager change) rfl rfl

/-- A socket that is up is not taken down by telling it to close. -/
theorem closeSocket_connection (ws : Nat) {own : Nat}
    (isUp : manager.connection = some own) :
    (manager.closeSocket ws).connection = some own := by
  obtain ⟨ref, client, socket, isClient, found, owns, present, up⟩ :=
    connection_eq_some.mp isUp
  by_cases same : ws = own
  · subst same
    refine connection_eq_some.mpr
      ⟨ref, client, _, isClient, found, owns,
        by rw [ConnectionManager.closeSocket, ConnectionManager.modifySocket,
          List.getElem?_modify_eq, present]; rfl, ?_⟩
    cases state : socket.readyState <;> simp_all [ReadyState.up]
  · refine connection_eq_some.mpr
      ⟨ref, client, socket, isClient, found, owns, ?_, up⟩
    simpa [ConnectionManager.closeSocket, ConnectionManager.modifySocket,
      same] using present

theorem closeSocket_watches (manager : ConnectionManager) (ws : Nat) :
    Watches manager (manager.closeSocket ws) :=
  ⟨id, fun _ _ isUp => closeSocket_connection ws isUp⟩

/-- A change that leaves the room's client its connection. -/
theorem modifyClient_watches {ref : Nat}
    {change : RelayClient → RelayClient}
    (kept : ∀ client ws, manager.relayClients[ref]? = some client →
      client.ws = some ws → manager.client = some ref →
        manager.connection = some ws → (change client).ws = some ws) :
    Watches manager (manager.modifyClient ref change) := by
  refine ⟨id, fun _ ws isUp => ?_⟩
  obtain ⟨own, client, socket, isClient, found, owns, present, up⟩ :=
    connection_eq_some.mp isUp
  apply connection_eq_some.mpr
  by_cases same : ref = own
  · subst same
    refine ⟨ref, change client, socket, isClient, ?_,
      kept client ws found owns isClient isUp, present, up⟩
    simp [ConnectionManager.modifyClient, found]
  · refine ⟨own, client, socket, isClient, ?_, owns, present, up⟩
    simpa [ConnectionManager.modifyClient, same] using found

theorem scheduleManagedReconnect_pending (manager : ConnectionManager) :
    manager.scheduleManagedReconnect.heartbeatPending =
      manager.heartbeatPending := by
  unfold scheduleManagedReconnect
  split
  · rfl
  · split
    · rfl
    · dsimp only
      split <;> rfl

theorem scheduleManagedReconnect_watches (manager : ConnectionManager) :
    Watches manager manager.scheduleManagedReconnect := by
  apply Watches.of_same (scheduleManagedReconnect_pending manager)
    (client_scheduleManagedReconnect manager)
  all_goals
    unfold scheduleManagedReconnect
    split
    · rfl
    · split
      · rfl
      · dsimp only
        split <;> rfl

/-- A client that is told to close keeps its connection until the close. -/
theorem closeAndWait_watches (manager : ConnectionManager) (ref : Nat) :
    Watches manager (manager.closeAndWait ref) := by
  have marked : Watches manager (manager.modifyClient ref fun client =>
      { client with
        autoReconnect := false
        reconnectTimer := false
        connectGeneration := client.connectGeneration + 1
        intentionalClose := true }) :=
    modifyClient_watches fun _ _ _ owns _ _ => owns
  apply marked.trans
  unfold ConnectionManager.closeAndWait
  dsimp only
  generalize manager.modifyClient ref _ = manager
  split
  · rename_i dead
    have dropped : Watches manager (manager.modifyClient ref fun client =>
        { client with ws := none }) := by
      apply modifyClient_watches
      intro client ws found owns _ isUp
      obtain ⟨-, -, socket, -, -, -, present, up⟩ :=
        connection_eq_some.mp isUp
      simp only [found, owns, Option.bind_some, Option.filter_some, present]
        at dead
      cases state : socket.readyState <;>
        simp_all [ReadyState.up]
    exact dropped.trans (.of_same rfl rfl rfl rfl)
  · exact (closeSocket_watches manager _).trans (.of_same rfl rfl rfl rfl)

theorem closeThen_pending (manager : ConnectionManager)
    (closing : Nat → RoomTask) (following : RoomTask) :
    (manager.closeThen closing following).1.heartbeatPending =
      manager.heartbeatPending := by
  unfold closeThen
  split
  · unfold ConnectionManager.closeAndWait
    dsimp only
    split <;> rfl
  · rfl

theorem closeRoomConnection_watches (manager : ConnectionManager) :
    Watches manager manager.closeRoomConnection := by
  unfold ConnectionManager.closeRoomConnection
  split
  · exact .refl manager
  · apply Watches.of_silent
    dsimp only
    split
    · rfl
    · rw [closeClient_eq]
      rfl

/-! ## Connect flows -/

theorem enter_watches (manager : ConnectionManager) (result : Nat)
    (awaiting : RoomTask) :
    Watches manager (manager.enter result awaiting).1 := by
  unfold enter
  split <;> exact .refl manager

theorem callReconnect_watches (manager : ConnectionManager)
    (following : Nat → List RoomTask) :
    Watches manager
      (manager.call ConnectionManager.reconnectRoom following).1 := by
  have added : Watches manager manager.newPromise := .of_same rfl rfl rfl rfl
  exact added.trans (enter_watches manager.newPromise _ _)

theorem callOpen_watches (manager : ConnectionManager)
    (following : Nat → List RoomTask) :
    Watches manager
      (manager.call ConnectionManager.openRoom following).1 := by
  have added : Watches manager manager.newPromise := .of_same rfl rfl rfl rfl
  exact added.trans (enter_watches manager.newPromise _ _)

theorem register_watches (manager : ConnectionManager) (result : Nat)
    {start : ConnectionManager → Nat → ConnectionManager × List RoomTask}
    (starts : ∀ manager promise,
      Watches manager (start manager promise).1) :
    Watches manager (manager.register result start).1 := by
  have added : Watches manager manager.newPromise := .of_same rfl rfl rfl rfl
  simp only [register, foldl_queue]
  exact (added.trans (starts _ _)).trans (.of_same rfl rfl rfl rfl)

theorem waitForRelay_watches (manager : ConnectionManager)
    (outside : Surroundings) (polls result : Nat) :
    Watches manager (manager.waitForRelay outside polls result).1 := by
  unfold waitForRelay
  split
  · exact .of_same rfl rfl rfl rfl
  · split
    · exact .of_same rfl rfl rfl rfl
    · exact .refl manager

theorem connectExisting_watches (manager : ConnectionManager)
    (room result : Nat) :
    Watches manager (manager.connectExisting room result).1 := by
  have suppressed : Watches manager
      { manager with suppressReconnect := true } := .of_same rfl rfl rfl rfl
  have marked := suppressed.trans (modifyRuntime_watches _ fun runtime =>
    { runtime with bucketFull := false, connState := .connecting })
  unfold connectExisting
  dsimp only
  split
  · exact marked.trans (closeAndWait_watches _ _)
  · exact marked

theorem connectRoom_watches (manager : ConnectionManager) (result : Nat) :
    Watches manager (manager.connectRoom result).1 := by
  unfold connectRoom
  split
  · exact .of_same rfl rfl rfl rfl
  · split
    · exact .of_same rfl rfl rfl rfl
    · exact Watches.trans (.of_silent rfl) (connectExisting_watches _ _ _)

theorem doOpenRoom_watches (manager : ConnectionManager)
    (outside : Surroundings) (result : Nat) :
    Watches manager (manager.doOpenRoom outside result).1 := by
  unfold doOpenRoom
  split
  · split
    · exact .of_same rfl rfl rfl rfl
    · exact connectExisting_watches manager _ _
  · split
    · exact .of_same rfl rfl rfl rfl
    · split <;> exact .refl manager

theorem doReconnectRoom_watches (manager : ConnectionManager)
    (result : Nat) : Watches manager (manager.doReconnectRoom result).1 := by
  have stopped : Watches manager
      { manager with suppressReconnect := true }.stopHeartbeat :=
    .of_silent rfl
  unfold doReconnectRoom
  dsimp only
  split
  · exact stopped
  · have marked := stopped.trans (modifyRuntime_watches _ fun runtime =>
      { runtime with bucketFull := false, reconnectStalled := false })
    split
    · exact marked.trans (closeAndWait_watches _ _)
    · exact marked

/-- The report that a client starts to connect. -/
theorem notify_starting_watches (manager : ConnectionManager) (ref : Nat)
    {s : ConnState} (detail : JSString)
    (starting : s = .connecting ∨ s = .reconnecting) :
    Watches manager (manager.notify ref s detail) := by
  unfold ConnectionManager.notify onStatus showStatus
  split
  · exact .refl manager
  · split
    · split
      · exact .refl manager
      · rcases starting with rfl | rfl
        · exact modifyRuntime_watches manager fun runtime =>
            { runtime with connState := .connecting, connDetail := detail }
        · exact modifyRuntime_watches manager fun runtime =>
            { runtime with connState := .reconnecting, connDetail := detail }
    · exact .refl manager

/-- A client that has no socket yet starts to connect. -/
theorem connect_watches {ref : Nat} {client : RelayClient}
    (found : manager.relayClients[ref]? = some client)
    (fresh : client.ws = none) : Watches manager (manager.connect ref) := by
  unfold ConnectionManager.connect
  rw [found]
  dsimp only
  rw [fresh]
  dsimp only
  have dropped : Watches manager (manager.modifyClient ref fun client =>
      { client with
        reconnectTimer := false
        ws := none
        intentionalClose :=
          if client.ws = none then client.intentionalClose else false }) := by
    apply modifyClient_watches
    intro client' ws found' owns
    obtain rfl := Option.some.inj (found.symm.trans found')
    cases fresh.symm.trans owns
  apply dropped.trans
  generalize manager.modifyClient ref _ = dropping
  have told : Watches dropping (dropping.notify ref
      (if 0 < client.reconnectAttempt then .reconnecting else .connecting)
        []) := by
    apply notify_starting_watches
    split
    · exact .inr rfl
    · exact .inl rfl
  apply told.trans
  generalize dropping.notify ref _ _ = manager
  have counted : Watches manager (manager.modifyClient ref fun client' =>
      { client' with
        connectGeneration := client.connectGeneration + 1 }) :=
    modifyClient_watches fun _ _ _ owns _ _ => owns
  exact counted.trans (.of_same rfl rfl rfl rfl)

theorem client_setClient_of_ne {room : Nat} (client : Option Nat)
    (other : manager.room ≠ some room) :
    (manager.setClient room client).client = manager.client := by
  simp only [ConnectionManager.client, internalRoom, setClient,
    ConnectionManager.modifyRoom]
  cases opened : manager.room with
  | none => rfl
  | some ref =>
      have apart : room ≠ ref := by
        intro same
        exact other (same ▸ opened)
      simp [List.getElem?_modify, apart]

theorem setClient_watches {room : Nat} (client : Option Nat)
    (free : manager.heartbeatPending = true →
      manager.room ≠ some room ∨ manager.client = none) :
    Watches manager (manager.setClient room client) := by
  refine ⟨id, fun held ws isUp => ?_⟩
  rcases free held with other | none
  · exact (connection_congr (client_setClient_of_ne client other) rfl
      rfl).trans isUp
  · simp [connection, none] at isUp

/-- A client is made for a room that is not open, or has no client. -/
theorem startClient_watches {room : Nat} (outside : Surroundings)
    (result : Nat) (free : manager.heartbeatPending = true →
      manager.room ≠ some room ∨ manager.client = none) :
    Watches manager (manager.startClient outside room result).1 := by
  have added : Watches manager { manager with
      relayClients := manager.relayClients ++
        [⟨none, false, 0, false, 0, false, manager.room.isSome⟩] } := by
    refine ⟨id, fun _ ws isUp => ?_⟩
    obtain ⟨ref, client, socket, isClient, found, owns, present, up⟩ :=
      connection_eq_some.mp isUp
    have inBounds := (List.getElem?_eq_some_iff.mp found).1
    exact connection_eq_some.mpr ⟨ref, client, socket, isClient,
      (List.getElem?_append_left inBounds).trans found, owns, present, up⟩
  have made : Watches manager (manager.withClient room) :=
    added.trans (setClient_watches _ free)
  have found : (manager.withClient room).relayClients[
      manager.relayClients.length]? =
        some ⟨none, false, 0, false, 0, false, manager.room.isSome⟩ := by
    simp [ConnectionManager.withClient, setClient,
      ConnectionManager.modifyRoom]
  exact (made.trans (connect_watches found rfl)).trans
    (waitForRelay_watches _ outside 0 result)

theorem connectRelay_watches (manager : ConnectionManager)
    (outside : Surroundings) (result : Nat) :
    Watches manager (manager.connectRelay outside result).1 := by
  unfold connectRelay
  split
  · exact .of_same rfl rfl rfl rfl
  · split
    · exact .of_same rfl rfl rfl rfl
    · have marked := modifyRuntime_watches manager fun runtime =>
        { runtime with bucketFull := false }
      apply marked.trans
      dsimp only
      split
      · exact closeAndWait_watches _ _
      · rename_i noClient
        exact startClient_watches outside result fun _ => .inr noClient

theorem flow_watches {outside : Surroundings} {result : Nat}
    {stage : ConnectFlow} {turn : ConnectionManager × List RoomTask}
    (keeps : manager.KeepsConnection (.flow stage result))
    (goes : manager.flow outside result stage = some turn) :
    Watches manager turn.1 := by
  have unsuppressed : ∀ {turn : ConnectionManager × List RoomTask},
      Watches manager turn.1 → Watches manager (unsuppress turn).1 :=
    fun watches => watches.trans (.of_same rfl rfl rfl rfl)
  have settles : ∀ value, Watches manager (manager.settle result value) :=
    fun _ => .of_same rfl rfl rfl rfl
  cases stage with
  | reconnectClosing room wait =>
      simp only [flow] at goes
      split at goes <;> cases goes
      exact setClient_watches none fun held => .inl (keeps held)
  | reconnectPause =>
      simp only [flow] at goes
      split at goes <;> cases goes
      · exact unsuppressed (enter_watches manager result _)
      · exact unsuppressed (connectRoom_watches manager result)
  | connectClosing room wait =>
      simp only [flow] at goes
      split at goes <;> cases goes
      exact setClient_watches none fun held => .inl (keeps held)
  | connectToken =>
      simp only [flow] at goes
      split at goes <;> cases goes
      · exact unsuppressed (connectRelay_watches manager outside result)
      · exact (settles false).trans (.of_same rfl rfl rfl rfl)
  | openCredentials =>
      simp only [flow] at goes
      split at goes <;> cases goes
      · exact .refl manager
      · exact settles false
  | openRecord =>
      simp only [flow] at goes
      split at goes <;> cases goes
      · exact .refl manager
      · exact settles false
  | openMessages =>
      apply Watches.of_silent
      cases goes
      exact Bool.eq_false_of_not_eq_true keeps
  | openPending =>
      cases goes
      exact .refl manager
  | openToken =>
      simp only [flow] at goes
      split at goes <;> cases goes
      · exact connectRelay_watches manager outside result
      · exact settles false
  | relayClosing room wait =>
      simp only [flow] at goes
      split at goes <;> cases goes
      have dropped := setClient_watches none fun held => .inl (keeps held)
      apply dropped.trans
      exact startClient_watches outside result fun held => .inl (keeps held)
  | waitForRelay polls =>
      cases goes
      exact waitForRelay_watches manager outside polls result

/-! ## Events of sockets -/

/-- The room's client has its handlers. -/
def RoomWired (manager : ConnectionManager) : Prop :=
  ∀ (ref : Nat) client, manager.client = some ref →
    manager.relayClients[ref]? = some client → client.wired = true

theorem RoomWired.retreats (wired : before.RoomWired)
    (retreats : Retreats before after) : after.RoomWired := by
  intro ref client' isClient found'
  obtain ⟨client, found⟩ := getElem?_of_length retreats.clientsLength found'
  have same := (retreats.clients ref client client' found found').wired
  rcases retreats.client with kept | gone
  · rw [same]
    exact wired ref client (kept ▸ isClient) found
  · cases gone.symm.trans isClient

/-- A client that nobody hears is not the room's. -/
theorem RoomWired.unheard (wired : manager.RoomWired)
    (sound : manager.Sound tasks) {ref : Nat}
    (unheard : manager.heardBy ref = none) : manager.client ≠ some ref := by
  intro isClient
  obtain ⟨room, opened, has⟩ := Option.bind_eq_some_iff.mp isClient
  obtain ⟨own, -, found⟩ := Option.bind_eq_some_iff.mp opened
  have inBounds := sound.roomClient own room ref found has
  have known := List.getElem?_eq_getElem inBounds
  have heard := wired ref _ isClient known
  simp [ConnectionManager.heardBy, known, heard,
    ConnectionManager.runtime, opened] at unheard

theorem Beside.watches {ref : Nat} (beside : Beside ref before after)
    (sound : before.Sound tasks) (other : before.client ≠ some ref)
    (pending : after.heartbeatPending = before.heartbeatPending) :
    Watches before after := by
  refine ⟨fun held => pending ▸ held, fun _ ws isUp => ?_⟩
  obtain ⟨own, client, socket, isClient, found, owns, present, up⟩ :=
    connection_eq_some.mp isUp
  have apart : own ≠ ref := by
    intro same
    exact other (same ▸ isClient)
  obtain ⟨socket', present', owner⟩ := sound.owned own client ws found owns
  obtain rfl := Option.some.inj (present.symm.trans present')
  exact connection_eq_some.mpr ⟨own, client, socket,
    beside.client.trans isClient, (beside.clients own apart).trans found,
    owns, beside.sockets ws socket present (owner ▸ apart), up⟩

theorem losePeer_pending (manager : ConnectionManager) :
    manager.losePeer.heartbeatPending = manager.heartbeatPending := by
  rw [losePeer_eq]

/-- A connection that opens, ends or fails stops the heartbeat. -/
theorem onStatus_silent (ref : Nat) {s : ConnState} (detail : JSString)
    (opened : manager.room ≠ none)
    (reports : s = .open ∨ s = .closed ∨ s = .error) :
    (manager.onStatus ref s detail).heartbeatPending = false := by
  rw [onStatus, if_neg opened]
  rcases reports with rfl | rfl | rfl
  · rfl
  · have stopped :
        (manager.showStatus .closed detail).heartbeatPending = false := rfl
    dsimp only
    rw [if_pos rfl]
    split
    · rw [losePeer_pending]
      unfold giveUpSeat
      dsimp only
      rw [closeClient_eq]
      dsimp only
      split <;> exact stopped
    · unfold handleDisconnectForReconnect
      split
      · exact (losePeer_pending _).trans stopped
      · split
        · exact (losePeer_pending _).trans stopped
        · rw [scheduleManagedReconnect_pending]
          exact (losePeer_pending _).trans stopped
  · exact (losePeer_pending _).trans rfl

/-- A report is heard and stops the heartbeat, or changes nothing. -/
theorem notify_watches (sound : manager.Sound tasks) (ref : Nat)
    {s : ConnState} (detail : JSString)
    (reports : s = .open ∨ s = .closed ∨ s = .error) :
    (manager.notify ref s detail).heartbeatPending = false ∨
      manager.heardBy ref = none ∧
        manager.notify ref s detail = manager := by
  cases heard : manager.heardBy ref with
  | none => exact .inr ⟨rfl, notify_unheard sound heard s detail⟩
  | some runtime =>
      obtain ⟨same, shown⟩ := notify_heard heard s detail
      rw [same]
      exact .inl (onStatus_silent ref detail (room_of_runtime shown) reports)

theorem onSocketOpen_watches (sound : manager.Sound tasks)
    (wired : manager.RoomWired) {ws : Nat}
    (opened : manager.onSocketOpen ws = some after) :
    Watches manager after := by
  unfold ConnectionManager.onSocketOpen at opened
  split at opened
  · rename_i ref seen found
    obtain rfl := Option.some.inj opened
    have beside : Beside ref manager ((manager.modifySocket ws fun socket =>
        { socket with readyState := .open }).modifyClient ref fun client =>
          { client with reconnectAttempt := 0 }) :=
      (Beside.modifySocket found rfl _).trans
        (.modifyClient _ ref fun _ => rfl)
    have kept : ((manager.modifySocket ws fun socket =>
        { socket with readyState := .open }).modifyClient ref fun client =>
          { client with reconnectAttempt := 0 }).Sound tasks := by
      apply (sound.connectedSocket found).retreats
      apply Retreats.modifyClient
      intro client _
      exact ⟨rfl, id, le_rfl, .inl rfl⟩
    rcases notify_watches kept ref [] (.inl rfl) with silent | ⟨deaf, same⟩
    · exact .of_silent silent
    · rw [same]
      rw [beside.heardBy] at deaf
      exact beside.watches sound (wired.unheard sound deaf) rfl
  · cases opened

theorem onSocketError_watches (sound : manager.Sound tasks)
    (wired : manager.RoomWired) {ws : Nat}
    (failed : manager.onSocketError ws = some after) :
    Watches manager after := by
  unfold ConnectionManager.onSocketError at failed
  split at failed
  · rename_i ref state found
    obtain rfl := Option.some.inj failed
    have closed : Retreats manager (manager.modifySocket ws fun socket =>
        { socket with readyState := .closed }) := by
      apply Retreats.modifySocket
      intro socket
      exact ⟨rfl, by simp [ReadyState.live]⟩
    have beside : Beside ref manager (manager.modifySocket ws fun socket =>
        { socket with readyState := .closed }) := .modifySocket found rfl _
    rcases notify_watches (sound.retreats closed) ref (js "socket error")
      (.inr (.inr rfl)) with silent | ⟨deaf, same⟩
    · exact .of_silent silent
    · rw [same]
      rw [beside.heardBy] at deaf
      exact beside.watches sound (wired.unheard sound deaf) rfl
  · cases failed

theorem finishWait_pending (manager : ConnectionManager) (wait : Nat) :
    (manager.finishWait wait).heartbeatPending = manager.heartbeatPending := by
  unfold ConnectionManager.finishWait
  split <;> rfl

theorem finishWaits_pending (manager : ConnectionManager) (ws : Nat) :
    (manager.finishWaits ws).heartbeatPending = manager.heartbeatPending := by
  apply finishWaits_rule
    (P := fun next => next.heartbeatPending = manager.heartbeatPending)
  · intro next wait _ before _ _
    exact (finishWait_pending next wait).trans before
  · rfl

theorem onSocketClose_watches (sound : manager.Sound tasks)
    (wired : manager.RoomWired) {ws code : Nat}
    (closed : manager.onSocketClose ws code = some after) :
    Watches manager after := by
  unfold ConnectionManager.onSocketClose at closed
  split at closed
  · rename_i ref state found
    obtain rfl := Option.some.inj closed
    have dropped := sound.closedSocket found
    have beside : Beside ref manager ((manager.modifySocket ws fun socket =>
        { socket with
          readyState := .closed, closeSeen := true }).modifyClient ref
            fun client => { client with ws := none }) :=
      (Beside.modifySocket found rfl _).trans
        (.modifyClient _ ref fun _ => rfl)
    have known : ((manager.modifySocket ws fun socket =>
        { socket with
          readyState := .closed, closeSeen := true }).modifyClient ref
            fun client => { client with ws := none }).sockets[ws]? =
        some ⟨ref, .closed, true⟩ := by
      simp [ConnectionManager.modifySocket, ConnectionManager.modifyClient,
        found]
    have kept := sound.retreats dropped
    rcases notify_watches kept ref (closeDetail code) (.inr (.inl rfl)) with
      silent | ⟨deaf, same⟩
    · apply Watches.of_silent
      rw [finishWaits_pending]
      exact silent
    · rw [same]
      rw [beside.heardBy] at deaf
      have retried := kept.noClientReconnect ref code
      have quiet : Beside ref manager
          (((manager.modifySocket ws fun socket =>
            { socket with
              readyState := .closed, closeSeen := true }).modifyClient ref
                fun client => { client with ws := none }).modifyClient ref
            fun client =>
              if !client.intentionalClose && code ≠ 4001 &&
                  client.autoReconnect
              then
                { client with
                  reconnectAttempt := client.reconnectAttempt + 1
                  reconnectTimer := true }
              else client) := by
        apply beside.trans
        apply Beside.modifyClient
        intro client
        split <;> rfl
      have waited := (kept.retreats retried).finishWaits_beside known rfl
      exact (quiet.trans waited).watches sound (wired.unheard sound deaf)
        (finishWaits_pending _ ws)
  · cases closed

theorem onSocketMessage_watches {ws : Nat}
    {handle : ConnectionManager → ConnectionManager}
    (handles : Watches manager (handle manager))
    (handled : manager.onSocketMessage ws handle = some after) :
    Watches manager after := by
  unfold ConnectionManager.onSocketMessage at handled
  split at handled
  · split at handled
    · obtain rfl := Option.some.inj handled
      exact .refl manager
    · obtain rfl := Option.some.inj handled
      split
      · exact handles
      · exact .refl manager
  · cases handled

theorem onControl_watches (manager : ConnectionManager) (msg : Control) :
    Watches manager (manager.onControl msg) := by
  unfold ConnectionManager.onControl
  split
  · exact .refl manager
  · cases msg with
    | pong => exact .of_silent rfl
    | slot => exact .refl manager
    | peerJoin => exact modifyRuntime_watches manager _
    | peerLeave => exact modifyRuntime_watches manager _

theorem onBinary_watches (manager : ConnectionManager) :
    Watches manager manager.onBinary := by
  unfold ConnectionManager.onBinary
  split
  · exact .refl manager
  · split
    · exact .refl manager
    · exact modifyRuntime_watches manager _

/-- The timer of a `closeAndWait` that is not about the room's client. -/
theorem finishWait_watches {wait : Nat}
    (keeps : manager.KeepsConnection (.closeTimeout wait)) :
    Watches manager (manager.finishWait wait) := by
  cases held : manager.heartbeatPending with
  | false => exact .of_silent ((finishWait_pending manager wait).trans held)
  | true =>
      have other := keeps held
      unfold ConnectionManager.finishWait
      split
      · rename_i client ws found
        have settled : Watches manager { manager with
            closeWaits := manager.closeWaits.modify wait fun wait =>
              { wait with settled := true } } := .of_same rfl rfl rfl rfl
        apply settled.trans
        apply modifyClient_watches
        intro _ _ _ _ isClient _
        exact absurd isClient (other _ found)
      · exact .refl manager

/-- A socket is opened only for a client that has none. -/
theorem openSocket_watches {ref generation : Nat}
    (sound : manager.Sound (.openSocket ref generation :: tasks)) :
    Watches manager (manager.openSocket ref generation) := by
  have fresh := (sound.opening ref generation (by
    rw [openings_append]
    exact List.mem_append_right _ List.mem_cons_self)).2
  unfold ConnectionManager.openSocket
  split
  · exact .refl manager
  · split
    · refine ⟨id, fun _ ws isUp => ?_⟩
      obtain ⟨own, client, socket, isClient, found, owns, present, up⟩ :=
        connection_eq_some.mp isUp
      have apart : ref ≠ own := by
        intro same
        obtain ⟨socket', present', owner⟩ :=
          sound.owned own client ws found owns
        exact fresh ws socket' present' (owner.trans same.symm)
      have inBounds := (List.getElem?_eq_some_iff.mp present).1
      refine connection_eq_some.mpr ⟨own, client, socket, isClient, ?_, owns,
        (List.getElem?_append_left inBounds).trans present, up⟩
      simpa [ConnectionManager.modifyClient, apart] using found
    · exact .refl manager

theorem forceStaleReconnect_watches (manager : ConnectionManager) :
    Watches manager manager.forceStaleReconnect.1 := by
  unfold ConnectionManager.forceStaleReconnect
  split
  · exact .refl manager
  · split
    · exact .refl manager
    · exact Watches.trans (.of_silent rfl) (callReconnect_watches _ _)

end ConnectionManager

open ConnectionManager

/-- What a beat does. -/
theorem RoomTask.run_beat {outside : Surroundings} {task : RoomTask}
    {manager : ConnectionManager} (beats : manager.beats outside task = true) :
    task.run outside manager = some manager.sendHeartbeatPing ∧
      manager.connected = true := by
  cases task with
  | heartbeatTick =>
      simp only [ConnectionManager.beats, Bool.and_eq_true, Bool.not_eq_true',
        Option.any_eq_true, decide_eq_true_eq] at beats
      obtain ⟨⟨connected, visible⟩, runtime, shown, opened⟩ := beats
      simp [RoomTask.run, shown, connected, visible, opened]
  | ensureAllConnected =>
      simp only [ConnectionManager.beats, Bool.and_eq_true, Bool.not_eq_true',
        Option.any_eq_true, decide_eq_true_eq] at beats
      obtain ⟨⟨connected, unlocked⟩, runtime, shown, ⟨opened, free⟩, moves⟩ :=
        beats
      simp [RoomTask.run, shown, connected, unlocked, opened, free, moves]
  | _ => cases beats

/-- A step that sends no ping keeps a pending ping with its connection, or
ends the wait for it. -/
theorem RoomTask.watches {outside : Surroundings} {task : RoomTask}
    {manager : ConnectionManager} {tasks : List RoomTask}
    {turn : ConnectionManager × List RoomTask}
    (sound : manager.Sound (task :: tasks)) (wired : manager.RoomWired)
    (keeps : manager.KeepsConnection task)
    (runs : task.run outside manager = some turn)
    (silent : manager.pings outside task = false) :
    Watches manager turn.1 := by
  have unchanged := Watches.refl manager
  have beaten : manager.beats outside task = true →
      Watches manager turn.1 := by
    intro beats
    obtain ⟨does, connected⟩ := RoomTask.run_beat beats
    obtain rfl := Option.some.inj (does.symm.trans runs)
    simp only [ConnectionManager.pings, beats, Bool.true_and,
      Bool.not_eq_false'] at silent
    simp only [ConnectionManager.sendHeartbeatPing, connected, silent,
      Bool.not_true, Bool.false_eq_true, if_false, if_true]
    exact forceStaleReconnect_watches manager
  cases task with
  | callOpenRoom =>
      cases runs
      exact callOpen_watches manager _
  | callReconnectRoom =>
      cases runs
      exact callReconnect_watches manager _
  | openRoom result =>
      simp only [RoomTask.run] at runs
      split at runs
      · cases runs
        exact .of_same rfl rfl rfl rfl
      · split at runs <;> cases runs
        · exact .of_same rfl rfl rfl rfl
        · exact register_watches manager result fun manager promise =>
            doOpenRoom_watches manager outside promise
  | reconnectRoom result =>
      simp only [RoomTask.run] at runs
      split at runs <;> cases runs
      · exact .of_same rfl rfl rfl rfl
      · have reset : Watches manager manager.resetReconnectState :=
          .of_same rfl (client_resetReconnectState manager) rfl rfl
        exact reset.trans (register_watches _ result doReconnectRoom_watches)
  | forward inflight result =>
      obtain ⟨ok, -, rfl⟩ := Option.map_eq_some_iff.mp runs
      exact .of_same rfl rfl rfl rfl
  | finish promise result =>
      obtain ⟨ok, -, rfl⟩ := Option.map_eq_some_iff.mp runs
      exact .of_same rfl rfl rfl rfl
  | flow stage result => exact flow_watches keeps runs
  | connectWithPin =>
      simp only [RoomTask.run] at runs
      split at runs <;> cases runs
      · exact closeRoomConnection_watches manager
      · exact unchanged
  | seatReclaimed =>
      cases runs
      exact callOpen_watches manager _
  | openSocket client generation =>
      cases runs
      exact openSocket_watches sound
  | closeTimeout wait =>
      cases runs
      exact finishWait_watches keeps
  | socketOpen ws =>
      obtain ⟨manager', opened, rfl⟩ := Option.map_eq_some_iff.mp runs
      exact onSocketOpen_watches sound wired opened
  | socketError ws =>
      obtain ⟨manager', failed, rfl⟩ := Option.map_eq_some_iff.mp runs
      exact onSocketError_watches sound wired failed
  | socketClose ws code =>
      obtain ⟨manager', closed, rfl⟩ := Option.map_eq_some_iff.mp runs
      exact onSocketClose_watches sound wired closed
  | socketControl ws msg =>
      obtain ⟨manager', handled, rfl⟩ := Option.map_eq_some_iff.mp runs
      exact onSocketMessage_watches (onControl_watches manager msg) handled
  | socketBinary ws =>
      obtain ⟨manager', handled, rfl⟩ := Option.map_eq_some_iff.mp runs
      exact onSocketMessage_watches (onBinary_watches manager) handled
  | clientReconnectTimer ref =>
      simp only [RoomTask.run] at runs
      split at runs
      · cases runs
      · rename_i client found
        rw [if_neg (by simp [(sound.passive ref client found).2])] at runs
        cases runs
  | managedReconnect =>
      simp only [RoomTask.run] at runs
      split at runs
      · cases runs
      · rename_i timer set
        have fired : Watches manager { manager with reconnectTimer := none } :=
          .of_same rfl rfl rfl rfl
        split at runs <;> cases runs
        · exact fired
        · have counted : Watches manager { manager with
              reconnectTimer := none
              reconnectAttempts := some (timer.attempt + 1) } :=
            .of_same rfl rfl rfl rfl
          exact counted.trans (callReconnect_watches _ _)
  | afterManagedReconnect promise =>
      obtain ⟨ok, -, rfl⟩ := Option.map_eq_some_iff.mp runs
      split
      · exact unchanged
      · split
        · exact unchanged
        · exact scheduleManagedReconnect_watches manager
  | heartbeatTick =>
      by_cases beats : manager.beats outside .heartbeatTick = true
      · exact beaten beats
      · simp only [RoomTask.run] at runs
        split at runs
        · cases runs
          exact unchanged
        · rename_i runtime shown
          split at runs
          · cases runs
            exact unchanged
          · rename_i ready
            exact absurd (by simpa [ConnectionManager.beats, shown,
              not_or, and_assoc, and_comm, and_left_comm] using ready) beats
  | heartbeatTimeout =>
      simp only [RoomTask.run] at runs
      split at runs <;> cases runs
      exact Watches.trans (.of_silent rfl) (forceStaleReconnect_watches _)
  | afterStaleReconnect promise =>
      obtain ⟨ok, -, rfl⟩ := Option.map_eq_some_iff.mp runs
      split
      · exact unchanged
      · split
        · exact unchanged
        · exact scheduleManagedReconnect_watches manager
  | ensureAllConnected =>
      by_cases beats : manager.beats outside .ensureAllConnected = true
      · exact beaten beats
      · simp only [RoomTask.run] at runs
        split at runs
        · cases runs
          exact unchanged
        · rename_i runtime shown
          split at runs
          · cases runs
            exact unchanged
          · rename_i unlocked
            split at runs
            · cases runs
              have reset : Watches manager manager.resetReconnectState :=
                .of_same rfl (client_resetReconnectState manager) rfl rfl
              exact reset.trans (callReconnect_watches _ _)
            · rename_i healthy
              split at runs
              · rename_i opened
                refine absurd ?_ beats
                simp only [Bool.or_eq_true, Bool.not_eq_true', not_or,
                  Bool.not_eq_true] at unlocked healthy
                simp [ConnectionManager.beats, shown, opened, unlocked,
                  healthy]
              · cases runs
                exact unchanged
  | offline =>
      cases runs
      exact modifyRuntime_watches manager fun runtime =>
        if runtime.connState = .open then
          { runtime with connDetail := js "offline" }
        else runtime
  | closeRoom =>
      cases runs
      exact (closeRoomConnection_watches manager).trans
        (.of_same rfl rfl rfl rfl)
  | releaseSeat =>
      cases runs
      exact .of_silent ((closeThen_pending _ _ _).trans rfl)
  | releaseSeatClosing wait =>
      simp only [RoomTask.run] at runs
      split at runs <;> cases runs
      exact unchanged
  | releaseSeatPause =>
      cases runs
      exact closeRoomConnection_watches manager
  | releaseSeatRecord =>
      cases runs
      exact .of_same rfl rfl rfl rfl
  | lock =>
      cases runs
      exact .of_silent ((closeThen_pending _ _ _).trans rfl)
  | lockClosing wait =>
      simp only [RoomTask.run] at runs
      split at runs <;> cases runs
      exact unchanged
  | lockPause =>
      cases runs
      exact (modifyRuntime_watches manager _).trans
        (closeRoomConnection_watches _)
  | restoreAll =>
      cases runs
      exact .of_same rfl rfl rfl rfl
  | messagesChanged fromPeer =>
      cases runs
      exact .of_same rfl rfl rfl rfl

/-! ## The handlers of the room's client -/

section Wired

variable {manager : ConnectionManager} {tasks : List RoomTask}
  {outside : Surroundings}

/-- A client that is made while the room is open gets its handlers. -/
theorem startClient_roomWired {room : Nat} (sound : manager.Sound tasks)
    (wired : manager.RoomWired) (result : Nat) :
    (manager.startClient outside room result).1.RoomWired := by
  have found : (manager.withClient room).relayClients[
      manager.relayClients.length]? =
        some ⟨none, false, 0, false, 0, false, manager.room.isSome⟩ := by
    simp [withClient, setClient, modifyRoom]
  have made : (manager.withClient room).RoomWired := by
    intro ref client isClient present
    by_cases opened : manager.room = some room
    · obtain rfl : manager.relayClients.length = ref :=
        Option.some.inj ((client_withClient sound opened).symm.trans isClient)
      obtain rfl := Option.some.inj (found.symm.trans present)
      simp [opened]
    · have isClient : manager.client = some ref :=
        (client_setClient_of_ne _ opened).symm.trans isClient
      obtain ⟨object, known, has⟩ := Option.bind_eq_some_iff.mp isClient
      obtain ⟨own, -, known⟩ := Option.bind_eq_some_iff.mp known
      have inBounds := sound.roomClient own object ref known has
      apply wired ref client isClient
      rw [← present]
      exact (List.getElem?_append_left inBounds).symm
  obtain ⟨middle, retreats, connects, -⟩ := connect_eq found
  have waits := waitForRelay_quiet
    ((manager.withClient room).connect manager.relayClients.length) outside 0
    result
  apply RoomWired.retreats _ waits.retreats
  rw [connects]
  have told := made.retreats retreats
  exact told

theorem flow_roomWired {stage : ConnectFlow} {result : Nat}
    {turn : ConnectionManager × List RoomTask} (sound : manager.Sound tasks)
    (wired : manager.RoomWired)
    (goes : manager.flow outside result stage = some turn) :
    turn.1.RoomWired := by
  have relays : (manager.connectRelay outside result).1.RoomWired := by
    unfold connectRelay
    split
    · exact wired
    · split
      · exact wired
      · have marked := Retreats.modifyRuntime manager fun runtime =>
          { runtime with bucketFull := false }
        dsimp only
        split
        · exact (wired.retreats marked).retreats (.closeAndWait _ _)
        · exact startClient_roomWired (sound.retreats marked)
            (wired.retreats marked) result
  cases stage with
  | reconnectClosing room wait =>
      simp only [flow] at goes
      split at goes <;> cases goes
      exact wired.retreats (.dropClient manager room)
  | reconnectPause =>
      simp only [flow] at goes
      split at goes <;> cases goes
      · exact wired.retreats
          (enter_quiet manager result rfl).unsuppress.retreats
      · exact wired.retreats
          (connectRoom_quiet manager result).unsuppress.retreats
  | connectClosing room wait =>
      simp only [flow] at goes
      split at goes <;> cases goes
      exact wired.retreats (.dropClient manager room)
  | connectToken =>
      simp only [flow] at goes
      split at goes <;> cases goes
      · exact relays
      · exact wired
  | openCredentials =>
      simp only [flow] at goes
      split at goes <;> cases goes <;> exact wired
  | openRecord =>
      simp only [flow] at goes
      split at goes <;> cases goes <;> exact wired
  | openMessages =>
      cases goes
      intro ref client isClient
      simp [ConnectionManager.client, internalRoom, addRoom] at isClient
  | openPending =>
      cases goes
      exact wired
  | openToken =>
      simp only [flow] at goes
      split at goes <;> cases goes
      · exact relays
      · exact wired
  | relayClosing room wait =>
      simp only [flow] at goes
      split at goes <;> cases goes
      have dropped := Retreats.dropClient manager room
      exact startClient_roomWired (sound.retreats dropped)
        (wired.retreats dropped) result
  | waitForRelay polls =>
      cases goes
      exact wired.retreats
        (waitForRelay_quiet manager outside polls result).retreats

theorem RoomTask.roomWired {task : RoomTask}
    {turn : ConnectionManager × List RoomTask} (sound : manager.Sound tasks)
    (wired : manager.RoomWired) (runs : task.run outside manager = some turn) :
    turn.1.RoomWired := by
  cases opens : task.opens with
  | false => exact wired.retreats (sound.quiet runs opens).retreats
  | true =>
      cases task with
      | flow stage result => exact flow_roomWired sound wired runs
      | openSocket client generation =>
          cases runs
          simp only [ConnectionManager.openSocket]
          split
          · exact wired
          · split
            · intro ref client' isClient found
              simp only [modifyClient] at found
              rw [List.getElem?_modify] at found
              obtain ⟨client, known, same⟩ := Option.map_eq_some_iff.mp found
              have kept := wired ref client isClient known
              split at same <;> subst same <;> exact kept
            · exact wired
      | socketOpen ws =>
          obtain ⟨manager', opened, rfl⟩ := Option.map_eq_some_iff.mp runs
          unfold ConnectionManager.onSocketOpen at opened
          split at opened
          · rename_i owner seen found
            obtain rfl := Option.some.inj opened
            apply RoomWired.retreats _ (.notify _ owner .open [])
            have kept : Retreats manager (manager.modifyClient owner
                fun client => { client with reconnectAttempt := 0 }) := by
              apply Retreats.modifyClient
              intro client _
              exact ⟨rfl, id, le_rfl, .inl rfl⟩
            have told := wired.retreats kept
            exact told
          · cases opened
      | _ => cases opens

theorem roomWired_of_reachable {pool : Pool ConnectionManager RoomTask}
    (reachable : connectionSystem.Reachable pool) :
    pool.shared.RoomWired := by
  have both := reachable.invariant
    (fun pool => connectionSystem.Reachable pool ∧ pool.shared.RoomWired)
    ?_ ?_
  · exact both.2
  · rintro pool rfl
    refine ⟨.start rfl, ?_⟩
    intro ref client isClient
    cases isClient
  · rintro pool label next ⟨reached, wired⟩ step
    refine ⟨reached.step step, ?_⟩
    cases label with
    | spawn task =>
        rw [(Program.Step.spawn_inv step).2.1]
        exact wired
    | run task outside =>
        obtain ⟨acts, others, runs, -, -⟩ := Program.Step.run_inv step
        obtain ⟨turn, taken, same⟩ := Option.map_eq_some_iff.mp runs
        obtain ⟨cleared, -⟩ := Prod.mk.inj same
        rw [← cleared]
        exact task.roomWired (sound_of_reachable reached).1 wired taken

end Wired

/-! ## The page's clock -/

/-- A ping that was sent on a socket. -/
structure Ping where
  ws : Nat
  sent : Nat
deriving DecidableEq

/-- The connection manager with the page's clock. -/
structure TimedPool where
  pool : Pool ConnectionManager RoomTask
  now : Nat
  /-- When the timer of a ping was last set. -/
  timeoutSet : Nat

structure TimedLabel where
  label : PoolLabel RoomTask Surroundings
  time : Nat

abbrev TimedTrace := List (TimedPool × TimedLabel)

namespace TimedPool

/-- The timer of a ping does not run before its time. -/
def due (state : TimedPool) (label : TimedLabel) : Bool :=
  match label.label with
  | .run .heartbeatTimeout _ =>
      state.timeoutSet + HEARTBEAT_TIMEOUT_MS ≤ label.time
  | _ => true

/-- The step sends a ping. -/
def pings (state : TimedPool) (label : TimedLabel) : Bool :=
  match label.label with
  | .run task outside => state.pool.shared.pings outside task
  | .spawn _ => false

/-- The step invokes `forceStaleReconnect`. -/
def forces (state : TimedPool) (label : TimedLabel) : Bool :=
  match label.label with
  | .run task outside => state.pool.shared.forces outside task
  | .spawn _ => false

def after (state : TimedPool) (label : TimedLabel)
    (pool : Pool ConnectionManager RoomTask) : TimedPool :=
  ⟨pool, label.time, if state.pings label then label.time else state.timeoutSet⟩

end TimedPool

/-- Steps take place one after the other, at times that do not go back. -/
def heartbeatSystem : Lts TimedPool TimedLabel where
  init := fun state => state.pool = ⟨.blank, []⟩
  step := fun state label next =>
    state.now ≤ label.time ∧ state.due label = true ∧
      connectionManager.Step state.pool label.label next.pool ∧
      next = state.after label next.pool

/-- A ping is outstanding from the moment it is sent until a pong arrives on
its socket, or another ping is sent. -/
def Ping.noted (ping : Option Ping) : TimedPool × TimedLabel → Option Ping
  | (state, label) =>
      match label.label with
      | .run (.socketControl ws .pong) _ => ping.filter fun ping => ping.ws ≠ ws
      | _ =>
          if state.pings label then
            state.pool.shared.connection.map fun ws => ⟨ws, label.time⟩
          else ping

def outstanding (trace : TimedTrace) : Option Ping :=
  trace.foldl Ping.noted none

/-- `forceStaleReconnect` is invoked only for a ping that has been outstanding
on the room's connection for the whole timeout. -/
def ForcesOnlyStale (trace : TimedTrace) : Prop :=
  ∀ earlier state label later, trace = earlier ++ (state, label) :: later →
    state.forces label = true →
      ∃ ping, outstanding earlier = some ping ∧
        state.pool.shared.connection = some ping.ws ∧
        ping.sent + HEARTBEAT_TIMEOUT_MS ≤ label.time

/-- No tick and no wake-up event finds a younger ping pending, and no flow
takes the client from the room while a ping is pending. -/
def TimedPool.Undisturbed (state : TimedPool) (label : TimedLabel) : Prop :=
  Program.OnRun (fun manager task outside =>
    (manager.beats outside task = true → manager.heartbeatPending = true →
      state.timeoutSet + HEARTBEAT_TIMEOUT_MS ≤ label.time) ∧
    manager.KeepsConnection task) state.pool label.label

/-- A ping that is pending is outstanding on the room's connection. -/
def Pinged (trace : TimedTrace) (state : TimedPool) : Prop :=
  state.pool.shared.heartbeatPending = true →
    ∃ ping, outstanding trace = some ping ∧
      state.pool.shared.connection = some ping.ws ∧
      ping.sent = state.timeoutSet

section Clock

variable {start state next : TimedPool} {label : TimedLabel}
  {trace : TimedTrace}

theorem outstanding_snoc (trace : TimedTrace)
    (entry : TimedPool × TimedLabel) :
    outstanding (trace ++ [entry]) = Ping.noted (outstanding trace) entry := by
  simp [outstanding, List.foldl_append]

theorem noted_spawn (ping : Option Ping) (state : TimedPool) (task : RoomTask)
    (time : Nat) : Ping.noted ping (state, ⟨.spawn task, time⟩) = ping := rfl

theorem noted_pings (ping : Option Ping) {task : RoomTask}
    {outside : Surroundings} {time : Nat}
    (pings : state.pool.shared.pings outside task = true) :
    Ping.noted ping (state, ⟨.run task outside, time⟩) =
      state.pool.shared.connection.map fun ws => ⟨ws, time⟩ := by
  cases task with
  | heartbeatTick => exact if_pos pings
  | ensureAllConnected => exact if_pos pings
  | _ => cases pings

theorem noted_silent {ping : Ping} {task : RoomTask}
    {outside : Surroundings} {time : Nat}
    (silent : state.pool.shared.pings outside task = false)
    (unanswered : task ≠ .socketControl ping.ws .pong) :
    Ping.noted (some ping) (state, ⟨.run task outside, time⟩) = some ping := by
  cases task with
  | socketControl ws msg =>
      cases msg with
      | pong =>
          have other : ping.ws ≠ ws := by
            intro same
            exact unanswered (same ▸ rfl)
          simp [Ping.noted, other]
      | _ => rfl
  | heartbeatTick => exact if_neg (Bool.eq_false_iff.mp silent)
  | ensureAllConnected => exact if_neg (Bool.eq_false_iff.mp silent)
  | _ => rfl

/-- The pong of the room's connection ends the wait. -/
theorem pong_silent {manager after : ConnectionManager}
    {tasks : List RoomTask} (sound : manager.Sound tasks)
    (wired : manager.RoomWired) {ws : Nat}
    (isUp : manager.connection = some ws)
    (handled : manager.onSocketMessage ws (fun manager =>
      manager.onControl .pong) = some after) :
    after.heartbeatPending = false := by
  obtain ⟨ref, client, socket, isClient, found, owns, present, -⟩ :=
    connection_eq_some.mp isUp
  obtain ⟨socket', present', owner⟩ := sound.owned ref client ws found owns
  obtain rfl := Option.some.inj (present.symm.trans present')
  have opened : manager.room ≠ none := by
    intro closed
    simp [ConnectionManager.client, internalRoom, closed] at isClient
  unfold onSocketMessage at handled
  split at handled
  · rename_i own seen known
    rw [present] at known
    obtain rfl := Option.some.inj known
    obtain rfl : own = ref := owner
    rw [found] at handled
    obtain rfl := Option.some.inj handled
    rw [if_pos (wired own client isClient found)]
    simp only [onControl, if_neg opened]
  · cases handled

/-- One step of a run in which no flow takes the client from the room. -/
theorem Pinged.step (pinged : Pinged trace state)
    (reachable : connectionSystem.Reachable state.pool)
    (taken : heartbeatSystem.step state label next)
    (undisturbed : TimedPool.Undisturbed state label) :
    Pinged (trace ++ [(state, label)]) next := by
  obtain ⟨-, -, step, same⟩ := taken
  obtain ⟨label, time⟩ := label
  generalize next.pool = pool at step same
  subst same
  intro held
  rw [outstanding_snoc]
  cases label with
  | spawn task =>
      have kept : pool.shared = state.pool.shared :=
        (Program.Step.spawn_inv step).2.1
      simp only [TimedPool.after, kept] at held
      simp only [TimedPool.after, kept, noted_spawn]
      exact pinged held
  | run task outside =>
      obtain ⟨sound, -⟩ := sound_of_reachable reachable
      have wired := roomWired_of_reachable reachable
      obtain ⟨acts, others, runs, perm, -⟩ := Program.Step.run_inv step
      obtain ⟨turn, ran, same⟩ := Option.map_eq_some_iff.mp runs
      obtain ⟨cleared, -⟩ := Prod.mk.inj same
      have sound : state.pool.shared.Sound (task :: others) :=
        sound.of_openings (openings_perm perm)
      have pending : turn.1.heartbeatPending = true := by
        simpa [TimedPool.after, ← cleared] using held
      have connection : pool.shared.connection = turn.1.connection := by
        rw [← cleared]
        rfl
      cases pings : state.pool.shared.pings outside task with
      | true =>
          simp only [ConnectionManager.pings, Bool.and_eq_true,
            Bool.not_eq_true'] at pings
          obtain ⟨beats, idle⟩ := pings
          obtain ⟨does, connected⟩ := RoomTask.run_beat beats
          obtain rfl := Option.some.inj (does.symm.trans ran)
          obtain ⟨ws, isUp⟩ := connected_connection connected
          have pings : state.pool.shared.pings outside task = true := by
            simp [ConnectionManager.pings, beats, idle]
          refine ⟨⟨ws, time⟩, ?_, ?_, ?_⟩
          · rw [noted_pings _ pings, isUp]
            rfl
          · rw [TimedPool.after, connection]
            simp only [sendHeartbeatPing, connected, idle, Bool.not_true,
              Bool.false_eq_true, if_false]
            exact isUp
          · simp [TimedPool.after, TimedPool.pings, pings]
      | false =>
          have watches := task.watches sound wired undisturbed.2 ran pings
          obtain ⟨ping, out, isUp, sent⟩ := pinged (watches.pending pending)
          have unanswered : task ≠ .socketControl ping.ws .pong := by
            rintro rfl
            obtain ⟨manager, handled, rfl⟩ := Option.map_eq_some_iff.mp ran
            cases (pong_silent sound wired isUp handled).symm.trans pending
          refine ⟨ping, ?_, ?_, ?_⟩
          · rw [out, noted_silent pings unanswered]
          · rw [TimedPool.after, connection]
            exact watches.connection pending ping.ws isUp
          · simp [TimedPool.after, TimedPool.pings, pings, sent]

theorem timed_reachable (initial : heartbeatSystem.init start)
    (run : heartbeatSystem.Run start trace state) :
    connectionSystem.Reachable state.pool := by
  induction run with
  | refl => exact .start initial
  | snoc _ taken induction => exact induction.step taken.2.2.1

theorem pinged_of_run (initial : heartbeatSystem.init start)
    (run : heartbeatSystem.Run start trace state)
    (undisturbed : Lts.AllMeet TimedPool.Undisturbed trace) :
    Pinged trace state := by
  induction run with
  | refl =>
      intro held
      rw [show start.pool = _ from initial] at held
      cases held
  | snoc earlier taken induction =>
      obtain ⟨before, last⟩ := Lts.allMeet_append.mp undisturbed
      exact (induction before).step (timed_reachable initial earlier) taken
        (last _ (List.mem_singleton_self _))

/-- As long as no tick and no wake-up event comes while a younger ping is
pending, only a ping that stayed unanswered for the whole timeout tears the
connection down. -/
theorem stale_pings_reconnect (initial : heartbeatSystem.init start)
    (run : heartbeatSystem.Run start trace state)
    (undisturbed : Lts.AllMeet TimedPool.Undisturbed trace) :
    ForcesOnlyStale trace := by
  rintro earlier before ⟨label, time⟩ later rfl forces
  have member : (before, ⟨label, time⟩) ∈
      earlier ++ (before, ⟨label, time⟩) :: later :=
    List.mem_append_right _ List.mem_cons_self
  obtain ⟨next, -, due, step, -⟩ := run.taken member
  have meets := undisturbed _ member
  have pinged := pinged_of_run initial run.before
    (Lts.allMeet_append.mp undisturbed).1
  cases label with
  | spawn task => cases forces
  | run task outside =>
      obtain ⟨pending, late⟩ :
          before.pool.shared.heartbeatPending = true ∧
            before.timeoutSet + HEARTBEAT_TIMEOUT_MS ≤ time := by
        rcases Bool.or_eq_true_iff.mp forces with timeout | beats
        · obtain rfl := of_decide_eq_true timeout
          obtain ⟨acts, others, runs, -, -⟩ := Program.Step.run_inv step
          obtain ⟨turn, ran, -⟩ := Option.map_eq_some_iff.mp runs
          refine ⟨?_, of_decide_eq_true due⟩
          by_contra idle
          simp [RoomTask.run, idle] at ran
        · obtain ⟨beats, pending⟩ := Bool.and_eq_true_iff.mp beats
          exact ⟨pending, meets.1 beats pending⟩
      obtain ⟨ping, out, isUp, sent⟩ := pinged pending
      exact ⟨ping, out, isUp, sent ▸ late⟩

/-- Play moves at their times. -/
def TimedPool.play (state : TimedPool) :
    List (Nat × Program.Move RoomTask Surroundings) →
      Option (TimedTrace × TimedPool)
  | [] => some ([], state)
  | (time, move) :: moves =>
      match connectionManager.play state.pool [move] with
      | some ([(_, label)], pool) =>
          if state.now ≤ time && state.due ⟨label, time⟩ then
            (TimedPool.play (state.after ⟨label, time⟩ pool) moves).map
              fun (trace, last) => ((state, ⟨label, time⟩) :: trace, last)
          else none
      | _ => none

/-- The moves played are a run, if outside only entries are started. -/
theorem TimedPool.play_run {last : TimedPool}
    {moves : List (Nat × Program.Move RoomTask Surroundings)}
    (entries : moves.all fun
      | (_, .spawn task) => task.isEntry
      | (_, .run _ _) => true)
    (played : state.play moves = some (trace, last)) :
    heartbeatSystem.Run state trace last := by
  induction moves generalizing state trace with
  | nil =>
      obtain ⟨rfl, rfl⟩ := Prod.mk.inj (Option.some.inj played)
      exact .refl _
  | cons move moves induction =>
      obtain ⟨time, move⟩ := move
      obtain ⟨first, later⟩ := Bool.and_eq_true_iff.mp entries
      simp only [TimedPool.play] at played
      split at played
      · rename_i before label pool moved
        split at played
        · rename_i timely
          obtain ⟨early, due⟩ := Bool.and_eq_true_iff.mp timely
          obtain ⟨⟨rest, last⟩, playedRest, equal⟩ :=
            Option.map_eq_some_iff.mp played
          obtain ⟨rfl, rfl⟩ := Prod.mk.inj equal
          have run : connectionSystem.Run state.pool ([] ++ [(before, label)])
              pool := by
            apply Program.play_run _ moved
            intro task member
            obtain rfl := List.mem_singleton.mp member
            exact first
          obtain ⟨none, step⟩ := run.of_snoc
          obtain rfl : state.pool = before := by
            generalize empty : [] = earlier at none
            cases none with
            | refl => rfl
            | snoc => simp at empty
          have taken : heartbeatSystem.step state ⟨label, time⟩
              (state.after ⟨label, time⟩ pool) :=
            ⟨of_decide_eq_true early, due, step, rfl⟩
          exact .cons taken (induction later playedRest)
        · cases played
      · cases played

end Clock

/-- A room is opened at once. -/
private def openedAtOnce : List (Nat × Program.Move RoomTask Surroundings) :=
  [(0, .spawn .callOpenRoom), (0, .run 0 untroubled), (0, .run 0 untroubled),
    (0, .run 1 untroubled), (0, .run 1 untroubled), (0, .run 1 untroubled),
    (0, .run 1 untroubled), (0, .run 2 untroubled),
    (0, .spawn (.socketOpen 0)), (0, .run 3 untroubled)]

/-- The page is shown after a second, and nothing is heard from then on. -/
private def shownThenSilent : List (Nat × Program.Move RoomTask Surroundings) :=
  openedAtOnce ++ [(1000, .spawn .ensureAllConnected),
    (1000, .run 4 untroubled), (71000, .spawn .heartbeatTimeout),
    (71000, .run 5 untroubled)]

/-- The step meets the condition whatever the state is, or finds no ping
pending. -/
private def idles : TimedPool × TimedLabel → Bool
  | (state, label) =>
      match label.label with
      | .spawn _ => true
      | .run .heartbeatTimeout _ => true
      | .run _ _ => !state.pool.shared.heartbeatPending

private theorem undisturbed_of_idles {trace : TimedTrace}
    (idle : trace.all idles = true) :
    Lts.AllMeet TimedPool.Undisturbed trace := by
  rintro ⟨state, ⟨label, time⟩⟩ member
  have idle := List.all_eq_true.mp idle _ member
  cases label with
  | spawn task => trivial
  | run task outside =>
      by_cases pending : state.pool.shared.heartbeatPending = true
      · have timeout : task = .heartbeatTimeout := by
          cases task with
          | heartbeatTimeout => rfl
          | _ => simp [idles, pending] at idle
        subst timeout
        exact ⟨fun beats => (nomatch beats), fun _ => trivial⟩
      · exact ⟨fun _ held => absurd held pending,
          fun held => absurd held pending⟩

theorem silent_connection_reconnects :
    ∃ trace state, heartbeatSystem.Run ⟨⟨.blank, []⟩, 0, 0⟩ trace state ∧
      trace.getLast?.any (fun entry => entry.1.forces entry.2) = true ∧
      ForcesOnlyStale trace := by
  obtain ⟨trace, state, played, last, idle⟩ : ∃ trace state,
      TimedPool.play ⟨⟨.blank, []⟩, 0, 0⟩ shownThenSilent =
        some (trace, state) ∧
      trace.getLast?.any (fun entry => entry.1.forces entry.2) = true ∧
      trace.all idles = true :=
    ⟨_, _, rfl, rfl, rfl⟩
  have initial : heartbeatSystem.init ⟨⟨.blank, []⟩, 0, 0⟩ := rfl
  have run := TimedPool.play_run (by decide) played
  exact ⟨trace, state, run, last,
    stale_pings_reconnect initial run (undisturbed_of_idles idle)⟩

/-- The page is shown after a second and goes online a millisecond later. -/
private def shownThenOnline : List (Nat × Program.Move RoomTask Surroundings) :=
  openedAtOnce ++ [(1000, .spawn .ensureAllConnected),
    (1000, .run 4 untroubled), (1001, .spawn .ensureAllConnected),
    (1001, .run 5 untroubled)]

/-- Two wake-up events a millisecond apart tear a connection down whose ping
is one millisecond old. -/
theorem two_wake_ups_reconnect :
    ∃ trace state, heartbeatSystem.Run ⟨⟨.blank, []⟩, 0, 0⟩ trace state ∧
      ¬ ForcesOnlyStale trace := by
  obtain ⟨trace, state, played, last, sent⟩ : ∃ trace state,
      TimedPool.play ⟨⟨.blank, []⟩, 0, 0⟩ shownThenOnline =
        some (trace, state) ∧
      trace.getLast?.map (fun entry =>
        (entry.1.forces entry.2, entry.2.time)) = some (true, 1001) ∧
      outstanding trace.dropLast = some ⟨0, 1000⟩ :=
    ⟨_, _, rfl, rfl, rfl⟩
  refine ⟨trace, state, TimedPool.play_run (by decide) played, ?_⟩
  intro stale
  obtain ⟨⟨before, label⟩, isLast, same⟩ := Option.map_eq_some_iff.mp last
  obtain ⟨forces, time⟩ := Prod.mk.inj same
  obtain ⟨ping, out, -, late⟩ := stale trace.dropLast before label []
    (List.dropLast_append_getLast? _ isLast).symm forces
  obtain rfl := Option.some.inj (sent.symm.trans out)
  rw [time] at late
  exact absurd late (by decide)

end Byteln.Client

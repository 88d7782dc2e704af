import Byteln.Library.CodeUnits
import Byteln.Library.ThreadPool

/-!
# The connection of a room

The part of the connection manager that opens, keeps and closes the relay
connection of one room, with the relay clients and WebSockets it makes.
Objects that are shared across an `await` are references into lists that only
grow: rooms, clients, sockets, the promises of the calls.  An activation is
the part of an `async` function from one `await` to the next, or an event
handler; what an activation starts besides itself is put in `queued`.  What
other parts of the page decide is read from outside.
-/

namespace Byteln.Client

open Byteln.Library

def MAX_OPEN_ROOMS : Nat := 10
def MAX_RECONNECT_ATTEMPTS : Nat := 10
/-- How often `waitForRelay` can look within its eight seconds. -/
def MAX_RELAY_POLLS : Nat := 8000 / 50

inductive ConnState where
  | connecting
  | open
  | closed
  | error
  | reconnecting
deriving DecidableEq

inductive ReadyState where
  | connecting
  | open
  | closing
  | closed
deriving DecidableEq

structure RoomRuntime where
  connState : ConnState
  connDetail : JSString
  peerPresent : Bool
  bucketFull : Bool
  reconnectAttempt : Nat
  reconnectStalled : Bool
deriving DecidableEq

structure InternalRoom where
  client : Option Nat
  runtime : RoomRuntime
deriving DecidableEq

structure RelayClient where
  ws : Option Nat
  intentionalClose : Bool
  reconnectAttempt : Nat
  reconnectTimer : Bool
  connectGeneration : Nat
  autoReconnect : Bool
  /-- `wireClient` has set the handlers. -/
  wired : Bool
deriving DecidableEq

structure Socket where
  client : Nat
  readyState : ReadyState
  /-- The close event has been delivered. -/
  closeSeen : Bool
deriving DecidableEq

/-- A promise of `closeAndWait`. -/
structure CloseWait where
  client : Nat
  ws : Option Nat
  settled : Bool
deriving DecidableEq

structure ReconnectTimer where
  handle : Nat
  attempt : Nat
deriving DecidableEq

inductive Control where
  | pong
  | slot
  | peerJoin
  | peerLeave
deriving DecidableEq

/-- Where a connect flow waits. -/
inductive ConnectFlow where
  | reconnectClosing (room wait : Nat)
  | reconnectPause
  | connectClosing (room wait : Nat)
  | connectToken
  | openCredentials
  | openRecord
  | openMessages
  | openPending
  | openToken
  | relayClosing (room wait : Nat)
  | waitForRelay (polls : Nat)
deriving DecidableEq

/-- `result` is the promise of the function an activation is a part of. -/
inductive RoomTask where
  | callOpenRoom
  | callReconnectRoom
  | openRoom (result : Nat)
  | reconnectRoom (result : Nat)
  | forward (inflight result : Nat)
  | finish (promise result : Nat)
  | flow (stage : ConnectFlow) (result : Nat)
  | connectWithPin
  | seatReclaimed
  | openSocket (client generation : Nat)
  | closeTimeout (wait : Nat)
  | socketOpen (ws : Nat)
  | socketError (ws : Nat)
  | socketClose (ws code : Nat)
  | socketControl (ws : Nat) (msg : Control)
  | socketBinary (ws : Nat)
  | clientReconnectTimer (client : Nat)
  | managedReconnect
  | afterManagedReconnect (call : Nat)
  | heartbeatTick
  | heartbeatTimeout
  | afterStaleReconnect (call : Nat)
  | ensureAllConnected
  | offline
  | closeRoom
  | releaseSeat
  | releaseSeatClosing (wait : Nat)
  | releaseSeatPause
  | releaseSeatRecord
  | lock
  | lockClosing (wait : Nat)
  | lockPause
  | restoreAll
  | messagesChanged (fromPeer : Bool)
deriving DecidableEq

structure ConnectionManager where
  /-- The room's entry in `rooms`. -/
  room : Option Nat
  internalRooms : List InternalRoom
  relayClients : List RelayClient
  sockets : List Socket
  closeWaits : List CloseWait
  /-- The promises of calls and connect flows, with their results. -/
  promises : List (Option Bool)
  /-- The room's entry in `openPromises`. -/
  openPromise : Option Nat
  reconnectTimer : Option ReconnectTimer
  reconnectAttempts : Option Nat
  heartbeatTimer : Option Nat
  heartbeatPending : Bool
  suppressReconnect : Bool
  appLocked : Bool
  /-- The shown messages of the room have one from the peer. -/
  peerMessages : Bool
  /-- Timer handles given out. -/
  handles : Nat
  queued : List RoomTask
deriving DecidableEq

/-- What a step reads from outside. -/
structure Surroundings where
  seatReleased : Bool
  /-- The number of other rooms in `rooms`. -/
  othersOpen : Nat
  /-- Credentials with a well-formed fragment are at hand. -/
  credentials : Bool
  /-- The room has a record. -/
  recorded : Bool
  /-- The room's record has a relay URL. -/
  relayUrl : Bool
  peerMessages : Bool
  relayToken : Bool
  deviceSessionId : Bool
  /-- The PIN fits the fragment. -/
  pinVerified : Bool
  /-- The time of `waitForRelay` is over. -/
  elapsed : Bool
  /-- The document is hidden. -/
  hidden : Bool

namespace ConnectionManager

/-- A page that has just been loaded. -/
def blank : ConnectionManager where
  room := none
  internalRooms := []
  relayClients := []
  sockets := []
  closeWaits := []
  promises := []
  openPromise := none
  reconnectTimer := none
  reconnectAttempts := none
  heartbeatTimer := none
  heartbeatPending := false
  suppressReconnect := false
  appLocked := false
  peerMessages := false
  handles := 0
  queued := []

def queue (manager : ConnectionManager) (task : RoomTask) : ConnectionManager :=
  { manager with queued := manager.queued ++ [task] }

/-! ## Objects -/

def modifyRoom (manager : ConnectionManager) (ref : Nat)
    (change : InternalRoom → InternalRoom) : ConnectionManager :=
  { manager with internalRooms := manager.internalRooms.modify ref change }

def modifyClient (manager : ConnectionManager) (ref : Nat)
    (change : RelayClient → RelayClient) : ConnectionManager :=
  { manager with relayClients := manager.relayClients.modify ref change }

def modifySocket (manager : ConnectionManager) (ref : Nat)
    (change : Socket → Socket) : ConnectionManager :=
  { manager with sockets := manager.sockets.modify ref change }

def setClient (manager : ConnectionManager) (ref : Nat)
    (client : Option Nat) : ConnectionManager :=
  manager.modifyRoom ref fun room => { room with client := client }

/-- The room that is open. -/
def internalRoom (manager : ConnectionManager) : Option InternalRoom :=
  manager.room.bind fun ref => manager.internalRooms[ref]?

def runtime (manager : ConnectionManager) : Option RoomRuntime :=
  manager.internalRoom.map InternalRoom.runtime

def client (manager : ConnectionManager) : Option Nat :=
  manager.internalRoom.bind InternalRoom.client

def modifyRuntime (manager : ConnectionManager)
    (change : RoomRuntime → RoomRuntime) : ConnectionManager :=
  { manager with
    internalRooms :=
      match manager.room with
      | none => manager.internalRooms
      | some ref =>
          manager.internalRooms.modify ref fun room =>
            { room with runtime := change room.runtime } }

/-- The `connected` of a relay client. -/
def clientConnected (manager : ConnectionManager) (ref : Nat) : Bool :=
  match manager.relayClients[ref]? with
  | none => false
  | some client =>
      match client.ws with
      | none => false
      | some ws =>
          match manager.sockets[ws]? with
          | none => false
          | some socket => socket.readyState = .open

/-- The client of the room is connected. -/
def connected (manager : ConnectionManager) : Bool :=
  match manager.client with
  | none => false
  | some ref => manager.clientConnected ref

def newPromise (manager : ConnectionManager) : ConnectionManager :=
  { manager with promises := manager.promises ++ [none] }

def settle (manager : ConnectionManager) (promise : Nat) (value : Bool) :
    ConnectionManager :=
  { manager with promises := manager.promises.set promise (some value) }

/-- The result of a promise that is settled. -/
def settled? (manager : ConnectionManager) (promise : Nat) : Option Bool :=
  manager.promises[promise]?.join

/-! ## Reconnecting and heartbeat -/

def cancelManagedReconnect (manager : ConnectionManager) : ConnectionManager :=
  { manager with reconnectTimer := none }

def resetReconnectState (manager : ConnectionManager) : ConnectionManager :=
  { manager.cancelManagedReconnect with
    reconnectAttempts := none }.modifyRuntime fun runtime =>
      { runtime with reconnectAttempt := 0, reconnectStalled := false }

def markReconnectStalled (manager : ConnectionManager) : ConnectionManager :=
  manager.modifyRuntime fun runtime =>
    { runtime with
      connState := .error
      connDetail := js "reconnect manually"
      reconnectStalled := true }

/-- The runtime while the timer of an attempt runs. -/
def reconnecting (attempt : Nat) (runtime : RoomRuntime) : RoomRuntime :=
  { runtime with
    connState := .reconnecting
    reconnectAttempt := attempt + 1
    reconnectStalled := false
    connDetail :=
      if 0 < attempt then js "attempt " ++ js (toString (attempt + 1))
      else [] }

def scheduleManagedReconnect (manager : ConnectionManager) :
    ConnectionManager :=
  match manager.runtime with
  | none => manager
  | some runtime =>
      if manager.appLocked || manager.suppressReconnect ||
          runtime.bucketFull || runtime.reconnectStalled then manager
      else
        let manager := manager.cancelManagedReconnect
        let attempt := manager.reconnectAttempts.getD 0
        if MAX_RECONNECT_ATTEMPTS ≤ attempt then manager.markReconnectStalled
        else
          { manager.modifyRuntime (reconnecting attempt) with
            reconnectTimer := some ⟨manager.handles, attempt⟩
            handles := manager.handles + 1 }

def handleDisconnectForReconnect (manager : ConnectionManager) :
    ConnectionManager :=
  match manager.runtime with
  | none => manager
  | some runtime =>
      if manager.suppressReconnect || manager.appLocked || runtime.bucketFull
      then manager
      else manager.scheduleManagedReconnect

def stopHeartbeat (manager : ConnectionManager) : ConnectionManager :=
  { manager with heartbeatTimer := none, heartbeatPending := false }

/-- The early tick of a new heartbeat is a `heartbeatTick` like the later
ones. -/
def startHeartbeat (manager : ConnectionManager) : ConnectionManager :=
  { manager.stopHeartbeat with
    heartbeatTimer := some manager.handles
    handles := manager.handles + 1 }

/-! ## The handlers of a room's clients -/

/-- `closeSocket` is the `close` of a WebSocket. -/
def closeSocket (manager : ConnectionManager) (ws : Nat) : ConnectionManager :=
  manager.modifySocket ws fun socket =>
    match socket.readyState with
    | .connecting => { socket with readyState := .closing }
    | .open => { socket with readyState := .closing }
    | .closing => socket
    | .closed => socket

/-- The `close` of a relay client. -/
def closeClient (manager : ConnectionManager) (ref : Nat) :
    ConnectionManager :=
  let closed :=
    match (manager.relayClients[ref]?).bind RelayClient.ws with
    | none => manager
    | some ws => manager.closeSocket ws
  closed.modifyClient ref fun client =>
    { client with
      autoReconnect := false
      reconnectTimer := false
      connectGeneration := client.connectGeneration + 1
      intentionalClose := true
      ws := none }

def BUCKET_FULL : JSString := js "bucket full"

/-- The first part of `onStatus`: the state that is shown, and the
heartbeat. -/
def showStatus (manager : ConnectionManager) (s : ConnState)
    (detail : JSString) : ConnectionManager :=
  if s = .open then
    (manager.resetReconnectState.modifyRuntime fun runtime =>
      { runtime with connState := .open, connDetail := [] }).startHeartbeat
  else if s = .closed || s = .error then
    (manager.modifyRuntime fun runtime =>
      { runtime with connState := s, connDetail := detail }).stopHeartbeat
  else
    manager.modifyRuntime fun runtime =>
      { runtime with connState := s, connDetail := detail }

/-- The part of `onStatus` for a full bucket. -/
def giveUpSeat (manager : ConnectionManager) (ref : Nat) :
    ConnectionManager :=
  let manager := (manager.modifyRuntime fun runtime =>
    { runtime with bucketFull := true }).cancelManagedReconnect
  let manager := manager.closeClient ref
  match manager.room with
  | none => manager
  | some room => manager.setClient room none

/-- The part of `onStatus` for a connection that ended. -/
def losePeer (manager : ConnectionManager) : ConnectionManager :=
  if manager.peerMessages then manager
  else manager.modifyRuntime fun runtime => { runtime with peerPresent := false }

/-- The `onStatus` of a wired client. -/
def onStatus (manager : ConnectionManager) (ref : Nat) (s : ConnState)
    (detail : JSString) : ConnectionManager :=
  if manager.room = none then manager
  else
    let shown := manager.showStatus s detail
    if s = .closed then
      if detail = BUCKET_FULL then (shown.giveUpSeat ref).losePeer
      else shown.losePeer.handleDisconnectForReconnect
    else if s = .error then shown.losePeer
    else shown

/-- A client reports its status to its handler, if it has one. -/
def notify (manager : ConnectionManager) (ref : Nat) (s : ConnState)
    (detail : JSString) : ConnectionManager :=
  match manager.relayClients[ref]? with
  | none => manager
  | some client =>
      if client.wired then manager.onStatus ref s detail else manager

def onControl (manager : ConnectionManager) (msg : Control) :
    ConnectionManager :=
  if manager.room = none then manager
  else
    match msg with
    | .pong => { manager with heartbeatPending := false }
    | .slot => manager
    | .peerJoin =>
        manager.modifyRuntime fun runtime =>
          { runtime with peerPresent := true }
    | .peerLeave =>
        manager.modifyRuntime fun runtime =>
          { runtime with peerPresent := false }

/-- The part of `onBinary` before it decrypts the frame. -/
def onBinary (manager : ConnectionManager) : ConnectionManager :=
  match manager.runtime with
  | none => manager
  | some runtime =>
      if runtime.bucketFull || runtime.peerPresent then manager
      else
        manager.modifyRuntime fun runtime =>
          { runtime with peerPresent := true }

/-! ## The relay client -/

/-- The `connect` of a relay client. -/
def connect (manager : ConnectionManager) (ref : Nat) : ConnectionManager :=
  match manager.relayClients[ref]? with
  | none => manager
  | some client =>
      let manager :=
        match client.ws with
        | none => manager
        | some ws => manager.closeSocket ws
      let manager := manager.modifyClient ref fun client =>
        { client with
          reconnectTimer := false
          ws := none
          intentionalClose :=
            if client.ws = none then client.intentionalClose else false }
      let manager := manager.notify ref
        (if 0 < client.reconnectAttempt then .reconnecting else .connecting) []
      let generation := client.connectGeneration + 1
      (manager.modifyClient ref fun client =>
        { client with connectGeneration := generation }).queue
          (.openSocket ref generation)

/-- Open the socket, unless the client was closed or connected anew while the
proof of work was being solved. -/
def openSocket (manager : ConnectionManager) (ref generation : Nat) :
    ConnectionManager :=
  match manager.relayClients[ref]? with
  | none => manager
  | some client =>
      if client.connectGeneration = generation then
        let ws := manager.sockets.length
        let socket : Socket := ⟨ref, .connecting, false⟩
        { manager with sockets := manager.sockets ++ [socket] }.modifyClient ref
          fun client => { client with ws := some ws }
      else manager

def onSocketOpen (manager : ConnectionManager) (ws : Nat) :
    Option ConnectionManager :=
  match manager.sockets[ws]? with
  | some ⟨ref, .connecting, _⟩ =>
      some (((manager.modifySocket ws fun socket =>
        { socket with readyState := .open }).modifyClient ref fun client =>
          { client with reconnectAttempt := 0 }).notify ref .open [])
  | _ => none

def onSocketError (manager : ConnectionManager) (ws : Nat) :
    Option ConnectionManager :=
  match manager.sockets[ws]? with
  | some ⟨ref, _, false⟩ =>
      some ((manager.modifySocket ws fun socket =>
        { socket with readyState := .closed }).notify ref .error
          (js "socket error"))
  | _ => none

/-- The `finish` of a `closeAndWait`. -/
def finishWait (manager : ConnectionManager) (ref : Nat) : ConnectionManager :=
  match manager.closeWaits[ref]? with
  | some ⟨client, some _, false⟩ =>
      { manager with
        closeWaits := manager.closeWaits.modify ref fun wait =>
          { wait with settled := true } }.modifyClient client fun client =>
            { client with intentionalClose := true, ws := none }
  | _ => manager

/-- The close listeners that `closeAndWait` has added to a socket. -/
def finishWaits (manager : ConnectionManager) (ws : Nat) : ConnectionManager :=
  (List.range manager.closeWaits.length).foldl
    (fun manager ref =>
      match manager.closeWaits[ref]? with
      | some wait =>
          if wait.ws = some ws then manager.finishWait ref else manager
      | none => manager)
    manager

def closeDetail (code : Nat) : JSString :=
  if code = 4001 then BUCKET_FULL else js "closed " ++ js (toString code)

def onSocketClose (manager : ConnectionManager) (ws code : Nat) :
    Option ConnectionManager :=
  match manager.sockets[ws]? with
  | some ⟨ref, _, false⟩ =>
      let manager := manager.modifySocket ws fun socket =>
        { socket with readyState := .closed, closeSeen := true }
      let manager := manager.modifyClient ref fun client =>
        { client with ws := none }
      let manager := manager.notify ref .closed (closeDetail code)
      let manager := manager.modifyClient ref fun client =>
        if !client.intentionalClose && code ≠ 4001 && client.autoReconnect
        then
          { client with
            reconnectAttempt := client.reconnectAttempt + 1
            reconnectTimer := true }
        else client
      some (manager.finishWaits ws)
  | _ => none

/-- A message is delivered only while its socket is open. -/
def onSocketMessage (manager : ConnectionManager) (ws : Nat)
    (handle : ConnectionManager → ConnectionManager) :
    Option ConnectionManager :=
  match manager.sockets[ws]? with
  | some ⟨ref, .open, _⟩ =>
      match manager.relayClients[ref]? with
      | none => some manager
      | some client => some (if client.wired then handle manager else manager)
  | _ => none

/-- `closeAndWait`: the promise to wait for is the last of `closeWaits`. -/
def closeAndWait (manager : ConnectionManager) (ref : Nat) :
    ConnectionManager :=
  let manager := manager.modifyClient ref fun client =>
    { client with
      autoReconnect := false
      reconnectTimer := false
      connectGeneration := client.connectGeneration + 1
      intentionalClose := true }
  let live := ((manager.relayClients[ref]?).bind RelayClient.ws).filter
    fun ws =>
      match manager.sockets[ws]? with
      | none => false
      | some socket => socket.readyState ≠ .closed
  match live with
  | none =>
      let wait : CloseWait := ⟨ref, none, true⟩
      { manager.modifyClient ref fun client =>
          { client with ws := none } with
        closeWaits := manager.closeWaits ++ [wait] }
  | some ws =>
      let wait : CloseWait := ⟨ref, some ws, false⟩
      { manager.closeSocket ws with
        closeWaits := manager.closeWaits ++ [wait] }.queue
          (.closeTimeout manager.closeWaits.length)

def waitSettled (manager : ConnectionManager) (ref : Nat) : Bool :=
  match manager.closeWaits[ref]? with
  | none => false
  | some wait => wait.settled

/-! ## Connect flows -/

/-- What `waitForRelay` returns when it looks, if it returns. -/
def relayVerdict (manager : ConnectionManager) : Option Bool :=
  match manager.runtime with
  | none => some false
  | some runtime =>
      if runtime.bucketFull then some false
      else if manager.connected then some true
      else if runtime.connState = .closed && runtime.connDetail = BUCKET_FULL
      then some false
      else none

def waitForRelay (manager : ConnectionManager) (outside : Surroundings)
    (polls result : Nat) : ConnectionManager × List RoomTask :=
  if outside.elapsed || MAX_RELAY_POLLS ≤ polls then
    (manager.settle result manager.connected, [])
  else
    match manager.relayVerdict with
    | some ok => (manager.settle result ok, [])
    | none => (manager, [.flow (.waitForRelay (polls + 1)) result])

/-- Make a client for a room and wire it. -/
def withClient (manager : ConnectionManager) (room : Nat) :
    ConnectionManager :=
  let client : RelayClient :=
    ⟨none, false, 0, false, 0, false, manager.room.isSome⟩
  { manager with
    relayClients := manager.relayClients ++ [client] }.setClient room
      (some manager.relayClients.length)

/-- Connect a new client, and wait for it. -/
def startClient (manager : ConnectionManager) (outside : Surroundings)
    (room result : Nat) : ConnectionManager × List RoomTask :=
  ((manager.withClient room).connect manager.relayClients.length).waitForRelay
    outside 0 result

def connectRelay (manager : ConnectionManager) (outside : Surroundings)
    (result : Nat) : ConnectionManager × List RoomTask :=
  match manager.room with
  | none => (manager.settle result false, [])
  | some room =>
      if !outside.deviceSessionId then (manager.settle result false, [])
      else
        let manager := manager.modifyRuntime fun runtime =>
          { runtime with bucketFull := false }
        match manager.client with
        | some client =>
            let wait := manager.closeWaits.length
            (manager.closeAndWait client,
              [.flow (.relayClosing room wait) result])
        | none => manager.startClient outside room result

/-- The part of `connectRoom` and `doOpenRoom` for a room that is open. -/
def connectExisting (manager : ConnectionManager) (room result : Nat) :
    ConnectionManager × List RoomTask :=
  let manager := { manager with suppressReconnect := true }.modifyRuntime
    fun runtime =>
      { runtime with bucketFull := false, connState := .connecting }
  match manager.client with
  | some client =>
      let wait := manager.closeWaits.length
      (manager.closeAndWait client,
        [.flow (.connectClosing room wait) result])
  | none => (manager, [.flow .connectToken result])

def connectRoom (manager : ConnectionManager) (result : Nat) :
    ConnectionManager × List RoomTask :=
  match manager.room with
  | none => (manager.settle result false, [])
  | some room =>
      if manager.connected then (manager.settle result true, [])
      else manager.stopHeartbeat.connectExisting room result

def doOpenRoom (manager : ConnectionManager) (outside : Surroundings)
    (result : Nat) : ConnectionManager × List RoomTask :=
  match manager.room with
  | some room =>
      if manager.connected then (manager.settle result true, [])
      else manager.connectExisting room result
  | none =>
      if MAX_OPEN_ROOMS ≤ outside.othersOpen then
        (manager.settle result false, [])
      else if outside.credentials then (manager, [.flow .openRecord result])
      else (manager, [.flow .openCredentials result])

def doReconnectRoom (manager : ConnectionManager) (result : Nat) :
    ConnectionManager × List RoomTask :=
  let manager := { manager with suppressReconnect := true }.stopHeartbeat
  match manager.room with
  | none => (manager, [.flow .reconnectPause result])
  | some room =>
      let manager := manager.modifyRuntime fun runtime =>
        { runtime with bucketFull := false, reconnectStalled := false }
      match manager.client with
      | some client =>
          let wait := manager.closeWaits.length
          (manager.closeAndWait client,
            [.flow (.reconnectClosing room wait) result])
      | none => (manager, [.flow .reconnectPause result])

/-- `openRoom` and `reconnectRoom` up to their first `await`. -/
def enter (manager : ConnectionManager) (result : Nat) (awaiting : RoomTask) :
    ConnectionManager × List RoomTask :=
  match manager.openPromise with
  | some inflight => (manager, [.forward inflight result])
  | none => (manager, [awaiting])

def openRoom (manager : ConnectionManager) (result : Nat) :
    ConnectionManager × List RoomTask :=
  manager.enter result (.openRoom result)

def reconnectRoom (manager : ConnectionManager) (result : Nat) :
    ConnectionManager × List RoomTask :=
  manager.enter result (.reconnectRoom result)

/-- Start a flow, register its promise and wait for it. -/
def register (manager : ConnectionManager) (result : Nat)
    (start : ConnectionManager → Nat → ConnectionManager × List RoomTask) :
    ConnectionManager × List RoomTask :=
  let promise := manager.promises.length
  let (manager, tasks) := start manager.newPromise promise
  ({ tasks.foldl queue manager with openPromise := some promise },
    [.finish promise result])

/-- A new room, with the messages of its store. -/
def addRoom (manager : ConnectionManager) (peerMessages : Bool) :
    ConnectionManager :=
  { manager with
    room := some manager.internalRooms.length
    internalRooms := manager.internalRooms ++
      [⟨none, ⟨.connecting, [], peerMessages, false, 0, false⟩⟩]
    peerMessages := peerMessages }

def unsuppress (turn : ConnectionManager × List RoomTask) :
    ConnectionManager × List RoomTask :=
  ({ turn.1 with suppressReconnect := false }, turn.2)

/-- A connect flow goes on. -/
def flow (manager : ConnectionManager) (outside : Surroundings)
    (result : Nat) : ConnectFlow → Option (ConnectionManager × List RoomTask)
  | .reconnectClosing room wait =>
      if manager.waitSettled wait then
        some (manager.setClient room none, [.flow .reconnectPause result])
      else none
  | .reconnectPause =>
      -- the `finally` runs when the inner call has returned its promise
      match manager.room with
      | none => some (unsuppress (manager.openRoom result))
      | some _ => some (unsuppress (manager.connectRoom result))
  | .connectClosing room wait =>
      if manager.waitSettled wait then
        some (manager.setClient room none, [.flow .connectToken result])
      else none
  | .connectToken =>
      if outside.relayToken then
        some (unsuppress (manager.connectRelay outside result))
      else some (unsuppress (manager.settle result false, []))
  | .openCredentials =>
      if outside.recorded && outside.credentials then
        some (manager, [.flow .openRecord result])
      else some (manager.settle result false, [])
  | .openRecord =>
      if outside.recorded && outside.relayUrl then
        some (manager, [.flow .openMessages result])
      else some (manager.settle result false, [])
  | .openMessages =>
      some (manager.addRoom outside.peerMessages, [.flow .openPending result])
  | .openPending => some (manager, [.flow .openToken result])
  | .openToken =>
      if outside.relayToken then some (manager.connectRelay outside result)
      else some (manager.settle result false, [])
  | .relayClosing room wait =>
      if manager.waitSettled wait then
        some ((manager.setClient room none).startClient outside room result)
      else none
  | .waitForRelay polls => some (manager.waitForRelay outside polls result)

/-! ## Closing -/

def closeRoomConnection (manager : ConnectionManager) : ConnectionManager :=
  match manager.room with
  | none => manager
  | some room =>
      let manager := manager.cancelManagedReconnect.stopHeartbeat
      let manager :=
        match manager.client with
        | none => manager
        | some client => manager.closeClient client
      { manager.setClient room none with room := none }

/-- A call made by another part of the manager, which waits for its promise
in an activation of its own. -/
def call (manager : ConnectionManager)
    (enter : ConnectionManager → Nat → ConnectionManager × List RoomTask)
    (after : Nat → List RoomTask) : ConnectionManager × List RoomTask :=
  let promise := manager.promises.length
  let (manager, tasks) := enter manager.newPromise promise
  (manager, tasks ++ after promise)

def forceStaleReconnect (manager : ConnectionManager) :
    ConnectionManager × List RoomTask :=
  match manager.runtime with
  | none => (manager, [])
  | some runtime =>
      if runtime.bucketFull || manager.suppressReconnect then (manager, [])
      else
        manager.stopHeartbeat.call reconnectRoom fun promise =>
          [.afterStaleReconnect promise]

def sendHeartbeatPing (manager : ConnectionManager) :
    ConnectionManager × List RoomTask :=
  if !manager.connected then (manager, [])
  else if manager.heartbeatPending then manager.forceStaleReconnect
  else ({ manager with heartbeatPending := true }, [])

/-- Close the room's client, if it has one, and wait for it. -/
def closeThen (manager : ConnectionManager) (closing : Nat → RoomTask)
    (after : RoomTask) : ConnectionManager × List RoomTask :=
  match manager.client with
  | some client =>
      let wait := manager.closeWaits.length
      (manager.closeAndWait client, [closing wait])
  | none => (manager, [after])

end ConnectionManager

open ConnectionManager

def RoomTask.run (outside : Surroundings) (manager : ConnectionManager) :
    RoomTask → Option (ConnectionManager × List RoomTask)
  | .callOpenRoom => some (manager.call ConnectionManager.openRoom fun _ => [])
  | .callReconnectRoom =>
      some (manager.call ConnectionManager.reconnectRoom fun _ => [])
  | .openRoom result =>
      if outside.seatReleased then some (manager.settle result false, [])
      else if manager.connected then some (manager.settle result true, [])
      else
        some (manager.register result fun manager promise =>
          manager.doOpenRoom outside promise)
  | .reconnectRoom result =>
      if outside.seatReleased then some (manager.settle result false, [])
      else
        some (manager.resetReconnectState.register result doReconnectRoom)
  | .forward inflight result =>
      (manager.settled? inflight).map fun ok => (manager.settle result ok, [])
  | .finish promise result =>
      (manager.settled? promise).map fun ok =>
        ({ manager with openPromise := none }.settle result ok, [])
  | .flow stage result => manager.flow outside result stage
  | .connectWithPin =>
      if outside.pinVerified then
        some (manager.closeRoomConnection, [.seatReclaimed])
      else some (manager, [])
  | .seatReclaimed => some (manager.call ConnectionManager.openRoom fun _ => [])
  | .openSocket client generation =>
      some (manager.openSocket client generation, [])
  | .closeTimeout wait => some (manager.finishWait wait, [])
  | .socketOpen ws => (manager.onSocketOpen ws).map fun manager => (manager, [])
  | .socketError ws =>
      (manager.onSocketError ws).map fun manager => (manager, [])
  | .socketClose ws code =>
      (manager.onSocketClose ws code).map fun manager => (manager, [])
  | .socketControl ws msg =>
      (manager.onSocketMessage ws fun manager => manager.onControl msg).map
        fun manager => (manager, [])
  | .socketBinary ws =>
      (manager.onSocketMessage ws onBinary).map fun manager => (manager, [])
  | .clientReconnectTimer ref =>
      match manager.relayClients[ref]? with
      | none => none
      | some client =>
          if client.reconnectTimer then some (manager.connect ref, []) else none
  | .managedReconnect =>
      match manager.reconnectTimer with
      | none => none
      | some timer =>
          let manager := { manager with reconnectTimer := none }
          if manager.room = none then some (manager, [])
          else
            some ({ manager with
              reconnectAttempts := some (timer.attempt + 1) }.call
                ConnectionManager.reconnectRoom
                fun promise => [.afterManagedReconnect promise])
  | .afterManagedReconnect promise =>
      (manager.settled? promise).map fun ok =>
        match manager.runtime with
        | none => (manager, [])
        | some runtime =>
            if ok || runtime.bucketFull then (manager, [])
            else (manager.scheduleManagedReconnect, [])
  | .heartbeatTick =>
      match manager.runtime with
      | none => some (manager, [])
      | some runtime =>
          if !manager.connected || runtime.connState ≠ .open || outside.hidden
          then some (manager, [])
          else some manager.sendHeartbeatPing
  | .heartbeatTimeout =>
      if manager.heartbeatPending then
        some { manager with heartbeatPending := false }.forceStaleReconnect
      else none
  | .afterStaleReconnect promise =>
      (manager.settled? promise).map fun _ =>
        match manager.runtime with
        | none => (manager, [])
        | some runtime =>
            if manager.connected || runtime.bucketFull ||
                runtime.reconnectStalled then (manager, [])
            else (manager.scheduleManagedReconnect, [])
  | .ensureAllConnected =>
      match manager.runtime with
      | none => some (manager, [])
      | some runtime =>
          if manager.appLocked || runtime.bucketFull then some (manager, [])
          else if !manager.connected || runtime.connState = .closed ||
              runtime.connState = .error || runtime.reconnectStalled then
            some (manager.resetReconnectState.call
              ConnectionManager.reconnectRoom fun _ => [])
          else if runtime.connState = .open then
            some manager.sendHeartbeatPing
          else some (manager, [])
  | .offline =>
      some (manager.modifyRuntime fun runtime =>
        if runtime.connState = .open then
          { runtime with connDetail := js "offline" }
        else runtime, [])
  | .closeRoom =>
      some ({ manager.closeRoomConnection with peerMessages := false }, [])
  | .releaseSeat =>
      some ({ manager.cancelManagedReconnect.stopHeartbeat with
        suppressReconnect := true }.closeThen .releaseSeatClosing
          .releaseSeatPause)
  | .releaseSeatClosing wait =>
      if manager.waitSettled wait then some (manager, [.releaseSeatPause])
      else none
  | .releaseSeatPause =>
      some (manager.closeRoomConnection, [.releaseSeatRecord])
  | .releaseSeatRecord =>
      some ({ manager with suppressReconnect := false }, [])
  | .lock =>
      some ({ manager.cancelManagedReconnect.stopHeartbeat with
        appLocked := true }.closeThen .lockClosing .lockPause)
  | .lockClosing wait =>
      if manager.waitSettled wait then some (manager, [.lockPause]) else none
  | .lockPause =>
      some ((manager.modifyRuntime fun runtime =>
        { runtime with bucketFull := false }).closeRoomConnection, [])
  | .restoreAll => some ({ manager with appLocked := false }, [])
  | .messagesChanged fromPeer =>
      some ({ manager with peerMessages := fromPeer }, [])

def RoomTask.next (outside : Surroundings) (task : RoomTask)
    (manager : ConnectionManager) :
    Option (ConnectionManager × List RoomTask) :=
  (task.run outside manager).map fun (manager, tasks) =>
    ({ manager with queued := [] }, tasks)

/-- The tasks that a step has queued. -/
def RoomTask.forks (outside : Surroundings) (task : RoomTask)
    (manager : ConnectionManager) : List RoomTask :=
  ((task.run outside manager).map fun turn => turn.1.queued).getD []

/-- What the user, a timer, the network or another part of the page starts. -/
def RoomTask.isEntry : RoomTask → Bool
  | .callOpenRoom | .callReconnectRoom | .connectWithPin => true
  | .socketOpen _ | .socketError _ | .socketClose _ _ => true
  | .socketControl _ _ | .socketBinary _ => true
  | .clientReconnectTimer _ | .managedReconnect => true
  | .heartbeatTick | .heartbeatTimeout => true
  | .ensureAllConnected | .offline => true
  | .closeRoom | .releaseSeat | .lock | .restoreAll => true
  | .messagesChanged _ => true
  | _ => false

def connectionManager : Program ConnectionManager RoomTask Surroundings where
  next := RoomTask.next
  forks := RoomTask.forks
  entry := fun task => task.isEntry = true

/-- Every run begins on a page that has just been loaded. -/
def connectionSystem : Lts (Pool ConnectionManager RoomTask)
    (PoolLabel RoomTask Surroundings) :=
  connectionManager.system fun pool => pool = ⟨.blank, []⟩

/-- Nothing outside is in the way. -/
def untroubled : Surroundings :=
  ⟨false, 0, true, true, true, false, true, true, true, false, false⟩

theorem played_reachable
    {moves : List (Program.Move RoomTask Surroundings)}
    {trace : List (Pool ConnectionManager RoomTask ×
      PoolLabel RoomTask Surroundings)}
    {pool : Pool ConnectionManager RoomTask}
    (entries : moves.all fun
      | .spawn task => task.isEntry
      | .run _ _ => true)
    (played : connectionManager.play ⟨.blank, []⟩ moves =
      some (trace, pool)) : connectionSystem.Reachable pool := by
  refine ⟨⟨.blank, []⟩, trace, rfl, Program.play_run ?_ played⟩
  intro task member
  exact List.all_eq_true.mp entries _ member

end Byteln.Client

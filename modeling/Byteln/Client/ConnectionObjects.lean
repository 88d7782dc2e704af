import Byteln.Client.Connection

/-!
# What happens to rooms, clients and sockets

Most of what the connection manager does only closes things: it drops
references, closes sockets and reports.  `Retreats` says what such a step can
do to the objects; only making a room, making a client, opening a socket and
the network's answer go further.
-/

namespace Byteln.Client

open Byteln.Library

/-- The socket is still to be connected or is connected. -/
def ReadyState.live : ReadyState → Bool
  | .connecting | .open => true
  | .closing | .closed => false

def RelayClient.Passive (client : RelayClient) : Prop :=
  client.autoReconnect = false ∧ client.reconnectTimer = false

/-- The sockets that are about to be opened: their clients, with the
generations of their `connect`. -/
def openings (tasks : List RoomTask) : List (Nat × Nat) :=
  tasks.filterMap fun
    | .openSocket client generation => some (client, generation)
    | _ => none

@[simp] theorem openings_nil : openings [] = [] := rfl

@[simp] theorem openings_append (tasks others : List RoomTask) :
    openings (tasks ++ others) = openings tasks ++ openings others :=
  List.filterMap_append

theorem openings_perm {tasks others : List RoomTask}
    (moved : tasks.Perm others) : (openings tasks).Perm (openings others) :=
  moved.filterMap _

namespace ConnectionManager

def LiveSocket (manager : ConnectionManager) (ws : Nat) : Prop :=
  ∃ socket, manager.sockets[ws]? = some socket ∧ socket.readyState.live = true

structure RoomRetreats (room room' : InternalRoom) : Prop where
  client : room'.client = room.client ∨ room'.client = none

structure ClientRetreats (live : Nat → Prop) (client client' : RelayClient) :
    Prop where
  wired : client'.wired = client.wired
  passive : client.Passive → client'.Passive
  generation : client.connectGeneration ≤ client'.connectGeneration
  ws : client'.ws = client.ws ∨
    client'.ws = none ∧ ∀ ws, client.ws = some ws → ¬ live ws

structure SocketRetreats (socket socket' : Socket) : Prop where
  client : socket'.client = socket.client
  state : socket'.readyState.live = true →
    socket'.readyState = socket.readyState

structure WaitRetreats (wait wait' : CloseWait) : Prop where
  client : wait'.client = wait.client
  ws : wait'.ws = wait.ws
  settled : wait.settled = true → wait'.settled = true

/-- A timer that runs afterwards ran before or has a new handle. -/
structure TimersMove (before after : ConnectionManager) : Prop where
  handles : before.handles ≤ after.handles
  heartbeat : ∀ handle, after.heartbeatTimer = some handle →
    before.heartbeatTimer = some handle ∨
      before.handles ≤ handle ∧ handle < after.handles
  reconnect : ∀ timer, after.reconnectTimer = some timer →
    before.reconnectTimer = some timer ∨
      before.handles ≤ timer.handle ∧ timer.handle < after.handles

/-- Nothing is opened: objects stay or are closed, references to them stay or
are dropped.  A new `closeAndWait` is about the socket of its client. -/
structure Retreats (before after : ConnectionManager) : Prop where
  room : after.room = before.room ∨ after.room = none
  roomsLength : after.internalRooms.length = before.internalRooms.length
  rooms : ∀ (ref : Nat) room room', before.internalRooms[ref]? = some room →
    after.internalRooms[ref]? = some room' → RoomRetreats room room'
  clientsLength : after.relayClients.length = before.relayClients.length
  clients : ∀ (ref : Nat) client client',
    before.relayClients[ref]? = some client →
      after.relayClients[ref]? = some client' →
        ClientRetreats after.LiveSocket client client'
  socketsLength : after.sockets.length = before.sockets.length
  sockets : ∀ (ws : Nat) socket socket', before.sockets[ws]? = some socket →
    after.sockets[ws]? = some socket' → SocketRetreats socket socket'
  waitsLength : before.closeWaits.length ≤ after.closeWaits.length
  waits : ∀ (ref : Nat) wait wait', before.closeWaits[ref]? = some wait →
    after.closeWaits[ref]? = some wait' → WaitRetreats wait wait'
  newWaits : ∀ (ref : Nat) wait ws, before.closeWaits.length ≤ ref →
    after.closeWaits[ref]? = some wait → wait.ws = some ws →
      ¬ after.LiveSocket ws ∧
        ∃ client, before.relayClients[wait.client]? = some client ∧
          client.ws = some ws
  queued : ∃ tasks, after.queued = before.queued ++ tasks ∧
    openings tasks = [] ∧
    ∀ (ref : Nat) wait, before.closeWaits.length ≤ ref →
      after.closeWaits[ref]? = some wait →
        wait.settled = true ∨
          wait.ws.isSome = true ∧ .closeTimeout ref ∈ tasks
  timers : TimersMove before after

variable {manager before middle after : ConnectionManager}

theorem TimersMove.refl (manager : ConnectionManager) :
    TimersMove manager manager :=
  ⟨le_rfl, fun _ => .inl, fun _ => .inl⟩

theorem TimersMove.trans (first : TimersMove before middle)
    (second : TimersMove middle after) : TimersMove before after := by
  have early := first.handles
  have late := second.handles
  refine ⟨early.trans late, ?_, ?_⟩
  · intro handle runs
    rcases second.heartbeat handle runs with ran | new
    · rcases first.heartbeat handle ran with ran | new
      · exact .inl ran
      · exact .inr ⟨new.1, lt_of_lt_of_le new.2 late⟩
    · exact .inr ⟨early.trans new.1, new.2⟩
  · intro timer runs
    rcases second.reconnect timer runs with ran | new
    · rcases first.reconnect timer ran with ran | new
      · exact .inl ran
      · exact .inr ⟨new.1, lt_of_lt_of_le new.2 late⟩
    · exact .inr ⟨early.trans new.1, new.2⟩

theorem Retreats.refl (manager : ConnectionManager) :
    Retreats manager manager where
  room := .inl rfl
  roomsLength := rfl
  rooms := by
    intro ref room room' found found'
    obtain rfl := Option.some.inj (found.symm.trans found')
    exact ⟨.inl rfl⟩
  clientsLength := rfl
  clients := by
    intro ref client client' found found'
    obtain rfl := Option.some.inj (found.symm.trans found')
    exact ⟨rfl, id, le_rfl, .inl rfl⟩
  socketsLength := rfl
  sockets := by
    intro ws socket socket' found found'
    obtain rfl := Option.some.inj (found.symm.trans found')
    exact ⟨rfl, fun _ => rfl⟩
  waitsLength := le_rfl
  waits := by
    intro ref wait wait' found found'
    obtain rfl := Option.some.inj (found.symm.trans found')
    exact ⟨rfl, rfl, id⟩
  newWaits := by
    intro ref wait ws beyond found
    rw [List.getElem?_eq_none beyond] at found
    cases found
  queued := by
    refine ⟨[], by simp, by simp, ?_⟩
    intro ref wait beyond found
    rw [List.getElem?_eq_none beyond] at found
    cases found
  timers := .refl manager

theorem getElem?_of_length {α : Type} {xs ys : List α} {index : Nat}
    {y : α} (length : ys.length = xs.length) (found : ys[index]? = some y) :
    ∃ x, xs[index]? = some x := by
  obtain ⟨inBounds, -⟩ := List.getElem?_eq_some_iff.mp found
  have inBounds : index < xs.length := length ▸ inBounds
  exact ⟨xs[index], List.getElem?_eq_getElem inBounds⟩

/-- A socket that is live in the end was live all the time. -/
theorem Retreats.live (retreats : Retreats before after) {ws : Nat}
    (live : after.LiveSocket ws) : before.LiveSocket ws := by
  obtain ⟨socket', found', live⟩ := live
  obtain ⟨socket, found⟩ := getElem?_of_length retreats.socketsLength found'
  have same := (retreats.sockets ws socket socket' found found').state live
  exact ⟨socket, found, same ▸ live⟩

theorem Retreats.trans (first : Retreats before middle)
    (second : Retreats middle after) : Retreats before after where
  room := by
    rcases second.room with same | gone
    · rw [same]
      exact first.room
    · exact .inr gone
  roomsLength := second.roomsLength.trans first.roomsLength
  rooms := by
    intro ref room room'' found found''
    obtain ⟨room', found'⟩ := getElem?_of_length second.roomsLength found''
    have early := (first.rooms ref room room' found found').client
    rcases (second.rooms ref room' room'' found' found'').client with same | gone
    · rw [← same] at early
      exact ⟨early⟩
    · exact ⟨.inr gone⟩
  clientsLength := second.clientsLength.trans first.clientsLength
  clients := by
    intro ref client client'' found found''
    obtain ⟨client', found'⟩ := getElem?_of_length second.clientsLength found''
    have early := first.clients ref client client' found found'
    have late := second.clients ref client' client'' found' found''
    refine ⟨late.wired.trans early.wired,
      fun passive => late.passive (early.passive passive),
      early.generation.trans late.generation, ?_⟩
    rcases late.ws with same | ⟨gone, dead⟩
    · rw [same]
      rcases early.ws with same | ⟨gone, dead⟩
      · exact .inl same
      · exact .inr ⟨gone, fun ws own live => dead ws own (second.live live)⟩
    · right
      refine ⟨gone, fun ws own live => ?_⟩
      rcases early.ws with same | ⟨-, dead⟩
      · exact dead ws (same.trans own) live
      · exact dead ws own (second.live live)
  socketsLength := second.socketsLength.trans first.socketsLength
  sockets := by
    intro ws socket socket'' found found''
    obtain ⟨socket', found'⟩ := getElem?_of_length second.socketsLength found''
    have early := first.sockets ws socket socket' found found'
    have late := second.sockets ws socket' socket'' found' found''
    refine ⟨late.client.trans early.client, fun live => ?_⟩
    have same := late.state live
    exact same.trans (early.state (same ▸ live))
  waitsLength := first.waitsLength.trans second.waitsLength
  waits := by
    intro ref wait wait'' found found''
    obtain ⟨inBounds, -⟩ := List.getElem?_eq_some_iff.mp found
    have found' := List.getElem?_eq_getElem
      (lt_of_lt_of_le inBounds first.waitsLength)
    have early := first.waits ref wait _ found found'
    have late := second.waits ref _ wait'' found' found''
    exact ⟨late.client.trans early.client, late.ws.trans early.ws,
      fun settled => late.settled (early.settled settled)⟩
  newWaits := by
    intro ref wait ws beyond found own
    rcases Nat.lt_or_ge ref middle.closeWaits.length with inside | outside
    · have found' := List.getElem?_eq_getElem inside
      have late := second.waits ref _ wait found' found
      obtain ⟨dead, client, owner, owns⟩ :=
        first.newWaits ref _ ws beyond found' (late.ws.symm.trans own)
      refine ⟨fun live => dead (second.live live), client, ?_, owns⟩
      rw [late.client]
      exact owner
    · obtain ⟨dead, client', owner', owns'⟩ :=
        second.newWaits ref wait ws outside found own
      obtain ⟨client, owner⟩ := getElem?_of_length first.clientsLength owner'
      rcases (first.clients _ client client' owner owner').ws with same | gone
      · exact ⟨dead, client, owner, same ▸ owns'⟩
      · rw [gone.1] at owns'
        cases owns'
  queued := by
    obtain ⟨tasks, queued, opensNone, waits⟩ := first.queued
    obtain ⟨tasks', queued', opensNone', waits'⟩ := second.queued
    refine ⟨tasks ++ tasks', by simp [queued', queued], ?_, ?_⟩
    · rw [openings_append, opensNone, opensNone', List.append_nil]
    · intro ref wait beyond found
      rcases Nat.lt_or_ge ref middle.closeWaits.length with inside | outside
      · have found' := List.getElem?_eq_getElem inside
        have kept := second.waits ref _ wait found' found
        rcases waits ref _ beyond found' with settled | ⟨own, started⟩
        · exact .inl (kept.settled settled)
        · exact .inr ⟨kept.ws ▸ own, List.mem_append_left _ started⟩
      · rcases waits' ref wait outside found with settled | ⟨own, started⟩
        · exact .inl settled
        · exact .inr ⟨own, List.mem_append_right _ started⟩
  timers := first.timers.trans second.timers

/-! ## The updates that retreat -/

/-- An update of the timers, and of none of the objects. -/
theorem Retreats.of_timers (timers : TimersMove before after)
    (room : after.room = before.room)
    (internalRooms : after.internalRooms = before.internalRooms)
    (relayClients : after.relayClients = before.relayClients)
    (sockets : after.sockets = before.sockets)
    (closeWaits : after.closeWaits = before.closeWaits)
    (queued : after.queued = before.queued) : Retreats before after := by
  have same := Retreats.refl before
  refine ⟨.inl room, ?_, ?_, ?_, ?_, ?_, ?_, ?_, ?_, ?_, ?_, timers⟩
  · rw [internalRooms]
  · rw [internalRooms]
    exact same.rooms
  · rw [relayClients]
  · intro ref client client' found found'
    rw [relayClients] at found'
    obtain rfl := Option.some.inj (found.symm.trans found')
    exact ⟨rfl, id, le_rfl, .inl rfl⟩
  · rw [sockets]
  · rw [sockets]
    exact same.sockets
  · rw [closeWaits]
  · rw [closeWaits]
    exact same.waits
  · intro ref wait ws beyond found
    rw [closeWaits, List.getElem?_eq_none beyond] at found
    cases found
  · rw [closeWaits, queued]
    exact same.queued

/-- An update of none of the objects and timers. -/
theorem Retreats.of_same (room : after.room = before.room)
    (internalRooms : after.internalRooms = before.internalRooms)
    (relayClients : after.relayClients = before.relayClients)
    (sockets : after.sockets = before.sockets)
    (closeWaits : after.closeWaits = before.closeWaits)
    (queued : after.queued = before.queued)
    (handles : after.handles = before.handles)
    (heartbeatTimer : after.heartbeatTimer = before.heartbeatTimer)
    (reconnectTimer : after.reconnectTimer = before.reconnectTimer) :
    Retreats before after := by
  refine .of_timers ⟨handles.ge, ?_, ?_⟩ room internalRooms relayClients
    sockets closeWaits queued
  · intro handle runs
    exact .inl (heartbeatTimer ▸ runs)
  · intro timer runs
    exact .inl (reconnectTimer ▸ runs)

theorem Retreats.cancelManagedReconnect (manager : ConnectionManager) :
    Retreats manager manager.cancelManagedReconnect :=
  .of_timers ⟨le_rfl, fun _ => .inl, fun _ runs => (nomatch runs)⟩ rfl rfl rfl
    rfl rfl rfl

theorem Retreats.stopHeartbeat (manager : ConnectionManager) :
    Retreats manager manager.stopHeartbeat :=
  .of_timers ⟨le_rfl, fun _ runs => (nomatch runs), fun _ => .inl⟩ rfl rfl rfl
    rfl rfl rfl

theorem Retreats.startHeartbeat (manager : ConnectionManager) :
    Retreats manager manager.startHeartbeat := by
  refine .of_timers ⟨Nat.le_succ _, ?_, fun _ => .inl⟩ rfl rfl rfl rfl rfl rfl
  intro handle runs
  obtain rfl := Option.some.inj runs
  exact .inr ⟨le_rfl, Nat.lt_succ_self _⟩

theorem getElem?_modify_cases {α : Type} {xs : List α} {index other : Nat}
    {change : α → α} {x y : α} (found : xs[other]? = some x)
    (found' : (xs.modify index change)[other]? = some y) :
    y = x ∨ other = index ∧ y = change x := by
  simp only [List.getElem?_modify, found, Option.map_eq_map,
    Option.map_some, Option.some.injEq] at found'
  split at found'
  · rename_i same
    exact .inr ⟨same.symm, found'.symm⟩
  · exact .inl found'.symm

theorem Retreats.modifyRoom (manager : ConnectionManager) (ref : Nat)
    {change : InternalRoom → InternalRoom}
    (client : ∀ room, (change room).client = room.client ∨
      (change room).client = none) :
    Retreats manager (manager.modifyRoom ref change) := by
  have same := Retreats.refl manager
  refine { same with
    roomsLength := ?_, rooms := ?_
    timers := ⟨le_rfl, fun _ => .inl, fun _ => .inl⟩ }
  · simp [ConnectionManager.modifyRoom]
  · intro other room room' found found'
    rcases getElem?_modify_cases found found' with rfl | ⟨-, rfl⟩
    · exact ⟨.inl rfl⟩
    · exact ⟨client room⟩

theorem Retreats.dropClient (manager : ConnectionManager) (ref : Nat) :
    Retreats manager (manager.setClient ref none) :=
  Retreats.modifyRoom manager ref fun _ => .inr rfl

theorem Retreats.modifyRuntime (manager : ConnectionManager)
    (change : RoomRuntime → RoomRuntime) :
    Retreats manager (manager.modifyRuntime change) := by
  cases opened : manager.room with
  | none =>
      apply Retreats.of_same <;> simp [ConnectionManager.modifyRuntime, opened]
  | some ref =>
      have moved : Retreats manager (manager.modifyRoom ref fun room =>
          { room with runtime := change room.runtime }) :=
        .modifyRoom manager ref fun _ => .inl rfl
      simpa [ConnectionManager.modifyRuntime, ConnectionManager.modifyRoom,
        opened] using moved

theorem Retreats.modifySocket (manager : ConnectionManager) (ws : Nat)
    {change : Socket → Socket}
    (kept : ∀ socket, SocketRetreats socket (change socket)) :
    Retreats manager (manager.modifySocket ws change) := by
  have same := Retreats.refl manager
  refine { same with
    clients := ?_, socketsLength := ?_, sockets := ?_, newWaits := ?_
    timers := ⟨le_rfl, fun _ => .inl, fun _ => .inl⟩ }
  · intro ref client client' found found'
    obtain rfl := Option.some.inj (found.symm.trans found')
    exact ⟨rfl, id, le_rfl, .inl rfl⟩
  · simp [ConnectionManager.modifySocket]
  · intro other socket socket' found found'
    rcases getElem?_modify_cases found found' with rfl | ⟨-, rfl⟩
    · exact ⟨rfl, fun _ => rfl⟩
    · exact kept socket
  · intro ref wait ws beyond found
    rw [List.getElem?_eq_none] at found
    · cases found
    · exact beyond

theorem Retreats.modifyClient (manager : ConnectionManager) (ref : Nat)
    {change : RelayClient → RelayClient}
    (kept : ∀ client, manager.relayClients[ref]? = some client →
      ClientRetreats manager.LiveSocket client (change client)) :
    Retreats manager (manager.modifyClient ref change) := by
  have same := Retreats.refl manager
  refine { same with
    clientsLength := ?_, clients := ?_, newWaits := ?_
    timers := ⟨le_rfl, fun _ => .inl, fun _ => .inl⟩ }
  · simp [ConnectionManager.modifyClient]
  · intro other client client' found found'
    rcases getElem?_modify_cases found found' with rfl | ⟨rfl, rfl⟩
    · exact ⟨rfl, id, le_rfl, .inl rfl⟩
    · exact kept client found
  · intro ref wait ws beyond found
    rw [List.getElem?_eq_none] at found
    · cases found
    · exact beyond

theorem Retreats.closeSocket (manager : ConnectionManager) (ws : Nat) :
    Retreats manager (manager.closeSocket ws) := by
  apply Retreats.modifySocket
  rintro ⟨client, state, seen⟩
  cases state <;> exact ⟨rfl, by simp [ReadyState.live]⟩

/-- A socket that was closed is not live. -/
theorem not_live_closeSocket (manager : ConnectionManager) (ws : Nat) :
    ¬ (manager.closeSocket ws).LiveSocket ws := by
  rintro ⟨socket, found, live⟩
  simp only [ConnectionManager.closeSocket, ConnectionManager.modifySocket,
    List.getElem?_modify_eq, Option.map_eq_map,
    Option.map_eq_some_iff] at found
  obtain ⟨⟨client, state, seen⟩, -, rfl⟩ := found
  cases state <;> simp [ReadyState.live] at live

/-- Closing the socket of a client, if it has one. -/
theorem Retreats.closeOwn (manager : ConnectionManager) (ref : Nat) :
    Retreats manager
      (match (manager.relayClients[ref]?).bind RelayClient.ws with
      | none => manager
      | some ws => manager.closeSocket ws) := by
  split
  · exact .refl manager
  · exact .closeSocket manager _

theorem Retreats.closeClient (manager : ConnectionManager) (ref : Nat) :
    Retreats manager (manager.closeClient ref) := by
  refine (Retreats.closeOwn manager ref).trans ?_
  apply Retreats.modifyClient
  intro client found
  refine ⟨rfl, fun _ => ⟨rfl, rfl⟩, Nat.le_succ _, .inr ⟨rfl, ?_⟩⟩
  intro ws own
  split at found
  · rename_i noSocket
    rw [found] at noSocket
    rw [Option.bind_some, own] at noSocket
    cases noSocket
  · rename_i ws' hasSocket
    have same : manager.relayClients[ref]? = some client := found
    rw [same, Option.bind_some, own] at hasSocket
    obtain rfl := Option.some.inj hasSocket
    exact not_live_closeSocket manager ws

/-- A `closeAndWait` of a client: of its socket, closed by now, or settled at
once. -/
theorem Retreats.addWait (manager : ConnectionManager) (wait : CloseWait)
    (dead : ∀ ws, wait.ws = some ws → ¬ manager.LiveSocket ws)
    (owned : ∀ ws, wait.ws = some ws →
      ∃ client, manager.relayClients[wait.client]? = some client ∧
        client.ws = some ws)
    (tasks : List RoomTask)
    (opensNone : openings tasks = [])
    (settles : wait.settled = true ∨ wait.ws.isSome = true ∧
      .closeTimeout manager.closeWaits.length ∈ tasks) :
    Retreats manager { manager with
      closeWaits := manager.closeWaits ++ [wait]
      queued := manager.queued ++ tasks } := by
  have last : ∀ (ref : Nat) found, manager.closeWaits.length ≤ ref →
      (manager.closeWaits ++ [wait])[ref]? = some found →
        ref = manager.closeWaits.length ∧ found = wait := by
    intro ref found beyond present
    rw [List.getElem?_append_right beyond] at present
    obtain ⟨inBounds, same⟩ := List.getElem?_eq_some_iff.mp present
    simp only [List.length_singleton, Nat.lt_one_iff] at inBounds
    simp only [List.getElem_singleton] at same
    exact ⟨by omega, same.symm⟩
  have same := Retreats.refl manager
  refine { same with
    clients := ?_, waitsLength := ?_, waits := ?_, newWaits := ?_
    queued := ⟨tasks, rfl, opensNone, ?_⟩
    timers := ⟨le_rfl, fun _ => .inl, fun _ => .inl⟩ }
  · intro ref client client' found found'
    obtain rfl := Option.some.inj (found.symm.trans found')
    exact ⟨rfl, id, le_rfl, .inl rfl⟩
  · simp
  · intro ref wait wait' found found'
    have inBounds := (List.getElem?_eq_some_iff.mp found).1
    simp only [List.getElem?_append_left inBounds] at found'
    obtain rfl := Option.some.inj (found.symm.trans found')
    exact ⟨rfl, rfl, id⟩
  · intro ref found ws beyond present own
    obtain ⟨-, rfl⟩ := last ref found beyond present
    exact ⟨dead ws own, owned ws own⟩
  · intro ref found beyond present
    obtain ⟨rfl, rfl⟩ := last ref found beyond present
    exact settles

theorem Retreats.closeAndWait (manager : ConnectionManager) (ref : Nat) :
    Retreats manager (manager.closeAndWait ref) := by
  have closing : Retreats manager (manager.modifyClient ref fun client =>
      { client with
        autoReconnect := false
        reconnectTimer := false
        connectGeneration := client.connectGeneration + 1
        intentionalClose := true }) := by
    apply Retreats.modifyClient
    intro client _
    exact ⟨rfl, fun _ => ⟨rfl, rfl⟩, Nat.le_succ _, .inl rfl⟩
  refine closing.trans ?_
  unfold ConnectionManager.closeAndWait
  generalize manager.modifyClient ref _ = manager
  dsimp only
  split
  · rename_i noLive
    have dropped : Retreats manager (manager.modifyClient ref fun client =>
        { client with ws := none }) := by
      apply Retreats.modifyClient
      intro client found
      refine ⟨rfl, id, le_rfl, .inr ⟨rfl, ?_⟩⟩
      rintro ws own ⟨socket, present, live⟩
      rw [found, Option.bind_some, own] at noLive
      simp only [Option.filter_eq_none_iff, Option.some.injEq,
        forall_eq', present, decide_eq_true_eq, ne_eq,
        Decidable.not_not] at noLive
      rw [noLive] at live
      cases live
    have settled := Retreats.addWait (manager.modifyClient ref fun client =>
      { client with ws := none }) ⟨ref, none, true⟩ (by simp) (by simp) [] rfl
      (.inl rfl)
    rw [List.append_nil] at settled
    exact dropped.trans settled
  · rename_i ws hasLive
    have closed := Retreats.closeSocket manager ws
    have own : ∃ client, manager.relayClients[ref]? = some client ∧
        client.ws = some ws := by
      have present := (Option.filter_eq_some_iff.mp hasLive).1
      exact Option.bind_eq_some_iff.mp present
    have waiting := Retreats.addWait (manager.closeSocket ws)
      ⟨ref, some ws, false⟩
      (fun ws' same => by
        obtain rfl := Option.some.inj same
        exact not_live_closeSocket manager ws)
      (fun ws' same => by
        obtain rfl := Option.some.inj same
        exact own)
      [.closeTimeout manager.closeWaits.length] rfl (.inr ⟨rfl, by
        simp [ConnectionManager.closeSocket, ConnectionManager.modifySocket]⟩)
    exact closed.trans waiting

theorem Retreats.resetReconnectState (manager : ConnectionManager) :
    Retreats manager manager.resetReconnectState := by
  have cleared : Retreats manager.cancelManagedReconnect
      { manager.cancelManagedReconnect with reconnectAttempts := none } := by
    apply Retreats.of_same <;> rfl
  exact ((Retreats.cancelManagedReconnect manager).trans cleared).trans
    (.modifyRuntime _ _)

theorem Retreats.scheduleManagedReconnect (manager : ConnectionManager) :
    Retreats manager manager.scheduleManagedReconnect := by
  have cancelled := Retreats.cancelManagedReconnect manager
  unfold ConnectionManager.scheduleManagedReconnect
  split
  · exact .refl manager
  · split
    · exact .refl manager
    · dsimp only
      split
      · exact cancelled.trans (.modifyRuntime _ _)
      · have marked := cancelled.trans
          (.modifyRuntime _ (reconnecting (manager.reconnectAttempts.getD 0)))
        refine marked.trans (.of_timers ⟨Nat.le_succ _, fun _ => .inl, ?_⟩ rfl
          rfl rfl rfl rfl rfl)
        intro timer runs
        obtain rfl := Option.some.inj runs
        exact .inr ⟨le_rfl, Nat.lt_succ_self _⟩

theorem Retreats.handleDisconnectForReconnect (manager : ConnectionManager) :
    Retreats manager manager.handleDisconnectForReconnect := by
  unfold ConnectionManager.handleDisconnectForReconnect
  split
  · exact .refl manager
  · split
    · exact .refl manager
    · exact .scheduleManagedReconnect manager

theorem Retreats.showStatus (manager : ConnectionManager) (s : ConnState)
    (detail : JSString) : Retreats manager (manager.showStatus s detail) := by
  unfold ConnectionManager.showStatus
  split
  · exact ((Retreats.resetReconnectState manager).trans
      (.modifyRuntime _ _)).trans (.startHeartbeat _)
  · split
    · exact (Retreats.modifyRuntime manager _).trans (.stopHeartbeat _)
    · exact .modifyRuntime manager _

theorem Retreats.giveUpSeat (manager : ConnectionManager) (ref : Nat) :
    Retreats manager (manager.giveUpSeat ref) := by
  have marked := Retreats.modifyRuntime manager fun runtime =>
    { runtime with bucketFull := true }
  unfold ConnectionManager.giveUpSeat
  generalize manager.modifyRuntime _ = full at marked ⊢
  have closed := (marked.trans (.cancelManagedReconnect full)).trans
    (.closeClient _ ref)
  dsimp only
  split
  · exact closed
  · exact closed.trans (.dropClient _ _)

theorem Retreats.losePeer (manager : ConnectionManager) :
    Retreats manager manager.losePeer := by
  unfold ConnectionManager.losePeer
  split
  · exact .refl manager
  · exact .modifyRuntime manager _

theorem Retreats.onStatus (manager : ConnectionManager) (ref : Nat)
    (s : ConnState) (detail : JSString) :
    Retreats manager (manager.onStatus ref s detail) := by
  have shown := Retreats.showStatus manager s detail
  unfold ConnectionManager.onStatus
  dsimp only
  split
  · exact .refl manager
  · split
    · split
      · exact (shown.trans (.giveUpSeat _ ref)).trans (.losePeer _)
      · exact (shown.trans (.losePeer _)).trans
          (.handleDisconnectForReconnect _)
    · split
      · exact shown.trans (.losePeer _)
      · exact shown

theorem Retreats.notify (manager : ConnectionManager) (ref : Nat)
    (s : ConnState) (detail : JSString) :
    Retreats manager (manager.notify ref s detail) := by
  unfold ConnectionManager.notify
  split
  · exact .refl manager
  · split
    · exact .onStatus manager ref s detail
    · exact .refl manager

theorem Retreats.onControl (manager : ConnectionManager) (msg : Control) :
    Retreats manager (manager.onControl msg) := by
  unfold ConnectionManager.onControl
  split
  · exact .refl manager
  · cases msg with
    | pong => apply Retreats.of_same <;> rfl
    | slot => exact .refl manager
    | peerJoin => exact .modifyRuntime manager _
    | peerLeave => exact .modifyRuntime manager _

theorem Retreats.onBinary (manager : ConnectionManager) :
    Retreats manager manager.onBinary := by
  unfold ConnectionManager.onBinary
  split
  · exact .refl manager
  · split
    · exact .refl manager
    · exact .modifyRuntime manager _

theorem Retreats.onSocketMessage {ws : Nat}
    {handle : ConnectionManager → ConnectionManager}
    (handles : Retreats manager (handle manager))
    (handled : manager.onSocketMessage ws handle = some after) :
    Retreats manager after := by
  unfold ConnectionManager.onSocketMessage at handled
  split at handled
  · split at handled
    · obtain rfl := Option.some.inj handled
      exact .refl manager
    · obtain rfl := Option.some.inj handled
      split
      · exact handles
      · exact .refl manager
  · cases handled

theorem Retreats.onSocketError {ws : Nat}
    (handled : manager.onSocketError ws = some after) :
    Retreats manager after := by
  unfold ConnectionManager.onSocketError at handled
  split at handled
  · obtain rfl := Option.some.inj handled
    refine Retreats.trans ?_ (.notify _ _ _ _)
    apply Retreats.modifySocket
    intro socket
    exact ⟨rfl, by simp [ReadyState.live]⟩
  · cases handled

theorem Retreats.closeRoomConnection (manager : ConnectionManager) :
    Retreats manager manager.closeRoomConnection := by
  have stopped := (Retreats.cancelManagedReconnect manager).trans
    (.stopHeartbeat _)
  unfold ConnectionManager.closeRoomConnection
  split
  · exact .refl manager
  · rename_i room opened
    extract_lets quiet closed
    have closes : Retreats quiet closed := by
      unfold closed
      split
      · exact .refl quiet
      · exact .closeClient quiet _
    have dropped := (stopped.trans closes).trans (.dropClient closed room)
    have gone : Retreats (closed.setClient room none)
        { closed.setClient room none with room := none } := by
      have same := Retreats.refl (closed.setClient room none)
      exact { same with
        room := .inr rfl, timers := ⟨le_rfl, fun _ => .inl, fun _ => .inl⟩ }
    exact dropped.trans gone

/-! ## The client of the room -/

@[simp] theorem client_modifyRuntime (manager : ConnectionManager)
    (change : RoomRuntime → RoomRuntime) :
    (manager.modifyRuntime change).client = manager.client := by
  unfold ConnectionManager.client internalRoom modifyRuntime
  cases opened : manager.room with
  | none => simp
  | some ref =>
      cases found : manager.internalRooms[ref]? <;> simp [found]

theorem closeClient_eq (manager : ConnectionManager) (ref : Nat) :
    manager.closeClient ref = { manager with
      relayClients := (manager.closeClient ref).relayClients
      sockets := (manager.closeClient ref).sockets } := by
  unfold closeClient
  dsimp only
  split <;> rfl

theorem Retreats.client (retreats : Retreats before after) :
    after.client = before.client ∨ after.client = none := by
  unfold ConnectionManager.client internalRoom
  rcases retreats.room with same | gone
  · rw [same]
    cases opened : before.room with
    | none => exact .inl rfl
    | some ref =>
        cases found' : after.internalRooms[ref]? with
        | none => exact .inr (by simp [found'])
        | some room' =>
            obtain ⟨room, found⟩ :=
              getElem?_of_length retreats.roomsLength found'
            simpa [found, found'] using
              (retreats.rooms ref room room' found found').client
  · exact .inr (by simp [gone])

theorem closeDetail_ne {code : Nat} (other : code ≠ 4001) :
    closeDetail code ≠ BUCKET_FULL := by
  intro same
  have heads := congrArg List.head? same
  rw [closeDetail, if_neg other] at heads
  have first : (js "closed ").head? = some 0x63 := by decide
  have second : BUCKET_FULL.head? = some 0x62 := by decide
  rw [List.head?_append, first, second] at heads
  cases heads

end ConnectionManager

end Byteln.Client

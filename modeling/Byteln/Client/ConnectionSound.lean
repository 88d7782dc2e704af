import Byteln.Client.ConnectionObjects

/-!
# Every client has one socket

The manager connects each of its clients once and never lets one reconnect by
itself, so a client opens at most one socket, and a socket that is live is
the one its client knows.
-/

namespace Byteln.Client

open Byteln.Library

namespace ConnectionManager

/-- The objects fit each other.  `tasks` are those of the pool, besides the
queued ones. -/
structure Sound (manager : ConnectionManager) (tasks : List RoomTask) :
    Prop where
  room : ∀ ref, manager.room = some ref → ref < manager.internalRooms.length
  roomClient : ∀ (ref : Nat) room client,
    manager.internalRooms[ref]? = some room → room.client = some client →
      client < manager.relayClients.length
  passive : ∀ (ref : Nat) client, manager.relayClients[ref]? = some client →
    client.Passive
  owned : ∀ (ref : Nat) client ws, manager.relayClients[ref]? = some client →
    client.ws = some ws →
      ∃ socket, manager.sockets[ws]? = some socket ∧ socket.client = ref
  owner : ∀ (ws : Nat) socket, manager.sockets[ws]? = some socket →
    socket.client < manager.relayClients.length
  live : ∀ (ws : Nat) socket, manager.sockets[ws]? = some socket →
    socket.readyState.live = true →
      ∃ client, manager.relayClients[socket.client]? = some client ∧
        client.ws = some ws
  single : ∀ (ws ws' : Nat) socket socket',
    manager.sockets[ws]? = some socket →
      manager.sockets[ws']? = some socket' →
        socket.client = socket'.client → ws = ws'
  waits : ∀ (ref : Nat) wait ws, manager.closeWaits[ref]? = some wait →
    wait.ws = some ws →
      ¬ manager.LiveSocket ws ∧
        ∃ socket, manager.sockets[ws]? = some socket ∧
          socket.client = wait.client
  opening : ∀ ref generation,
    (ref, generation) ∈ openings (manager.queued ++ tasks) →
      (∃ client, manager.relayClients[ref]? = some client ∧
        generation ≤ client.connectGeneration) ∧
      ∀ (ws : Nat) socket, manager.sockets[ws]? = some socket →
        socket.client ≠ ref
  once : ((openings (manager.queued ++ tasks)).map Prod.fst).Nodup
  heartbeat : ∀ handle, manager.heartbeatTimer = some handle →
    handle < manager.handles
  reconnect : ∀ timer, manager.reconnectTimer = some timer →
    timer.handle < manager.handles

variable {manager before middle after : ConnectionManager}
  {tasks others : List RoomTask}

theorem sound_blank : Sound .blank [] := by
  constructor <;> simp [blank]

/-- Only the sockets that are about to be opened matter. -/
theorem Sound.of_openings (sound : manager.Sound tasks)
    (same : (openings tasks).Perm (openings others)) :
    manager.Sound others := by
  have moved : (openings (manager.queued ++ tasks)).Perm
      (openings (manager.queued ++ others)) := by
    rw [openings_append, openings_append]
    exact same.append_left _
  refine { sound with opening := ?_, once := ?_ }
  · intro ref generation member
    exact sound.opening ref generation (moved.mem_iff.mpr member)
  · exact (moved.map Prod.fst).nodup_iff.mp sound.once

theorem Sound.retreats (sound : before.Sound tasks)
    (retreats : Retreats before after) : after.Sound tasks := by
  have clientBefore : ∀ {ref : Nat} {client' : RelayClient},
      after.relayClients[ref]? = some client' →
        ∃ client, before.relayClients[ref]? = some client := fun found =>
    getElem?_of_length retreats.clientsLength found
  have socketBefore : ∀ {ws : Nat} {socket' : Socket},
      after.sockets[ws]? = some socket' →
      ∃ socket, before.sockets[ws]? = some socket := fun found =>
    getElem?_of_length retreats.socketsLength found
  have socketAfter : ∀ {ws : Nat} {socket : Socket},
      before.sockets[ws]? = some socket →
        ∃ socket' : Socket, after.sockets[ws]? = some socket' ∧
          socket'.client = socket.client := by
    intro ws socket found
    obtain ⟨socket', found'⟩ :=
      getElem?_of_length retreats.socketsLength.symm found
    exact ⟨socket', found', (retreats.sockets ws _ _ found found').client⟩
  have pending : openings (after.queued ++ tasks) =
      openings (before.queued ++ tasks) := by
    obtain ⟨queued, same, opensNone, -⟩ := retreats.queued
    simp [same, opensNone]
  constructor
  · intro ref opened
    rw [retreats.roomsLength]
    rcases retreats.room with same | gone
    · exact sound.room ref (same ▸ opened)
    · rw [gone] at opened
      cases opened
  · intro ref room' client found' has
    obtain ⟨room, found⟩ := getElem?_of_length retreats.roomsLength found'
    rw [retreats.clientsLength]
    rcases (retreats.rooms ref room room' found found').client with same | gone
    · exact sound.roomClient ref room client found (same ▸ has)
    · rw [gone] at has
      cases has
  · intro ref client' found'
    obtain ⟨client, found⟩ := clientBefore found'
    exact (retreats.clients ref client client' found found').passive
      (sound.passive ref client found)
  · intro ref client' ws found' own
    obtain ⟨client, found⟩ := clientBefore found'
    rcases (retreats.clients ref client client' found found').ws with
      same | ⟨gone, -⟩
    · obtain ⟨socket, present, owner⟩ :=
        sound.owned ref client ws found (same ▸ own)
      obtain ⟨socket', present', client⟩ := socketAfter present
      exact ⟨socket', present', client.trans owner⟩
    · rw [gone] at own
      cases own
  · intro ws socket' found'
    obtain ⟨socket, found⟩ := socketBefore found'
    rw [retreats.clientsLength,
      (retreats.sockets ws socket socket' found found').client]
    exact sound.owner ws socket found
  · intro ws socket' found' live
    obtain ⟨socket, found⟩ := socketBefore found'
    have kept := retreats.sockets ws socket socket' found found'
    obtain ⟨client, present, own⟩ :=
      sound.live ws socket found (kept.state live ▸ live)
    obtain ⟨client', present'⟩ :=
      getElem?_of_length retreats.clientsLength.symm present
    rw [kept.client]
    refine ⟨client', present', ?_⟩
    rcases (retreats.clients _ client client' present present').ws with
      same | ⟨-, dead⟩
    · exact same.trans own
    · exact absurd ⟨socket', found', live⟩ (dead ws own)
  · intro ws ws' socket socket' found found' same
    obtain ⟨first, early⟩ := socketBefore found
    obtain ⟨second, early'⟩ := socketBefore found'
    have client := (retreats.sockets ws _ _ early found).client
    have client' := (retreats.sockets ws' _ _ early' found').client
    exact sound.single ws ws' first second early early'
      (client.symm.trans (same.trans client'))
  · intro ref wait' ws found' own
    rcases Nat.lt_or_ge ref before.closeWaits.length with inside | outside
    · have found := List.getElem?_eq_getElem inside
      have kept := retreats.waits ref _ wait' found found'
      obtain ⟨dead, socket, present, owner⟩ :=
        sound.waits ref _ ws found (kept.ws ▸ own)
      obtain ⟨socket', present', client⟩ := socketAfter present
      refine ⟨fun live => dead (retreats.live live), socket', present', ?_⟩
      rw [client, owner, kept.client]
    · obtain ⟨dead, client, present, owns⟩ :=
        retreats.newWaits ref wait' ws outside found' own
      obtain ⟨socket, found, owner⟩ := sound.owned _ client ws present owns
      obtain ⟨socket', found', same⟩ := socketAfter found
      exact ⟨dead, socket', found', same.trans owner⟩
  · intro ref generation member
    rw [pending] at member
    obtain ⟨⟨client, found, le⟩, unopened⟩ :=
      sound.opening ref generation member
    obtain ⟨client', found'⟩ :=
      getElem?_of_length retreats.clientsLength.symm found
    refine ⟨⟨client', found', le.trans
      (retreats.clients ref client client' found found').generation⟩, ?_⟩
    intro ws socket' present'
    obtain ⟨socket, present⟩ := socketBefore present'
    rw [(retreats.sockets ws socket socket' present present').client]
    exact unopened ws socket present
  · rw [pending]
    exact sound.once
  · intro handle runs
    rcases retreats.timers.heartbeat handle runs with ran | new
    · exact lt_of_lt_of_le (sound.heartbeat handle ran)
        retreats.timers.handles
    · exact new.2
  · intro timer runs
    rcases retreats.timers.reconnect timer runs with ran | new
    · exact lt_of_lt_of_le (sound.reconnect timer ran) retreats.timers.handles
    · exact new.2

/-! ## Closing, when the objects fit -/

/-- The socket of a client is the one that is being closed. -/
theorem Sound.dead_of_closed (sound : manager.Sound tasks) {ref ws own : Nat}
    {socket : Socket} {client : RelayClient}
    (found : manager.sockets[ws]? = some socket)
    (owner : socket.client = ref) (dead : ¬ manager.LiveSocket ws)
    (present : manager.relayClients[ref]? = some client)
    (owns : client.ws = some own) : ¬ manager.LiveSocket own := by
  obtain ⟨other, found', owner'⟩ := sound.owned ref client own present owns
  have same := sound.single own ws other socket found' found
    (owner'.trans owner.symm)
  exact same ▸ dead

theorem Sound.finishWait (sound : manager.Sound tasks) (ref : Nat) :
    Retreats manager (manager.finishWait ref) := by
  unfold ConnectionManager.finishWait
  split
  · rename_i client ws found
    have settled : Retreats manager { manager with
        closeWaits := manager.closeWaits.modify ref fun wait =>
          { wait with settled := true } } := by
      have same := Retreats.refl manager
      refine { same with
        clients := ?_, waitsLength := ?_, waits := ?_, newWaits := ?_
        queued := ⟨[], by simp, by simp, ?_⟩
        timers := ⟨le_rfl, fun _ => .inl, fun _ => .inl⟩ }
      · intro other client client' present present'
        obtain rfl := Option.some.inj (present.symm.trans present')
        exact ⟨rfl, id, le_rfl, .inl rfl⟩
      · simp
      · intro other wait wait' present present'
        rcases getElem?_modify_cases present present' with rfl | ⟨-, rfl⟩
        · exact ⟨rfl, rfl, id⟩
        · exact ⟨rfl, rfl, fun _ => rfl⟩
      · intro other wait ws beyond present
        rw [List.getElem?_eq_none (by simpa using beyond)] at present
        cases present
      · intro other wait beyond present
        rw [List.getElem?_eq_none (by simpa using beyond)] at present
        cases present
    refine settled.trans ?_
    apply Retreats.modifyClient
    intro other present
    refine ⟨rfl, id, le_rfl, .inr ⟨rfl, fun own owns => ?_⟩⟩
    obtain ⟨dead, socket, known, owner⟩ := sound.waits ref _ ws found rfl
    exact sound.dead_of_closed known owner dead present owns
  · exact .refl manager

/-- What every wait for a socket keeps, they all keep. -/
theorem finishWaits_rule {P : ConnectionManager → Prop} {ws : Nat}
    (keeps : ∀ manager ref wait, P manager →
      manager.closeWaits[ref]? = some wait → wait.ws = some ws →
        P (manager.finishWait ref)) (start : P manager) :
    P (manager.finishWaits ws) := by
  unfold ConnectionManager.finishWaits
  generalize List.range manager.closeWaits.length = refs
  induction refs generalizing manager with
  | nil => exact start
  | cons ref refs induction =>
      apply induction
      dsimp only
      split
      · rename_i wait found
        split
        · rename_i about
          exact keeps manager ref wait start found about
        · exact start
      · exact start

theorem Sound.finishWaits (sound : manager.Sound tasks) (ws : Nat) :
    Retreats manager (manager.finishWaits ws) := by
  apply finishWaits_rule
  · intro next ref wait before _ _
    exact before.trans ((sound.retreats before).finishWait ref)
  · exact .refl manager

/-- The socket was closed, and its client has dropped it. -/
theorem Sound.closedSocket (sound : manager.Sound tasks) {ws ref : Nat}
    {state : ReadyState} {seen : Bool}
    (found : manager.sockets[ws]? = some ⟨ref, state, seen⟩) :
    Retreats manager
      ((manager.modifySocket ws fun socket =>
        { socket with
          readyState := .closed, closeSeen := true }).modifyClient ref
            fun client => { client with ws := none }) := by
  have closed : Retreats manager (manager.modifySocket ws fun socket =>
      { socket with readyState := .closed, closeSeen := true }) := by
    apply Retreats.modifySocket
    intro socket
    exact ⟨rfl, by simp [ReadyState.live]⟩
  have known : (manager.modifySocket ws fun socket =>
      { socket with readyState := .closed, closeSeen := true }).sockets[ws]? =
      some ⟨ref, .closed, true⟩ := by
    simp [ConnectionManager.modifySocket, found]
  refine closed.trans ?_
  have closedSound := sound.retreats closed
  generalize manager.modifySocket ws _ = manager at known closedSound ⊢
  have dead : ¬ manager.LiveSocket ws := by
    rintro ⟨socket, present, live⟩
    obtain rfl := Option.some.inj (known.symm.trans present)
    cases live
  apply Retreats.modifyClient
  intro client present
  refine ⟨rfl, id, le_rfl, .inr ⟨rfl, fun own owns => ?_⟩⟩
  exact closedSound.dead_of_closed known rfl dead present owns

/-- A passive client does not schedule a reconnect of its own. -/
theorem Sound.noClientReconnect (sound : manager.Sound tasks)
    (ref code : Nat) :
    Retreats manager (manager.modifyClient ref fun client =>
      if !client.intentionalClose && code ≠ 4001 && client.autoReconnect then
        { client with
          reconnectAttempt := client.reconnectAttempt + 1
          reconnectTimer := true }
      else client) := by
  apply Retreats.modifyClient
  intro client present
  have passive := sound.passive ref client present
  simp only [passive.1, Bool.and_false, Bool.false_eq_true, if_false]
  exact ⟨rfl, id, le_rfl, .inl rfl⟩

theorem Sound.onSocketClose (sound : manager.Sound tasks) {ws code : Nat}
    (handled : manager.onSocketClose ws code = some after) :
    Retreats manager after := by
  unfold ConnectionManager.onSocketClose at handled
  split at handled
  · rename_i ref state found
    obtain rfl := Option.some.inj handled
    have told := (sound.closedSocket found).trans
      (.notify _ ref .closed (closeDetail code))
    have ended := told.trans
      ((sound.retreats told).noClientReconnect ref code)
    exact ended.trans ((sound.retreats ended).finishWaits ws)
  · cases handled

/-! ## Opening -/

theorem Sound.openSocket {ref generation : Nat}
    (sound : manager.Sound (.openSocket ref generation :: tasks)) :
    (manager.openSocket ref generation).Sound tasks := by
  have split : (openings (manager.queued ++
      .openSocket ref generation :: tasks)).Perm
      ((ref, generation) :: openings (manager.queued ++ tasks)) := by
    rw [openings_append, openings_append]
    exact List.perm_middle
  obtain ⟨⟨client, found, -⟩, unopened⟩ :=
    sound.opening ref generation (split.mem_iff.mpr List.mem_cons_self)
  have distinct := (split.map Prod.fst).nodup_iff.mp sound.once
  rw [List.map_cons, List.nodup_cons] at distinct
  have fewer : ∀ other generation',
      (other, generation') ∈ openings (manager.queued ++ tasks) →
        (other, generation') ∈ openings (manager.queued ++
          .openSocket ref generation :: tasks) := fun other generation' member =>
    split.mem_iff.mpr (List.mem_cons_of_mem _ member)
  unfold ConnectionManager.openSocket
  simp only [found]
  split
  · have socketCases : ∀ {ws : Nat} {socket : Socket},
        (manager.sockets ++ [⟨ref, .connecting, false⟩])[ws]? = some socket →
          manager.sockets[ws]? = some socket ∨
            ws = manager.sockets.length ∧
              socket = ⟨ref, .connecting, false⟩ := by
      intro ws socket present
      rcases Nat.lt_or_ge ws manager.sockets.length with inside | outside
      · rw [List.getElem?_append_left inside] at present
        exact .inl present
      · rw [List.getElem?_append_right outside] at present
        obtain ⟨inBounds, same⟩ := List.getElem?_eq_some_iff.mp present
        simp only [List.length_singleton, Nat.lt_one_iff] at inBounds
        simp only [List.getElem_singleton] at same
        exact .inr ⟨by omega, same.symm⟩
    have socketKept : ∀ {ws : Nat} {socket : Socket},
        manager.sockets[ws]? = some socket →
          (manager.sockets ++ [⟨ref, .connecting, false⟩])[ws]? =
            some socket := by
      intro ws socket present
      rw [List.getElem?_append_left (List.getElem?_eq_some_iff.mp present).1]
      exact present
    have clientCases : ∀ {other : Nat} {client' : RelayClient},
        (manager.relayClients.modify ref fun client =>
          { client with ws := some manager.sockets.length })[other]? =
            some client' →
        ∃ client, manager.relayClients[other]? = some client ∧
          (client' = client ∧ other ≠ ref ∨ other = ref ∧
            client' = { client with ws := some manager.sockets.length }) := by
      intro other client' present
      rw [List.getElem?_modify] at present
      obtain ⟨client, known, same⟩ := Option.map_eq_some_iff.mp present
      refine ⟨client, known, ?_⟩
      split at same
      · rename_i equal
        exact .inr ⟨equal.symm, same.symm⟩
      · rename_i different
        exact .inl ⟨same.symm, fun equal => different equal.symm⟩
    refine ⟨sound.room, ?_, ?_, ?_, ?_, ?_, ?_, ?_, ?_, distinct.2,
      sound.heartbeat, sound.reconnect⟩
    · intro room found' client present has
      simpa [ConnectionManager.modifyClient] using
        sound.roomClient room found' client present has
    · intro other client' present
      obtain ⟨client, known, ⟨rfl, -⟩ | ⟨-, rfl⟩⟩ := clientCases present
      · exact sound.passive other _ known
      · exact sound.passive other client known
    · intro other client' ws present owns
      obtain ⟨client, known, ⟨rfl, -⟩ | ⟨rfl, rfl⟩⟩ := clientCases present
      · obtain ⟨socket, there, owner⟩ := sound.owned other _ ws known owns
        exact ⟨socket, socketKept there, owner⟩
      · obtain rfl := Option.some.inj owns
        exact ⟨⟨other, .connecting, false⟩, by
          simp [ConnectionManager.modifyClient], rfl⟩
    · intro ws socket present
      simp only [ConnectionManager.modifyClient, List.length_modify]
      rcases socketCases present with there | ⟨-, rfl⟩
      · exact sound.owner ws socket there
      · exact (List.getElem?_eq_some_iff.mp found).1
    · intro ws socket present live
      simp only [ConnectionManager.modifyClient, List.getElem?_modify]
      rcases socketCases present with there | ⟨rfl, rfl⟩
      · obtain ⟨client', known, owns⟩ := sound.live ws socket there live
        have other : ref ≠ socket.client := (unopened ws socket there).symm
        exact ⟨client', by simp [known, other], owns⟩
      · exact ⟨{ client with ws := some manager.sockets.length },
          by simp [found], rfl⟩
    · intro ws ws' socket socket' present present' same
      rcases socketCases present with there | ⟨rfl, rfl⟩ <;>
        rcases socketCases present' with there' | ⟨rfl, rfl⟩
      · exact sound.single ws ws' socket socket' there there' same
      · exact absurd same (unopened ws socket there)
      · exact absurd same.symm (unopened ws' socket' there')
      · rfl
    · intro wait found' ws there owns
      obtain ⟨dead, socket, present, owner⟩ :=
        sound.waits wait found' ws there owns
      refine ⟨?_, socket, socketKept present, owner⟩
      rintro ⟨socket', present', live⟩
      obtain rfl := Option.some.inj
        ((socketKept present).symm.trans present')
      exact dead ⟨socket, present, live⟩
    · intro other generation' member
      obtain ⟨⟨client', known, le⟩, fresh⟩ :=
        sound.opening other generation' (fewer other generation' member)
      have different : other ≠ ref := by
        rintro rfl
        exact distinct.1
          (List.mem_map.mpr ⟨(other, generation'), member, rfl⟩)
      refine ⟨⟨client', ?_, le⟩, ?_⟩
      · simp [ConnectionManager.modifyClient, known, different.symm]
      · intro ws socket present
        rcases socketCases present with there | ⟨-, rfl⟩
        · exact fresh ws socket there
        · exact different.symm
  · refine { sound with opening := ?_, once := distinct.2 }
    intro other generation' member
    exact sound.opening other generation' (fewer other generation' member)

/-- The socket that was to be connected is connected now. -/
theorem Sound.connectedSocket (sound : manager.Sound tasks) {ws ref : Nat}
    {seen : Bool}
    (found : manager.sockets[ws]? = some ⟨ref, .connecting, seen⟩) :
    (manager.modifySocket ws fun socket =>
      { socket with readyState := .open }).Sound tasks := by
  have socketCases : ∀ {other : Nat} {socket' : Socket},
      (manager.sockets.modify ws fun socket =>
        { socket with readyState := .open })[other]? = some socket' →
      ∃ socket, manager.sockets[other]? = some socket ∧
        socket'.client = socket.client ∧
        (socket'.readyState.live = true →
          socket.readyState.live = true) := by
    intro other socket' present
    rw [List.getElem?_modify] at present
    obtain ⟨socket, known, same⟩ := Option.map_eq_some_iff.mp present
    refine ⟨socket, known, ?_⟩
    split at same <;> subst same
    · rename_i equal
      subst equal
      rw [found] at known
      obtain rfl := Option.some.inj known
      exact ⟨rfl, fun _ => rfl⟩
    · exact ⟨rfl, id⟩
  have socketKept : ∀ {other : Nat} {socket : Socket},
      manager.sockets[other]? = some socket →
      ∃ socket' : Socket, (manager.sockets.modify ws fun socket =>
        { socket with readyState := .open })[other]? = some socket' ∧
          socket'.client = socket.client := by
    intro other socket present
    simp only [List.getElem?_modify, present, Option.map_eq_map,
      Option.map_some]
    split <;> exact ⟨_, rfl, rfl⟩
  refine ⟨sound.room, sound.roomClient, sound.passive, ?_, ?_, ?_, ?_, ?_,
    ?_, sound.once, sound.heartbeat, sound.reconnect⟩
  · intro other client own present owns
    obtain ⟨socket, there, owner⟩ :=
      sound.owned other client own present owns
    obtain ⟨socket', there', same⟩ := socketKept there
    exact ⟨socket', there', same.trans owner⟩
  · intro other socket' present
    obtain ⟨socket, there, same, -⟩ := socketCases present
    rw [same]
    exact sound.owner other socket there
  · intro other socket' present live
    obtain ⟨socket, there, same, kept⟩ := socketCases present
    rw [same]
    exact sound.live other socket there (kept live)
  · intro first second socket socket' present present' same
    obtain ⟨one, there, client, -⟩ := socketCases present
    obtain ⟨two, there', client', -⟩ := socketCases present'
    exact sound.single first second one two there there'
      (client.symm.trans (same.trans client'))
  · intro wait known own present owns
    obtain ⟨dead, socket, there, owner⟩ :=
      sound.waits wait known own present owns
    obtain ⟨socket', there', same⟩ := socketKept there
    refine ⟨?_, socket', there', same.trans owner⟩
    rintro ⟨other, present', live⟩
    obtain ⟨socket, there, -, kept⟩ := socketCases present'
    exact dead ⟨socket, there, kept live⟩
  · intro other generation member
    obtain ⟨known, fresh⟩ := sound.opening other generation member
    refine ⟨known, ?_⟩
    intro own socket' present
    obtain ⟨socket, there, same, -⟩ := socketCases present
    rw [same]
    exact fresh own socket there

theorem Sound.onSocketOpen (sound : manager.Sound tasks) {ws : Nat}
    (handled : manager.onSocketOpen ws = some after) : after.Sound tasks := by
  unfold ConnectionManager.onSocketOpen at handled
  split at handled
  · rename_i ref seen found
    obtain rfl := Option.some.inj handled
    refine Sound.retreats ?_ (.notify _ ref .open [])
    refine (sound.connectedSocket found).retreats ?_
    apply Retreats.modifyClient
    intro client _
    exact ⟨rfl, id, le_rfl, .inl rfl⟩
  · cases handled

theorem Sound.addRoom (sound : manager.Sound tasks) (peerMessages : Bool) :
    (manager.addRoom peerMessages).Sound tasks := by
  refine { sound with room := ?_, roomClient := ?_ }
  · intro ref opened
    obtain rfl := Option.some.inj opened
    simp [ConnectionManager.addRoom]
  · intro ref room client found has
    simp only [ConnectionManager.addRoom] at found
    rcases Nat.lt_or_ge ref manager.internalRooms.length with inside | outside
    · rw [List.getElem?_append_left inside] at found
      exact sound.roomClient ref room client found has
    · rw [List.getElem?_append_right outside] at found
      have same := List.mem_of_getElem? found
      obtain rfl := List.mem_singleton.mp same
      cases has

/-! ## New clients -/

private theorem relayClients_withClient {room ref : Nat}
    {client : RelayClient}
    (found : (manager.withClient room).relayClients[ref]? = some client) :
    manager.relayClients[ref]? = some client ∨
      ref = manager.relayClients.length ∧
        client = ⟨none, false, 0, false, 0, false, manager.room.isSome⟩ := by
  simp only [withClient, setClient, modifyRoom] at found
  rcases Nat.lt_or_ge ref manager.relayClients.length with inside | outside
  · rw [List.getElem?_append_left inside] at found
    exact .inl found
  · rw [List.getElem?_append_right outside] at found
    obtain ⟨inBounds, same⟩ := List.getElem?_eq_some_iff.mp found
    simp only [List.length_singleton, Nat.lt_one_iff] at inBounds
    simp only [List.getElem_singleton] at same
    exact .inr ⟨by omega, same.symm⟩

theorem Sound.withClient (sound : manager.Sound tasks) (room : Nat) :
    (manager.withClient room).Sound tasks := by
  have length : (manager.withClient room).relayClients.length =
      manager.relayClients.length + 1 := by
    simp [ConnectionManager.withClient, setClient, modifyRoom]
  have kept : ∀ {ref : Nat} {client : RelayClient},
      manager.relayClients[ref]? = some client →
        (manager.withClient room).relayClients[ref]? = some client := by
    intro ref client found
    simp only [ConnectionManager.withClient, setClient, modifyRoom]
    rw [List.getElem?_append_left (List.getElem?_eq_some_iff.mp found).1]
    exact found
  refine ⟨?_, ?_, ?_, ?_, ?_, ?_, sound.single, sound.waits, ?_, sound.once,
    sound.heartbeat, sound.reconnect⟩
  · intro ref opened
    simpa [ConnectionManager.withClient, setClient, modifyRoom] using
      sound.room ref opened
  · intro ref room' client found has
    rw [length]
    simp only [ConnectionManager.withClient, setClient, modifyRoom,
      List.getElem?_modify] at found
    obtain ⟨room'', known, same⟩ := Option.map_eq_some_iff.mp found
    split at same <;> subst same
    · obtain rfl := Option.some.inj has
      exact Nat.lt_succ_self _
    · exact Nat.lt_succ_of_lt (sound.roomClient ref _ client known has)
  · intro ref client found
    rcases relayClients_withClient found with known | ⟨-, rfl⟩
    · exact sound.passive ref client known
    · exact ⟨rfl, rfl⟩
  · intro ref client ws found owns
    rcases relayClients_withClient found with known | ⟨-, rfl⟩
    · exact sound.owned ref client ws known owns
    · cases owns
  · intro ws socket found
    rw [length]
    exact Nat.lt_succ_of_lt (sound.owner ws socket found)
  · intro ws socket found live
    obtain ⟨client, known, owns⟩ := sound.live ws socket found live
    exact ⟨client, kept known, owns⟩
  · intro ref generation member
    obtain ⟨⟨client, known, le⟩, fresh⟩ := sound.opening ref generation member
    exact ⟨⟨client, kept known, le⟩, fresh⟩

theorem relayClients_notify_connecting (manager : ConnectionManager)
    (ref : Nat) (detail : JSString) :
    (manager.notify ref .connecting detail).relayClients =
      manager.relayClients := by
  unfold ConnectionManager.notify
  split
  · rfl
  · split
    · unfold ConnectionManager.onStatus
      split <;> rfl
    · rfl

/-- The manager after `connect` of a client that has not been connected
before, but for the queued task. -/
theorem connect_eq {ref : Nat} {wired : Bool}
    (found : manager.relayClients[ref]? =
      some ⟨none, false, 0, false, 0, false, wired⟩) :
    ∃ middle, Retreats manager middle ∧
      manager.connect ref = middle.queue (.openSocket ref 1) ∧
      middle.relayClients[ref]? =
        some ⟨none, false, 0, false, 1, false, wired⟩ := by
  have dropped : Retreats manager (manager.modifyClient ref fun client =>
      { client with
        reconnectTimer := false
        ws := none
        intentionalClose :=
          if client.ws = none then client.intentionalClose else false }) := by
    apply Retreats.modifyClient
    intro client present
    obtain rfl := Option.some.inj (found.symm.trans present)
    exact ⟨rfl, id, le_rfl, .inl rfl⟩
  have told := dropped.trans (.notify _ ref .connecting [])
  have same : ((manager.modifyClient ref fun client =>
      { client with
        reconnectTimer := false
        ws := none
        intentionalClose :=
          if client.ws = none then client.intentionalClose
          else false }).notify ref .connecting []).relayClients[ref]? =
      some ⟨none, false, 0, false, 0, false, wired⟩ := by
    rw [relayClients_notify_connecting]
    simp [modifyClient, found]
  have connects : manager.connect ref =
      (((manager.modifyClient ref fun client =>
        { client with
          reconnectTimer := false
          ws := none
          intentionalClose :=
            if client.ws = none then client.intentionalClose
            else false }).notify ref .connecting []).modifyClient ref
        fun client => { client with connectGeneration := 1 }).queue
          (.openSocket ref 1) := by
    simp [connect, found]
  rw [connects]
  generalize (manager.modifyClient ref _).notify ref _ _ = middle at told same
  have counted : Retreats middle (middle.modifyClient ref fun client =>
      { client with connectGeneration := 1 }) := by
    apply Retreats.modifyClient
    intro client present
    obtain rfl := Option.some.inj (same.symm.trans present)
    exact ⟨rfl, id, Nat.zero_le _, .inl rfl⟩
  exact ⟨_, told.trans counted, rfl, by simp [modifyClient, same]⟩

/-- A new client, connected for the first time. -/
theorem Sound.connect (sound : manager.Sound tasks) (room : Nat) :
    ((manager.withClient room).connect manager.relayClients.length).Sound
      tasks := by
  have added := sound.withClient room
  have found : (manager.withClient room).relayClients[
      manager.relayClients.length]? =
      some ⟨none, false, 0, false, 0, false, manager.room.isSome⟩ := by
    simp [ConnectionManager.withClient, setClient, modifyRoom]
  obtain ⟨middle, retreats, connects, counted⟩ := connect_eq found
  have kept := added.retreats retreats
  have fresh : ∀ ref generation, (ref, generation) ∈
      openings (middle.queued ++ tasks) →
        ref ≠ manager.relayClients.length := by
    intro ref generation member same
    have early : openings (middle.queued ++ tasks) =
        openings (manager.queued ++ tasks) := by
      obtain ⟨queued, same, opensNone, -⟩ := retreats.queued
      rw [same]
      simp [opensNone, ConnectionManager.withClient,
        setClient, modifyRoom]
    rw [early] at member
    obtain ⟨⟨client, known, -⟩, -⟩ := sound.opening ref generation member
    rw [same, List.getElem?_eq_none le_rfl] at known
    cases known
  have socketless : ∀ (ws : Nat) socket, middle.sockets[ws]? = some socket →
      socket.client ≠ manager.relayClients.length := by
    intro ws socket' present
    obtain ⟨socket, there⟩ :=
      getElem?_of_length retreats.socketsLength present
    rw [(retreats.sockets ws socket socket' there present).client]
    exact Nat.ne_of_lt (sound.owner ws socket there)
  have pending : (openings ((middle.queue (.openSocket
      manager.relayClients.length 1)).queued ++ tasks)).Perm
      ((manager.relayClients.length, 1) ::
        openings (middle.queued ++ tasks)) := by
    simp only [queue, openings_append, List.append_assoc]
    exact List.perm_middle
  rw [connects]
  refine { kept with opening := ?_, once := ?_ }
  · intro ref generation member
    rcases List.mem_cons.mp (pending.mem_iff.mp member) with new | old
    · obtain ⟨rfl, rfl⟩ := Prod.mk.inj new
      exact ⟨⟨_, counted, le_rfl⟩, socketless⟩
    · exact kept.opening ref generation old
  · rw [(pending.map Prod.fst).nodup_iff, List.map_cons, List.nodup_cons]
    refine ⟨?_, kept.once⟩
    intro member
    obtain ⟨⟨ref, generation⟩, member, same⟩ := List.mem_map.mp member
    exact fresh ref generation member same

/-! ## Whole steps -/

/-- A step after which the objects still fit, if they did before, and which
goes on with no task that opens a socket. -/
structure KeepsSound (manager : ConnectionManager)
    (turn : ConnectionManager × List RoomTask) : Prop where
  sound : ∀ {tasks}, manager.Sound tasks → turn.1.Sound tasks
  opensNone : openings turn.2 = []

theorem KeepsSound.since {turn : ConnectionManager × List RoomTask}
    (keeps : KeepsSound middle turn) (retreats : Retreats manager middle) :
    KeepsSound manager turn :=
  ⟨fun sound => keeps.sound (sound.retreats retreats), keeps.opensNone⟩

/-- A step that opens nothing. -/
structure Quiet (manager : ConnectionManager)
    (turn : ConnectionManager × List RoomTask) : Prop where
  retreats : Retreats manager turn.1
  opensNone : openings turn.2 = []

theorem Quiet.keepsSound {turn : ConnectionManager × List RoomTask}
    (quiet : Quiet manager turn) : KeepsSound manager turn :=
  ⟨fun sound => sound.retreats quiet.retreats, quiet.opensNone⟩

theorem Retreats.quiet {tasks : List RoomTask}
    (retreats : Retreats manager after) (opensNone : openings tasks = []) :
    Quiet manager (after, tasks) :=
  ⟨retreats, opensNone⟩

theorem Quiet.since {turn : ConnectionManager × List RoomTask}
    (quiet : Quiet middle turn) (retreats : Retreats manager middle) :
    Quiet manager turn :=
  ⟨retreats.trans quiet.retreats, quiet.opensNone⟩

theorem Retreats.settle (manager : ConnectionManager) (promise : Nat)
    (value : Bool) : Retreats manager (manager.settle promise value) := by
  apply Retreats.of_same <;> rfl

theorem settle_quiet (manager : ConnectionManager) (promise : Nat)
    (value : Bool) : Quiet manager (manager.settle promise value, []) :=
  (Retreats.settle manager promise value).quiet rfl

theorem foldl_queue (manager : ConnectionManager) (tasks : List RoomTask) :
    tasks.foldl queue manager =
      { manager with queued := manager.queued ++ tasks } := by
  induction tasks generalizing manager with
  | nil => simp
  | cons task tasks induction => simp [induction, queue]

theorem Quiet.unsuppress {turn : ConnectionManager × List RoomTask}
    (quiet : Quiet manager turn) : Quiet manager (unsuppress turn) := by
  refine ⟨quiet.retreats.trans ?_, quiet.opensNone⟩
  apply Retreats.of_same <;> rfl

theorem KeepsSound.unsuppress {turn : ConnectionManager × List RoomTask}
    (keeps : KeepsSound manager turn) :
    KeepsSound manager (unsuppress turn) := by
  refine ⟨fun sound => (keeps.sound sound).retreats ?_, keeps.opensNone⟩
  apply Retreats.of_same <;> rfl

theorem waitForRelay_quiet (manager : ConnectionManager)
    (outside : Surroundings) (polls result : Nat) :
    Quiet manager (manager.waitForRelay outside polls result) := by
  unfold waitForRelay
  split
  · exact settle_quiet manager result _
  · split
    · exact settle_quiet manager result _
    · exact (Retreats.refl manager).quiet rfl

theorem startClient_keepsSound (manager : ConnectionManager)
    (outside : Surroundings) (room result : Nat) :
    KeepsSound manager (manager.startClient outside room result) := by
  have waits := waitForRelay_quiet
    ((manager.withClient room).connect manager.relayClients.length) outside 0
    result
  exact ⟨fun sound => (sound.connect room).retreats waits.retreats,
    waits.opensNone⟩

theorem connectRelay_keepsSound (manager : ConnectionManager)
    (outside : Surroundings) (result : Nat) :
    KeepsSound manager (manager.connectRelay outside result) := by
  unfold connectRelay
  split
  · exact (settle_quiet manager result false).keepsSound
  · split
    · exact (settle_quiet manager result false).keepsSound
    · have marked := Retreats.modifyRuntime manager fun runtime =>
        { runtime with bucketFull := false }
      dsimp only
      split
      · exact ((marked.trans (.closeAndWait _ _)).quiet rfl).keepsSound
      · exact (startClient_keepsSound _ outside _ result).since marked

theorem connectExisting_quiet (manager : ConnectionManager)
    (room result : Nat) :
    Quiet manager (manager.connectExisting room result) := by
  have suppressed : Retreats manager
      { manager with suppressReconnect := true } := by
    apply Retreats.of_same <;> rfl
  have marked := suppressed.trans (.modifyRuntime _ fun runtime =>
    { runtime with bucketFull := false, connState := .connecting })
  unfold connectExisting
  dsimp only
  split
  · exact (marked.trans (.closeAndWait _ _)).quiet rfl
  · exact marked.quiet rfl

theorem connectRoom_quiet (manager : ConnectionManager) (result : Nat) :
    Quiet manager (manager.connectRoom result) := by
  unfold connectRoom
  split
  · exact settle_quiet manager result false
  · split
    · exact settle_quiet manager result true
    · exact (connectExisting_quiet _ _ result).since
        (.stopHeartbeat manager)

theorem doOpenRoom_quiet (manager : ConnectionManager)
    (outside : Surroundings) (result : Nat) :
    Quiet manager (manager.doOpenRoom outside result) := by
  unfold doOpenRoom
  split
  · split
    · exact settle_quiet manager result true
    · exact connectExisting_quiet manager _ result
  · split
    · exact settle_quiet manager result false
    · split <;> exact (Retreats.refl manager).quiet rfl

theorem doReconnectRoom_quiet (manager : ConnectionManager)
    (result : Nat) : Quiet manager (manager.doReconnectRoom result) := by
  have suppressed : Retreats manager
      { manager with suppressReconnect := true } := by
    apply Retreats.of_same <;> rfl
  have stopped := suppressed.trans (.stopHeartbeat _)
  unfold doReconnectRoom
  dsimp only
  split
  · exact stopped.quiet rfl
  · have marked := stopped.trans (.modifyRuntime _ fun runtime =>
      { runtime with bucketFull := false, reconnectStalled := false })
    split
    · exact (marked.trans (.closeAndWait _ _)).quiet rfl
    · exact marked.quiet rfl

theorem enter_quiet (manager : ConnectionManager) (result : Nat)
    {awaiting : RoomTask} (opensNone : openings [awaiting] = []) :
    Quiet manager (manager.enter result awaiting) := by
  unfold enter
  split
  · exact (Retreats.refl manager).quiet rfl
  · exact (Retreats.refl manager).quiet opensNone

theorem Retreats.queue (manager : ConnectionManager) {tasks : List RoomTask}
    (opensNone : openings tasks = []) :
    Retreats manager { manager with queued := manager.queued ++ tasks } := by
  have same := Retreats.refl manager
  refine { same with
    clients := ?_
    newWaits := ?_
    queued := ⟨tasks, rfl, opensNone, ?_⟩
    timers := ⟨le_rfl, fun _ => .inl, fun _ => .inl⟩ }
  · intro ref client client' found found'
    obtain rfl := Option.some.inj (found.symm.trans found')
    exact ⟨rfl, id, le_rfl, .inl rfl⟩
  · intro ref wait ws beyond found
    rw [List.getElem?_eq_none beyond] at found
    cases found
  · intro ref wait beyond found
    rw [List.getElem?_eq_none beyond] at found
    cases found

theorem register_quiet (manager : ConnectionManager) (result : Nat)
    {start : ConnectionManager → Nat → ConnectionManager × List RoomTask}
    (starts : ∀ manager promise,
      Quiet manager (start manager promise)) :
    Quiet manager (manager.register result start) := by
  have promised : Retreats manager manager.newPromise := by
    apply Retreats.of_same <;> rfl
  have started := starts manager.newPromise manager.promises.length
  refine ⟨?_, rfl⟩
  simp only [register, foldl_queue]
  refine (promised.trans started.retreats).trans
    ((Retreats.queue _ started.opensNone).trans ?_)
  apply Retreats.of_same <;> rfl

theorem call_quiet (manager : ConnectionManager)
    {enter : ConnectionManager → Nat → ConnectionManager × List RoomTask}
    {after : Nat → List RoomTask}
    (enters : ∀ manager promise, Quiet manager (enter manager promise))
    (opensNone : ∀ promise, openings (after promise) = []) :
    Quiet manager (manager.call enter after) := by
  have promised : Retreats manager manager.newPromise := by
    apply Retreats.of_same <;> rfl
  have entered := enters manager.newPromise manager.promises.length
  refine ⟨promised.trans entered.retreats, ?_⟩
  simp [call, entered.opensNone, opensNone]

theorem callReconnect_quiet (manager : ConnectionManager)
    {after : Nat → List RoomTask}
    (opensNone : ∀ promise, openings (after promise) = []) :
    Quiet manager
      (manager.call ConnectionManager.reconnectRoom after) :=
  call_quiet manager (fun _ _ => enter_quiet _ _ rfl) opensNone

theorem callOpen_quiet (manager : ConnectionManager)
    {after : Nat → List RoomTask}
    (opensNone : ∀ promise, openings (after promise) = []) :
    Quiet manager (manager.call ConnectionManager.openRoom after) :=
  call_quiet manager (fun _ _ => enter_quiet _ _ rfl) opensNone

theorem forceStaleReconnect_quiet (manager : ConnectionManager) :
    Quiet manager manager.forceStaleReconnect := by
  unfold forceStaleReconnect
  split
  · exact (Retreats.refl manager).quiet rfl
  · split
    · exact (Retreats.refl manager).quiet rfl
    · exact (callReconnect_quiet _ fun _ => rfl).since
        (.stopHeartbeat manager)

theorem sendHeartbeatPing_quiet (manager : ConnectionManager) :
    Quiet manager manager.sendHeartbeatPing := by
  unfold sendHeartbeatPing
  split
  · exact (Retreats.refl manager).quiet rfl
  · split
    · exact forceStaleReconnect_quiet manager
    · refine Retreats.quiet ?_ rfl
      apply Retreats.of_same <;> rfl

theorem closeThen_quiet (manager : ConnectionManager)
    {closing : Nat → RoomTask} {after : RoomTask}
    (opensNone : openings [after] = [])
    (closingOpensNone : ∀ wait, openings [closing wait] = []) :
    Quiet manager (manager.closeThen closing after) := by
  unfold closeThen
  split
  · exact (Retreats.closeAndWait manager _).quiet (closingOpensNone _)
  · exact (Retreats.refl manager).quiet opensNone

theorem flow_keepsSound {outside : Surroundings} {result : Nat}
    {stage : ConnectFlow} {turn : ConnectionManager × List RoomTask}
    (goes : manager.flow outside result stage = some turn) :
    KeepsSound manager turn := by
  cases stage with
  | reconnectClosing room wait =>
      simp only [flow] at goes
      split at goes <;> cases goes
      exact ((Retreats.dropClient manager room).quiet rfl).keepsSound
  | reconnectPause =>
      simp only [flow] at goes
      split at goes <;> cases goes
      · exact (enter_quiet manager result rfl).unsuppress.keepsSound
      · exact (connectRoom_quiet manager result).unsuppress.keepsSound
  | connectClosing room wait =>
      simp only [flow] at goes
      split at goes <;> cases goes
      exact ((Retreats.dropClient manager room).quiet rfl).keepsSound
  | connectToken =>
      simp only [flow] at goes
      split at goes <;> cases goes
      · exact (connectRelay_keepsSound manager outside result).unsuppress
      · exact (settle_quiet manager result false).unsuppress.keepsSound
  | openCredentials =>
      simp only [flow] at goes
      split at goes <;> cases goes
      · exact ((Retreats.refl manager).quiet rfl).keepsSound
      · exact (settle_quiet manager result false).keepsSound
  | openRecord =>
      simp only [flow] at goes
      split at goes <;> cases goes
      · exact ((Retreats.refl manager).quiet rfl).keepsSound
      · exact (settle_quiet manager result false).keepsSound
  | openMessages =>
      cases goes
      exact ⟨fun sound => sound.addRoom outside.peerMessages, rfl⟩
  | openPending =>
      cases goes
      exact ((Retreats.refl manager).quiet rfl).keepsSound
  | openToken =>
      simp only [flow] at goes
      split at goes <;> cases goes
      · exact connectRelay_keepsSound manager outside result
      · exact (settle_quiet manager result false).keepsSound
  | relayClosing room wait =>
      simp only [flow] at goes
      split at goes <;> cases goes
      exact (startClient_keepsSound _ outside room result).since
        (.dropClient manager room)
  | waitForRelay polls =>
      cases goes
      exact (waitForRelay_quiet manager outside polls result).keepsSound

end ConnectionManager

open ConnectionManager

/-- The tasks that may do more than close things. -/
def RoomTask.opens : RoomTask → Bool
  | .flow _ _ | .openSocket _ _ | .socketOpen _ => true
  | _ => false

/-- The other tasks open nothing. -/
theorem ConnectionManager.Sound.quiet {outside : Surroundings}
    {task : RoomTask} {manager : ConnectionManager} {tasks : List RoomTask}
    {turn : ConnectionManager × List RoomTask} (sound : manager.Sound tasks)
    (runs : task.run outside manager = some turn)
    (closes : task.opens = false) : Quiet manager turn := by
  have unchanged := Retreats.refl manager
  cases task with
  | callOpenRoom =>
      cases runs
      exact callOpen_quiet manager fun _ => rfl
  | callReconnectRoom =>
      cases runs
      exact callReconnect_quiet manager fun _ => rfl
  | openRoom result =>
      simp only [RoomTask.run] at runs
      split at runs
      · cases runs
        exact settle_quiet manager result false
      · split at runs <;> cases runs
        · exact settle_quiet manager result true
        · exact register_quiet manager result fun manager promise =>
            doOpenRoom_quiet manager outside promise
  | reconnectRoom result =>
      simp only [RoomTask.run] at runs
      split at runs <;> cases runs
      · exact settle_quiet manager result false
      · exact (register_quiet _ result doReconnectRoom_quiet).since
          (.resetReconnectState manager)
  | forward inflight result =>
      obtain ⟨ok, -, rfl⟩ := Option.map_eq_some_iff.mp runs
      exact settle_quiet manager result ok
  | finish promise result =>
      obtain ⟨ok, -, rfl⟩ := Option.map_eq_some_iff.mp runs
      refine Retreats.quiet ?_ rfl
      apply Retreats.of_same <;> rfl
  | flow stage result => cases closes
  | connectWithPin =>
      simp only [RoomTask.run] at runs
      split at runs <;> cases runs
      · exact (Retreats.closeRoomConnection manager).quiet rfl
      · exact unchanged.quiet rfl
  | seatReclaimed =>
      cases runs
      exact callOpen_quiet manager fun _ => rfl
  | openSocket client generation => cases closes
  | closeTimeout wait =>
      cases runs
      exact (sound.finishWait wait).quiet rfl
  | socketOpen ws => cases closes
  | socketError ws =>
      obtain ⟨manager', failed, rfl⟩ := Option.map_eq_some_iff.mp runs
      exact (Retreats.onSocketError failed).quiet rfl
  | socketClose ws code =>
      obtain ⟨manager', closed, rfl⟩ := Option.map_eq_some_iff.mp runs
      exact (sound.onSocketClose closed).quiet rfl
  | socketControl ws msg =>
      obtain ⟨manager', handled, rfl⟩ := Option.map_eq_some_iff.mp runs
      exact (Retreats.onSocketMessage
        (.onControl manager msg) handled).quiet rfl
  | socketBinary ws =>
      obtain ⟨manager', handled, rfl⟩ := Option.map_eq_some_iff.mp runs
      exact (Retreats.onSocketMessage
        (.onBinary manager) handled).quiet rfl
  | clientReconnectTimer ref =>
      simp only [RoomTask.run] at runs
      split at runs
      · cases runs
      · rename_i client found
        have passive := sound.passive ref client found
        simp [passive.2] at runs
  | managedReconnect =>
      simp only [RoomTask.run] at runs
      split at runs
      · cases runs
      · have cleared := Retreats.cancelManagedReconnect manager
        split at runs <;> cases runs
        · exact cleared.quiet rfl
        · refine (callReconnect_quiet _ fun _ => rfl).since (cleared.trans ?_)
          apply Retreats.of_same <;> rfl
  | afterManagedReconnect call =>
      obtain ⟨ok, -, rfl⟩ := Option.map_eq_some_iff.mp runs
      split
      · exact unchanged.quiet rfl
      · split
        · exact unchanged.quiet rfl
        · exact (Retreats.scheduleManagedReconnect manager).quiet rfl
  | heartbeatTick =>
      simp only [RoomTask.run] at runs
      split at runs
      · cases runs
        exact unchanged.quiet rfl
      · split at runs <;> cases runs
        · exact unchanged.quiet rfl
        · exact sendHeartbeatPing_quiet manager
  | heartbeatTimeout =>
      simp only [RoomTask.run] at runs
      split at runs <;> cases runs
      refine (forceStaleReconnect_quiet _).since ?_
      apply Retreats.of_same <;> rfl
  | afterStaleReconnect call =>
      obtain ⟨ok, -, rfl⟩ := Option.map_eq_some_iff.mp runs
      split
      · exact unchanged.quiet rfl
      · split
        · exact unchanged.quiet rfl
        · exact (Retreats.scheduleManagedReconnect manager).quiet rfl
  | ensureAllConnected =>
      simp only [RoomTask.run] at runs
      split at runs
      · cases runs
        exact unchanged.quiet rfl
      · split at runs
        · cases runs
          exact unchanged.quiet rfl
        · split at runs
          · cases runs
            exact (callReconnect_quiet _ fun _ => rfl).since
              (.resetReconnectState manager)
          · split at runs <;> cases runs
            · exact sendHeartbeatPing_quiet manager
            · exact unchanged.quiet rfl
  | offline =>
      cases runs
      exact (Retreats.modifyRuntime manager _).quiet rfl
  | closeRoom =>
      cases runs
      refine Retreats.quiet
        ((Retreats.closeRoomConnection manager).trans ?_) rfl
      apply Retreats.of_same <;> rfl
  | releaseSeat =>
      cases runs
      have quiet := (Retreats.cancelManagedReconnect manager).trans
        (.stopHeartbeat _)
      refine (closeThen_quiet _ rfl fun _ => rfl).since (quiet.trans ?_)
      apply Retreats.of_same <;> rfl
  | releaseSeatClosing wait =>
      simp only [RoomTask.run] at runs
      split at runs <;> cases runs
      exact unchanged.quiet rfl
  | releaseSeatPause =>
      cases runs
      exact (Retreats.closeRoomConnection manager).quiet rfl
  | releaseSeatRecord =>
      cases runs
      refine Retreats.quiet ?_ rfl
      apply Retreats.of_same <;> rfl
  | lock =>
      cases runs
      have quiet := (Retreats.cancelManagedReconnect manager).trans
        (.stopHeartbeat _)
      refine (closeThen_quiet _ rfl fun _ => rfl).since (quiet.trans ?_)
      apply Retreats.of_same <;> rfl
  | lockClosing wait =>
      simp only [RoomTask.run] at runs
      split at runs <;> cases runs
      exact unchanged.quiet rfl
  | lockPause =>
      cases runs
      exact ((Retreats.modifyRuntime manager _).trans
        (.closeRoomConnection _)).quiet rfl
  | restoreAll =>
      cases runs
      refine Retreats.quiet ?_ rfl
      apply Retreats.of_same <;> rfl
  | messagesChanged fromPeer =>
      cases runs
      refine Retreats.quiet ?_ rfl
      apply Retreats.of_same <;> rfl

/-- The objects fit after every step, if they did before. -/
theorem ConnectionManager.Sound.run {outside : Surroundings} {task : RoomTask}
    {manager : ConnectionManager} {tasks : List RoomTask}
    {turn : ConnectionManager × List RoomTask}
    (sound : manager.Sound (task :: tasks))
    (runs : task.run outside manager = some turn) :
    turn.1.Sound (turn.2 ++ tasks) := by
  have split : openings (task :: tasks) = openings [task] ++ openings tasks :=
    openings_append [task] tasks
  have of_keeps : (manager.Sound tasks → KeepsSound manager turn) →
      openings [task] = [] → turn.1.Sound (turn.2 ++ tasks) := by
    intro keeps opensNone
    have others : manager.Sound tasks := by
      apply sound.of_openings
      rw [split, opensNone, List.nil_append]
    have keeps := keeps others
    apply (keeps.sound others).of_openings
    rw [openings_append, keeps.opensNone, List.nil_append]
  cases opens : task.opens with
  | false =>
      have opensNone : openings [task] = [] := by
        cases task <;> first | rfl | cases opens
      exact of_keeps (fun others => (others.quiet runs opens).keepsSound)
        opensNone
  | true =>
      cases task with
      | flow stage result => exact of_keeps (fun _ => flow_keepsSound runs) rfl
      | openSocket client generation =>
          cases runs
          exact sound.openSocket
      | socketOpen ws =>
          obtain ⟨manager', opened, rfl⟩ := Option.map_eq_some_iff.mp runs
          exact of_keeps (fun _ =>
            ⟨fun sound => sound.onSocketOpen opened, rfl⟩) rfl
      | _ => cases opens

theorem ConnectionManager.Sound.next {outside : Surroundings} {task : RoomTask}
    {manager manager' : ConnectionManager} {tasks others : List RoomTask}
    (sound : manager.Sound (task :: others))
    (next : task.next outside manager = some (manager', tasks)) :
    manager'.Sound (tasks ++ (task.forks outside manager ++ others)) ∧
      manager'.queued = [] := by
  obtain ⟨turn, runs, same⟩ := Option.map_eq_some_iff.mp next
  obtain ⟨rfl, rfl⟩ := Prod.mk.inj same
  have kept := sound.run runs
  have pending : (openings (turn.1.queued ++ (turn.2 ++ others))).Perm
      (openings ([] ++ (turn.2 ++ (turn.1.queued ++ others)))) := by
    simp only [openings_append, List.nil_append]
    rw [← List.append_assoc, ← List.append_assoc]
    exact List.perm_append_comm.append_right _
  have forks : task.forks outside manager = turn.1.queued := by
    simp [RoomTask.forks, runs]
  rw [forks]
  refine ⟨{ kept with opening := ?_, once := ?_ }, rfl⟩
  · intro ref generation member
    exact kept.opening ref generation (pending.mem_iff.mpr member)
  · exact (pending.map Prod.fst).nodup_iff.mp kept.once

/-- The objects fit in every reachable state. -/
theorem sound_of_reachable {pool : Pool ConnectionManager RoomTask}
    (reachable : connectionSystem.Reachable pool) :
    pool.shared.Sound pool.acts ∧ pool.shared.queued = [] := by
  have unrestricted := Program.reachable_unrestricted reachable
  refine Program.invariant
    (fun manager tasks => manager.Sound tasks ∧ manager.queued = [])
    ?_ ?_ ?_ ?_ unrestricted
  · rintro manager tasks others moved ⟨sound, idle⟩
    exact ⟨sound.of_openings (openings_perm moved), idle⟩
  · rintro pool rfl
    exact ⟨sound_blank, rfl⟩
  · rintro manager tasks task entry ⟨sound, idle⟩
    refine ⟨sound.of_openings ?_, idle⟩
    have opensNone : openings [task] = [] := by
      cases task <;> first | rfl | cases entry
    have split : openings (task :: tasks) =
        openings [task] ++ openings tasks := openings_append [task] tasks
    rw [split, opensNone, List.nil_append]
  · rintro manager manager' task tasks others outside ⟨sound, -⟩ next -
    exact sound.next next

end Byteln.Client

import Byteln.Client.ConnectionSound

/-!
# Calls and connect flows

What a step does to the promises of the calls and connect flows, and to the
entry in `openPromises`.  Every promise that is not settled has exactly one
task that will settle it.
-/

namespace Byteln.Client

open Byteln.Library

/-- The promise that a task will settle. -/
def RoomTask.result? : RoomTask → Option Nat
  | .openRoom result | .reconnectRoom result => some result
  | .forward _ result | .finish _ result | .flow _ result => some result
  | _ => none

/-- The tasks that will settle a promise. -/
def serving (tasks : List RoomTask) : List RoomTask :=
  tasks.filter fun task => task.result?.isSome

@[simp] theorem serving_nil : serving [] = [] := rfl

@[simp] theorem serving_append (tasks others : List RoomTask) :
    serving (tasks ++ others) = serving tasks ++ serving others :=
  List.filter_append ..

theorem serving_perm {tasks others : List RoomTask}
    (moved : tasks.Perm others) : (serving tasks).Perm (serving others) :=
  moved.filter _

theorem mem_serving {tasks : List RoomTask} {task : RoomTask} :
    task ∈ serving tasks ↔ task ∈ tasks ∧ task.result?.isSome = true :=
  List.mem_filter

theorem serving_eq_nil {tasks : List RoomTask}
    (none : ∀ task ∈ tasks, task.result? = none) : serving tasks = [] := by
  unfold serving
  rw [List.filter_eq_nil_iff]
  intro task member
  simp [none task member]

namespace ConnectionManager

/-- The calls are left alone, and no task that settles a promise is queued. -/
structure SameCalls (before after : ConnectionManager) : Prop where
  promises : after.promises = before.promises
  openPromise : after.openPromise = before.openPromise
  queued : serving after.queued = serving before.queued

variable {manager before middle after : ConnectionManager}

theorem SameCalls.refl (manager : ConnectionManager) :
    SameCalls manager manager := ⟨rfl, rfl, rfl⟩

theorem SameCalls.trans (first : SameCalls before middle)
    (second : SameCalls middle after) : SameCalls before after :=
  ⟨second.promises.trans first.promises,
    second.openPromise.trans first.openPromise,
    second.queued.trans first.queued⟩

theorem closeClient_sameCalls (manager : ConnectionManager) (ref : Nat) :
    SameCalls manager (manager.closeClient ref) := by
  unfold closeClient
  dsimp only
  split <;> exact ⟨rfl, rfl, rfl⟩

theorem scheduleManagedReconnect_sameCalls (manager : ConnectionManager) :
    SameCalls manager manager.scheduleManagedReconnect := by
  unfold scheduleManagedReconnect
  split
  · exact .refl manager
  · split
    · exact .refl manager
    · dsimp only
      split <;> exact ⟨rfl, rfl, rfl⟩

theorem handleDisconnect_sameCalls (manager : ConnectionManager) :
    SameCalls manager manager.handleDisconnectForReconnect := by
  unfold handleDisconnectForReconnect
  split
  · exact .refl manager
  · split
    · exact .refl manager
    · exact scheduleManagedReconnect_sameCalls manager

theorem showStatus_sameCalls (manager : ConnectionManager) (s : ConnState)
    (detail : JSString) : SameCalls manager (manager.showStatus s detail) := by
  unfold showStatus
  split
  · exact ⟨rfl, rfl, rfl⟩
  · split <;> exact ⟨rfl, rfl, rfl⟩

theorem giveUpSeat_sameCalls (manager : ConnectionManager) (ref : Nat) :
    SameCalls manager (manager.giveUpSeat ref) := by
  have marked : SameCalls manager
      (manager.modifyRuntime fun runtime =>
        { runtime with bucketFull := true }).cancelManagedReconnect :=
    ⟨rfl, rfl, rfl⟩
  have closed := marked.trans (closeClient_sameCalls _ ref)
  unfold giveUpSeat
  dsimp only
  split
  · exact closed
  · exact closed.trans ⟨rfl, rfl, rfl⟩

theorem losePeer_sameCalls (manager : ConnectionManager) :
    SameCalls manager manager.losePeer := by
  unfold losePeer
  split <;> exact ⟨rfl, rfl, rfl⟩

theorem onStatus_sameCalls (manager : ConnectionManager) (ref : Nat)
    (s : ConnState) (detail : JSString) :
    SameCalls manager (manager.onStatus ref s detail) := by
  have shown := showStatus_sameCalls manager s detail
  unfold onStatus
  dsimp only
  split
  · exact .refl manager
  · split
    · split
      · exact (shown.trans (giveUpSeat_sameCalls _ ref)).trans
          (losePeer_sameCalls _)
      · exact (shown.trans (losePeer_sameCalls _)).trans
          (handleDisconnect_sameCalls _)
    · split
      · exact shown.trans (losePeer_sameCalls _)
      · exact shown

theorem notify_sameCalls (manager : ConnectionManager) (ref : Nat)
    (s : ConnState) (detail : JSString) :
    SameCalls manager (manager.notify ref s detail) := by
  unfold notify
  split
  · exact .refl manager
  · split
    · exact onStatus_sameCalls manager ref s detail
    · exact .refl manager

theorem closeAndWait_sameCalls (manager : ConnectionManager) (ref : Nat) :
    SameCalls manager (manager.closeAndWait ref) := by
  unfold closeAndWait
  dsimp only
  split
  · exact ⟨rfl, rfl, rfl⟩
  · refine ⟨rfl, rfl, ?_⟩
    simp [queue, closeSocket, modifySocket, modifyClient, serving,
      RoomTask.result?]

theorem connect_sameCalls (manager : ConnectionManager) (ref : Nat) :
    SameCalls manager (manager.connect ref) := by
  unfold connect
  split
  · exact .refl manager
  · dsimp only
    refine SameCalls.trans (SameCalls.trans ?_ (notify_sameCalls _ ref _ []))
      ⟨rfl, rfl, ?_⟩
    · split <;> exact ⟨rfl, rfl, rfl⟩
    · simp [queue, modifyClient, serving, RoomTask.result?]

theorem finishWait_sameCalls (manager : ConnectionManager) (ref : Nat) :
    SameCalls manager (manager.finishWait ref) := by
  unfold finishWait
  split <;> exact ⟨rfl, rfl, rfl⟩

theorem finishWaits_sameCalls (manager : ConnectionManager) (ws : Nat) :
    SameCalls manager (manager.finishWaits ws) := by
  apply finishWaits_rule
  · intro next ref wait before _ _
    exact before.trans (finishWait_sameCalls next ref)
  · exact .refl manager

theorem onSocketOpen_sameCalls {ws : Nat}
    (handled : manager.onSocketOpen ws = some after) :
    SameCalls manager after := by
  unfold onSocketOpen at handled
  split at handled
  · rename_i ref seen found
    obtain rfl := Option.some.inj handled
    have opened : SameCalls manager ((manager.modifySocket ws fun socket =>
        { socket with readyState := .open }).modifyClient ref fun client =>
          { client with reconnectAttempt := 0 }) := ⟨rfl, rfl, rfl⟩
    exact opened.trans (notify_sameCalls _ _ _ _)
  · cases handled

theorem onSocketError_sameCalls {ws : Nat}
    (handled : manager.onSocketError ws = some after) :
    SameCalls manager after := by
  unfold onSocketError at handled
  split at handled
  · obtain rfl := Option.some.inj handled
    have closed : SameCalls manager (manager.modifySocket ws fun socket =>
        { socket with readyState := .closed }) := ⟨rfl, rfl, rfl⟩
    exact closed.trans (notify_sameCalls _ _ _ _)
  · cases handled

theorem onSocketClose_sameCalls {ws code : Nat}
    (handled : manager.onSocketClose ws code = some after) :
    SameCalls manager after := by
  unfold onSocketClose at handled
  split at handled
  · rename_i ref state found
    obtain rfl := Option.some.inj handled
    have closed : SameCalls manager ((manager.modifySocket ws fun socket =>
        { socket with
          readyState := .closed, closeSeen := true }).modifyClient ref
            fun client => { client with ws := none }) := ⟨rfl, rfl, rfl⟩
    have told := closed.trans
      (notify_sameCalls _ ref .closed (closeDetail code))
    refine told.trans (.trans ?_ (finishWaits_sameCalls _ ws))
    exact ⟨rfl, rfl, rfl⟩
  · cases handled

theorem onSocketMessage_sameCalls {ws : Nat}
    {handle : ConnectionManager → ConnectionManager}
    (handles : SameCalls manager (handle manager))
    (handled : manager.onSocketMessage ws handle = some after) :
    SameCalls manager after := by
  unfold onSocketMessage at handled
  split at handled
  · split at handled
    · obtain rfl := Option.some.inj handled
      exact .refl manager
    · obtain rfl := Option.some.inj handled
      split
      · exact handles
      · exact .refl manager
  · cases handled

theorem onControl_sameCalls (manager : ConnectionManager) (msg : Control) :
    SameCalls manager (manager.onControl msg) := by
  unfold onControl
  split
  · exact .refl manager
  · cases msg <;> exact ⟨rfl, rfl, rfl⟩

theorem onBinary_sameCalls (manager : ConnectionManager) :
    SameCalls manager manager.onBinary := by
  unfold onBinary
  split
  · exact .refl manager
  · split <;> exact ⟨rfl, rfl, rfl⟩

theorem openSocket_sameCalls (manager : ConnectionManager)
    (ref generation : Nat) :
    SameCalls manager (manager.openSocket ref generation) := by
  unfold openSocket
  split
  · exact .refl manager
  · split <;> exact ⟨rfl, rfl, rfl⟩

theorem closeRoomConnection_sameCalls (manager : ConnectionManager) :
    SameCalls manager manager.closeRoomConnection := by
  unfold closeRoomConnection
  split
  · exact .refl manager
  · dsimp only
    split
    · exact ⟨rfl, rfl, rfl⟩
    · have quiet : SameCalls manager
          manager.cancelManagedReconnect.stopHeartbeat := ⟨rfl, rfl, rfl⟩
      exact (quiet.trans (closeClient_sameCalls _ _)).trans ⟨rfl, rfl, rfl⟩

end ConnectionManager

/-! ## Steps of the calls -/

/-- How many stages are left, at most. -/
def ConnectFlow.left : ConnectFlow → Nat
  | .reconnectClosing _ _ => MAX_RELAY_POLLS + 10
  | .reconnectPause => MAX_RELAY_POLLS + 9
  | .openCredentials => MAX_RELAY_POLLS + 7
  | .openRecord => MAX_RELAY_POLLS + 6
  | .openMessages => MAX_RELAY_POLLS + 5
  | .openPending | .connectClosing _ _ => MAX_RELAY_POLLS + 4
  | .connectToken | .openToken => MAX_RELAY_POLLS + 3
  | .relayClosing _ _ => MAX_RELAY_POLLS + 2
  | .waitForRelay polls => MAX_RELAY_POLLS + 1 - polls

/-- The promise of `closeAndWait` that a flow waits for. -/
def ConnectFlow.wait? : ConnectFlow → Option Nat
  | .reconnectClosing _ wait | .connectClosing _ wait => some wait
  | .relayClosing _ wait => some wait
  | _ => none

/-- How many activations are left of a call that shares no promise. -/
def RoomTask.left : RoomTask → Nat
  | .reconnectRoom _ => MAX_RELAY_POLLS + 11
  | .openRoom _ => MAX_RELAY_POLLS + 8
  | .flow stage _ => stage.left
  | _ => 0

/-- The part of the manager that calls wait for each other with. -/
structure Calls where
  promises : List (Option Bool)
  openPromise : Option Nat

namespace Calls

def add (calls : Calls) (value : Option Bool) : Calls :=
  { calls with promises := calls.promises ++ [value] }

def settle (calls : Calls) (promise : Nat) (value : Bool) : Calls :=
  { calls with promises := calls.promises.set promise (some value) }

def settled? (calls : Calls) (promise : Nat) : Option Bool :=
  calls.promises[promise]?.join

/-- A task that goes on past its first `await` by itself. -/
inductive Awaiting : RoomTask → Nat → Prop where
  | openRoom (result : Nat) : Awaiting (.openRoom result) result
  | reconnectRoom (result : Nat) : Awaiting (.reconnectRoom result) result

theorem Awaiting.serving {task : RoomTask} {result : Nat}
    (awaits : Awaiting task result) : serving [task] = [task] := by
  cases awaits <;> rfl

/-- What a step does to the calls, with the tasks it leaves that settle a
promise. -/
inductive Move (calls : Calls) : RoomTask → Calls → List RoomTask → Prop where
  | quiet {task : RoomTask} :
      task.result? = none → Move calls task calls []
  | call {task awaiting : RoomTask} :
      task.result? = none → calls.openPromise = none →
        Awaiting awaiting calls.promises.length →
          Move calls task (calls.add none) [awaiting]
  | share {task : RoomTask} {inflight : Nat} :
      task.result? = none → calls.openPromise = some inflight →
        Move calls task (calls.add none)
          [.forward inflight calls.promises.length]
  | answer {task : RoomTask} {result : Nat} (value : Bool) :
      Awaiting task result → Move calls task (calls.settle result value) []
  | start {task : RoomTask} {result : Nat} {stage : ConnectFlow} :
      Awaiting task result → stage.left < task.left →
        Move calls task
          { calls.add none with openPromise := some calls.promises.length }
          [.finish calls.promises.length result,
            .flow stage calls.promises.length]
  | startEnds {task : RoomTask} {result : Nat} (value : Bool) :
      Awaiting task result →
        Move calls task
          { calls.add (some value) with
            openPromise := some calls.promises.length }
          [.finish calls.promises.length result]
  | forward {inflight result : Nat} {value : Bool} :
      calls.settled? inflight = some value →
        Move calls (.forward inflight result) (calls.settle result value) []
  | finish {promise result : Nat} {value : Bool} :
      calls.settled? promise = some value →
        Move calls (.finish promise result)
          { calls.settle result value with openPromise := none } []
  | ends {stage : ConnectFlow} {result : Nat} (value : Bool) :
      Move calls (.flow stage result) (calls.settle result value) []
  | goesOn {stage stage' : ConnectFlow} {result : Nat} :
      stage'.left < stage.left →
        Move calls (.flow stage result) calls [.flow stage' result]
  | reopen {result : Nat} :
      calls.openPromise = none →
        Move calls (.flow .reconnectPause result) calls [.openRoom result]
  | wait {inflight result : Nat} :
      calls.openPromise = some inflight →
        Move calls (.flow .reconnectPause result) calls
          [.forward inflight result]

end Calls

namespace ConnectionManager

def calls (manager : ConnectionManager) : Calls :=
  ⟨manager.promises, manager.openPromise⟩

/-- A part of a flow settles its promise or waits in a later stage. -/
inductive FlowTurn (manager : ConnectionManager) (result left : Nat) :
    ConnectionManager × List RoomTask → Prop where
  | ends {after : ConnectionManager} (value : Bool) :
      SameCalls (manager.settle result value) after →
        FlowTurn manager result left (after, [])
  | waits {after : ConnectionManager} (stage : ConnectFlow) :
      SameCalls manager after → stage.left < left →
      (∀ wait, stage.wait? = some wait → wait < after.closeWaits.length) →
        FlowTurn manager result left (after, [.flow stage result])

variable {manager before middle after : ConnectionManager} {result left : Nat}
  {turn : ConnectionManager × List RoomTask}

theorem FlowTurn.since (turns : FlowTurn middle result left turn)
    (same : SameCalls manager middle) : FlowTurn manager result left turn := by
  cases turns with
  | ends value kept =>
      apply FlowTurn.ends value
      refine ⟨?_, kept.openPromise.trans same.openPromise,
        kept.queued.trans same.queued⟩
      rw [kept.promises, ConnectionManager.settle, ConnectionManager.settle,
        same.promises]
  | waits stage kept less inside =>
      exact .waits stage (same.trans kept) less inside

theorem FlowTurn.unsuppress (turns : FlowTurn manager result left turn) :
    FlowTurn manager result left (unsuppress turn) := by
  cases turns with
  | ends value kept =>
      exact .ends value ⟨kept.promises, kept.openPromise, kept.queued⟩
  | waits stage kept less inside =>
      exact .waits stage ⟨kept.promises, kept.openPromise, kept.queued⟩ less
        inside

theorem FlowTurn.le (turns : FlowTurn manager result left turn) {more : Nat}
    (le : left ≤ more) : FlowTurn manager result more turn := by
  cases turns with
  | ends value kept => exact .ends value kept
  | waits stage kept less inside =>
      exact .waits stage kept (less.trans_le le) inside

theorem length_closeAndWait (manager : ConnectionManager) (ref : Nat) :
    (manager.closeAndWait ref).closeWaits.length =
      manager.closeWaits.length + 1 := by
  unfold closeAndWait
  dsimp only
  split <;>
    simp [queue, closeSocket, modifySocket, modifyClient]

/-- A flow that closes a client waits for it. -/
theorem FlowTurn.closing (ref : Nat) {stage : ConnectFlow}
    (same : SameCalls manager middle) (less : stage.left < left)
    (waits : stage.wait? = some middle.closeWaits.length) :
    FlowTurn manager result left
      (middle.closeAndWait ref, [.flow stage result]) := by
  refine .waits stage (same.trans (closeAndWait_sameCalls middle ref)) less ?_
  intro wait inside
  rw [waits] at inside
  obtain rfl := Option.some.inj inside
  rw [length_closeAndWait]
  exact Nat.lt_succ_self _

theorem settle_flowTurn (manager : ConnectionManager) (result left : Nat)
    (value : Bool) :
    FlowTurn manager result left (manager.settle result value, []) :=
  .ends value (.refl _)

theorem waitForRelay_flowTurn (manager : ConnectionManager)
    (outside : Surroundings) (polls result : Nat) :
    FlowTurn manager result (ConnectFlow.waitForRelay polls).left
      (manager.waitForRelay outside polls result) := by
  unfold waitForRelay
  split
  · exact settle_flowTurn manager result _ _
  · rename_i more
    split
    · exact settle_flowTurn manager result _ _
    · refine .waits _ (.refl manager) ?_ fun wait waits => (nomatch waits)
      simp only [Bool.or_eq_true, decide_eq_true_eq, not_or, not_le] at more
      simp only [ConnectFlow.left]
      omega

theorem startClient_flowTurn (manager : ConnectionManager)
    (outside : Surroundings) (room result : Nat) :
    FlowTurn manager result (MAX_RELAY_POLLS + 2)
      (manager.startClient outside room result) := by
  have made : SameCalls manager (manager.withClient room) := ⟨rfl, rfl, rfl⟩
  have waits := waitForRelay_flowTurn
    ((manager.withClient room).connect manager.relayClients.length) outside 0
    result
  apply (waits.since (made.trans (connect_sameCalls _ _))).le
  simp [ConnectFlow.left]

theorem connectRelay_flowTurn (manager : ConnectionManager)
    (outside : Surroundings) (result : Nat) :
    FlowTurn manager result (MAX_RELAY_POLLS + 3)
      (manager.connectRelay outside result) := by
  unfold connectRelay
  split
  · exact settle_flowTurn manager result _ false
  · split
    · exact settle_flowTurn manager result _ false
    · have marked : SameCalls manager (manager.modifyRuntime fun runtime =>
          { runtime with bucketFull := false }) := ⟨rfl, rfl, rfl⟩
      dsimp only
      split
      · exact .closing _ marked (by simp [ConnectFlow.left]) rfl
      · apply ((startClient_flowTurn _ outside _ result).since marked).le
        simp

theorem connectExisting_flowTurn (manager : ConnectionManager)
    (room result : Nat) :
    FlowTurn manager result (MAX_RELAY_POLLS + 5)
      (manager.connectExisting room result) := by
  have marked : SameCalls manager
      ({ manager with suppressReconnect := true }.modifyRuntime fun runtime =>
        { runtime with bucketFull := false, connState := .connecting }) :=
    ⟨rfl, rfl, rfl⟩
  unfold connectExisting
  dsimp only
  split
  · exact .closing _ marked (by simp [ConnectFlow.left]) rfl
  · exact .waits _ marked (by simp [ConnectFlow.left])
      fun wait waits => (nomatch waits)

theorem connectRoom_flowTurn (manager : ConnectionManager) (result : Nat) :
    FlowTurn manager result (MAX_RELAY_POLLS + 5)
      (manager.connectRoom result) := by
  unfold connectRoom
  split
  · exact settle_flowTurn manager result _ false
  · split
    · exact settle_flowTurn manager result _ true
    · have stopped : SameCalls manager manager.stopHeartbeat :=
        ⟨rfl, rfl, rfl⟩
      exact (connectExisting_flowTurn _ _ result).since stopped

theorem doOpenRoom_flowTurn (manager : ConnectionManager)
    (outside : Surroundings) (result : Nat) :
    FlowTurn manager result (MAX_RELAY_POLLS + 8)
      (manager.doOpenRoom outside result) := by
  unfold doOpenRoom
  split
  · split
    · exact settle_flowTurn manager result _ true
    · apply (connectExisting_flowTurn manager _ result).le
      simp
  · split
    · exact settle_flowTurn manager result _ false
    · split
      · exact .waits _ (.refl manager) (by simp [ConnectFlow.left])
          fun wait waits => (nomatch waits)
      · exact .waits _ (.refl manager) (by simp [ConnectFlow.left])
          fun wait waits => (nomatch waits)

theorem doReconnectRoom_flowTurn (manager : ConnectionManager)
    (result : Nat) :
    FlowTurn manager result (MAX_RELAY_POLLS + 11)
      (manager.doReconnectRoom result) := by
  have stopped : SameCalls manager
      { manager with suppressReconnect := true }.stopHeartbeat :=
    ⟨rfl, rfl, rfl⟩
  unfold doReconnectRoom
  dsimp only
  split
  · exact .waits _ stopped (by simp [ConnectFlow.left])
      fun wait waits => (nomatch waits)
  · have marked : SameCalls manager
        ({ manager with suppressReconnect := true }.stopHeartbeat.modifyRuntime
          fun runtime =>
            { runtime with bucketFull := false, reconnectStalled := false }) :=
      stopped.trans ⟨rfl, rfl, rfl⟩
    split
    · exact .closing _ marked (by simp [ConnectFlow.left]) rfl
    · exact .waits _ marked (by simp [ConnectFlow.left])
        fun wait waits => (nomatch waits)

/-! ## Turns -/

/-- The move of the calls that a turn of a task makes. -/
def CallsMove (manager : ConnectionManager) (task : RoomTask)
    (turn : ConnectionManager × List RoomTask) : Prop :=
  serving manager.queued = [] →
    manager.calls.Move task turn.1.calls (serving (turn.2 ++ turn.1.queued))

variable {task : RoomTask} {tasks : List RoomTask}

theorem SameCalls.calls (same : SameCalls manager after) :
    after.calls = manager.calls := by
  unfold ConnectionManager.calls
  rw [same.promises, same.openPromise]

theorem SameCalls.quiet (same : SameCalls manager after)
    (serves : task.result? = none) (servesNone : serving tasks = []) :
    CallsMove manager task (after, tasks) := by
  intro idle
  rw [same.calls, serving_append, servesNone, same.queued, idle]
  exact .quiet serves

theorem FlowTurn.callsMove {stage : ConnectFlow}
    (turns : FlowTurn manager result stage.left turn) :
    CallsMove manager (.flow stage result) turn := by
  intro idle
  cases turns with
  | ends value kept =>
      rw [kept.calls, List.nil_append, kept.queued]
      have idle : serving (manager.settle result value).queued = [] := idle
      rw [idle]
      exact .ends value
  | waits stage' kept less _ =>
      rw [kept.calls, serving_append, kept.queued, idle]
      exact .goesOn less

theorem SameCalls.add (same : SameCalls manager middle)
    (value : Option Bool) :
    (⟨middle.promises ++ [value], middle.openPromise⟩ : Calls) =
      manager.calls.add value := by
  unfold ConnectionManager.calls Calls.add
  rw [same.promises, same.openPromise]

theorem call_callsMove
    {enters : ConnectionManager → Nat → ConnectionManager × List RoomTask}
    {following : Nat → List RoomTask} {awaiting : Nat → RoomTask}
    (same : SameCalls manager middle)
    (enter : ∀ manager result,
      enters manager result =
        ConnectionManager.enter manager result (awaiting result))
    (awaits : ∀ result, Calls.Awaiting (awaiting result) result)
    (servesNone : ∀ promise, serving (following promise) = [])
    (serves : task.result? = none) :
    CallsMove manager task (middle.call enters following) := by
  intro idle
  have quiet : serving middle.newPromise.queued = [] :=
    same.queued.trans idle
  have added : middle.newPromise.calls = manager.calls.add none :=
    same.add none
  have promises : middle.promises.length = manager.calls.promises.length := by
    rw [same.promises]
    rfl
  simp only [ConnectionManager.call, enter, ConnectionManager.enter, promises]
  cases waits : middle.newPromise.openPromise with
  | none =>
      have free : manager.calls.openPromise = none :=
        same.openPromise.symm.trans waits
      have awaiting := awaits manager.calls.promises.length
      rw [added, serving_append, serving_append, awaiting.serving, servesNone,
        quiet]
      exact .call serves free awaiting
  | some inflight =>
      have taken : manager.calls.openPromise = some inflight :=
        same.openPromise.symm.trans waits
      rw [added, serving_append, serving_append, servesNone, quiet]
      exact .share serves taken

theorem register_callsMove
    {start : ConnectionManager → Nat → ConnectionManager × List RoomTask}
    (awaits : Calls.Awaiting task result) (same : SameCalls manager middle)
    (starts : ∀ manager promise,
      FlowTurn manager promise task.left (start manager promise)) :
    CallsMove manager task (middle.register result start) := by
  intro idle
  have quiet : serving middle.newPromise.queued = [] :=
    same.queued.trans idle
  have promises : middle.promises.length = manager.calls.promises.length := by
    rw [same.promises]
    rfl
  have started := starts middle.newPromise middle.promises.length
  simp only [register, foldl_queue]
  generalize start middle.newPromise middle.promises.length = turn at started
  cases started with
  | @ends after value kept =>
      have settled : after.promises = (manager.calls.add (some value)).promises
          := by
        rw [kept.promises]
        simp [ConnectionManager.settle, newPromise, Calls.add, same.promises,
          ConnectionManager.calls]
      have idle : serving after.queued = [] := kept.queued.trans quiet
      simp only [ConnectionManager.calls, List.append_nil, serving_append, idle,
        settled, promises]
      exact .startEnds value awaits
  | @waits after stage kept less _ =>
      have added : after.promises = (manager.calls.add none).promises := by
        rw [kept.promises]
        simp [newPromise, Calls.add, same.promises, ConnectionManager.calls]
      have idle : serving after.queued = [] := kept.queued.trans quiet
      simp only [ConnectionManager.calls, serving_append, idle, added, promises]
      exact .start awaits less

theorem callOpen_callsMove (same : SameCalls manager middle)
    {following : Nat → List RoomTask}
    (servesNone : ∀ promise, serving (following promise) = [])
    (serves : task.result? = none) :
    CallsMove manager task
      (middle.call ConnectionManager.openRoom following) :=
  call_callsMove same (fun _ _ => rfl) .openRoom servesNone serves

theorem callReconnect_callsMove (same : SameCalls manager middle)
    {following : Nat → List RoomTask}
    (servesNone : ∀ promise, serving (following promise) = [])
    (serves : task.result? = none) :
    CallsMove manager task
      (middle.call ConnectionManager.reconnectRoom following) :=
  call_callsMove same (fun _ _ => rfl) .reconnectRoom servesNone serves

theorem forceStaleReconnect_callsMove (same : SameCalls manager middle)
    (serves : task.result? = none) :
    CallsMove manager task middle.forceStaleReconnect := by
  unfold forceStaleReconnect
  split
  · exact same.quiet serves rfl
  · split
    · exact same.quiet serves rfl
    · have stopped : SameCalls middle middle.stopHeartbeat := ⟨rfl, rfl, rfl⟩
      exact callReconnect_callsMove (same.trans stopped) (fun _ => rfl) serves

theorem sendHeartbeatPing_callsMove (same : SameCalls manager middle)
    (serves : task.result? = none) :
    CallsMove manager task middle.sendHeartbeatPing := by
  unfold sendHeartbeatPing
  split
  · exact same.quiet serves rfl
  · split
    · exact forceStaleReconnect_callsMove same serves
    · exact (same.trans ⟨rfl, rfl, rfl⟩).quiet serves rfl

theorem closeThen_callsMove (same : SameCalls manager middle)
    {closing : Nat → RoomTask} {following : RoomTask}
    (servesNone : serving [following] = [])
    (closingServesNone : ∀ wait, serving [closing wait] = [])
    (serves : task.result? = none) :
    CallsMove manager task (middle.closeThen closing following) := by
  unfold closeThen
  split
  · exact (same.trans (closeAndWait_sameCalls middle _)).quiet serves
      (closingServesNone _)
  · exact same.quiet serves servesNone

theorem settle_callsMove (awaits : Calls.Awaiting task result)
    (value : Bool) :
    CallsMove manager task (manager.settle result value, []) := by
  intro idle
  have idle : serving (manager.settle result value).queued = [] := idle
  rw [List.nil_append, idle]
  exact .answer value awaits

theorem reconnectPause_callsMove (manager : ConnectionManager)
    (result : Nat) :
    CallsMove manager (.flow .reconnectPause result)
      (unsuppress (manager.openRoom result)) := by
  intro idle
  unfold openRoom enter unsuppress
  cases waits : manager.openPromise with
  | none =>
      dsimp only
      rw [serving_append, idle]
      exact .reopen waits
  | some inflight =>
      dsimp only
      rw [serving_append, idle]
      exact .wait waits

/-- Every turn of a flow but one settles the promise or waits in a later
stage: at the end of its pause, a reconnect of a room that is gone opens the
room. -/
theorem flow_turns {outside : Surroundings} {stage : ConnectFlow}
    (goes : manager.flow outside result stage = some turn) :
    FlowTurn manager result stage.left turn ∨
      stage = .reconnectPause ∧ manager.room = none ∧
        turn = unsuppress (manager.openRoom result) := by
  have dropped : ∀ room, SameCalls manager (manager.setClient room none) :=
    fun _ => ⟨rfl, rfl, rfl⟩
  have waits : ∀ {after : ConnectionManager} (next : ConnectFlow),
      SameCalls manager after → next.left < stage.left → next.wait? = none →
        FlowTurn manager result stage.left (after, [.flow next result]) :=
    fun next same less open' => .waits next same less fun wait waits => by
      rw [open'] at waits
      cases waits
  cases stage with
  | reconnectClosing room wait =>
      simp only [flow] at goes
      split at goes <;> cases goes
      exact .inl (waits _ (dropped room) (by simp [ConnectFlow.left]) rfl)
  | reconnectPause =>
      simp only [flow] at goes
      split at goes <;> cases goes
      · rename_i gone
        exact .inr ⟨rfl, gone, rfl⟩
      · left
        apply (connectRoom_flowTurn manager result).unsuppress.le
        simp [ConnectFlow.left]
  | connectClosing room wait =>
      simp only [flow] at goes
      split at goes <;> cases goes
      exact .inl (waits _ (dropped room) (by simp [ConnectFlow.left]) rfl)
  | connectToken =>
      simp only [flow] at goes
      split at goes <;> cases goes
      · exact .inl (connectRelay_flowTurn manager outside result).unsuppress
      · exact .inl (settle_flowTurn manager result _ false).unsuppress
  | openCredentials =>
      simp only [flow] at goes
      split at goes <;> cases goes
      · exact .inl (waits _ (.refl manager) (by simp [ConnectFlow.left]) rfl)
      · exact .inl (settle_flowTurn manager result _ false)
  | openRecord =>
      simp only [flow] at goes
      split at goes <;> cases goes
      · exact .inl (waits _ (.refl manager) (by simp [ConnectFlow.left]) rfl)
      · exact .inl (settle_flowTurn manager result _ false)
  | openMessages =>
      cases goes
      exact .inl (waits _ ⟨rfl, rfl, rfl⟩ (by simp [ConnectFlow.left]) rfl)
  | openPending =>
      cases goes
      exact .inl (waits _ (.refl manager) (by simp [ConnectFlow.left]) rfl)
  | openToken =>
      simp only [flow] at goes
      split at goes <;> cases goes
      · exact .inl (connectRelay_flowTurn manager outside result)
      · exact .inl (settle_flowTurn manager result _ false)
  | relayClosing room wait =>
      simp only [flow] at goes
      split at goes <;> cases goes
      exact .inl ((startClient_flowTurn _ outside room result).since
        (dropped room))
  | waitForRelay polls =>
      cases goes
      exact .inl (waitForRelay_flowTurn manager outside polls result)

theorem flow_callsMove {outside : Surroundings} {stage : ConnectFlow}
    (goes : manager.flow outside result stage = some turn) :
    CallsMove manager (.flow stage result) turn := by
  rcases flow_turns goes with turns | ⟨rfl, -, rfl⟩
  · exact turns.callsMove
  · exact reconnectPause_callsMove manager result

end ConnectionManager

open ConnectionManager

/-- What a call does when it has read the room's record. -/
theorem Calls.Awaiting.run_cases {outside : Surroundings} {task : RoomTask}
    {result : Nat} {manager : ConnectionManager}
    {turn : ConnectionManager × List RoomTask}
    (awaits : Calls.Awaiting task result)
    (runs : task.run outside manager = some turn) :
    (∃ value, turn = (manager.settle result value, [])) ∨
      task = .openRoom result ∧ turn = manager.register result
        (fun manager promise => manager.doOpenRoom outside promise) ∨
      task = .reconnectRoom result ∧
        turn = manager.resetReconnectState.register result doReconnectRoom := by
  cases awaits with
  | openRoom =>
      simp only [RoomTask.run] at runs
      split at runs
      · exact .inl ⟨_, (Option.some.inj runs).symm⟩
      · split at runs
        · exact .inl ⟨_, (Option.some.inj runs).symm⟩
        · exact .inr (.inl ⟨rfl, (Option.some.inj runs).symm⟩)
  | reconnectRoom =>
      simp only [RoomTask.run] at runs
      split at runs
      · exact .inl ⟨_, (Option.some.inj runs).symm⟩
      · exact .inr (.inr ⟨rfl, (Option.some.inj runs).symm⟩)

/-- Every step makes a move of the calls. -/
theorem RoomTask.callsMove {outside : Surroundings} {task : RoomTask}
    {manager : ConnectionManager} {turn : ConnectionManager × List RoomTask}
    (runs : task.run outside manager = some turn) :
    CallsMove manager task turn := by
  have same := SameCalls.refl manager
  cases task with
  | callOpenRoom =>
      cases runs
      exact callOpen_callsMove same (fun _ => rfl) rfl
  | callReconnectRoom =>
      cases runs
      exact callReconnect_callsMove same (fun _ => rfl) rfl
  | openRoom result =>
      simp only [RoomTask.run] at runs
      split at runs
      · cases runs
        exact settle_callsMove (.openRoom result) false
      · split at runs <;> cases runs
        · exact settle_callsMove (.openRoom result) true
        · exact register_callsMove (.openRoom result) same
            fun manager promise =>
              doOpenRoom_flowTurn manager outside promise
  | reconnectRoom result =>
      simp only [RoomTask.run] at runs
      split at runs <;> cases runs
      · exact settle_callsMove (.reconnectRoom result) false
      · have reset : SameCalls manager manager.resetReconnectState :=
          ⟨rfl, rfl, rfl⟩
        exact register_callsMove (.reconnectRoom result) reset
          doReconnectRoom_flowTurn
  | forward inflight result =>
      obtain ⟨ok, settled, rfl⟩ := Option.map_eq_some_iff.mp runs
      intro idle
      have idle : serving (manager.settle result ok).queued = [] := idle
      rw [List.nil_append, idle]
      exact .forward settled
  | finish promise result =>
      obtain ⟨ok, settled, rfl⟩ := Option.map_eq_some_iff.mp runs
      intro idle
      have idle : serving ({ manager with
          openPromise := none }.settle result ok).queued = [] := idle
      rw [List.nil_append, idle]
      exact .finish settled
  | flow stage result => exact flow_callsMove runs
  | connectWithPin =>
      simp only [RoomTask.run] at runs
      split at runs <;> cases runs
      · exact (closeRoomConnection_sameCalls manager).quiet rfl rfl
      · exact same.quiet rfl rfl
  | seatReclaimed =>
      cases runs
      exact callOpen_callsMove same (fun _ => rfl) rfl
  | openSocket client generation =>
      cases runs
      exact (openSocket_sameCalls manager client generation).quiet rfl rfl
  | closeTimeout wait =>
      cases runs
      exact (finishWait_sameCalls manager wait).quiet rfl rfl
  | socketOpen ws =>
      obtain ⟨manager', opened, rfl⟩ := Option.map_eq_some_iff.mp runs
      exact (onSocketOpen_sameCalls opened).quiet rfl rfl
  | socketError ws =>
      obtain ⟨manager', failed, rfl⟩ := Option.map_eq_some_iff.mp runs
      exact (onSocketError_sameCalls failed).quiet rfl rfl
  | socketClose ws code =>
      obtain ⟨manager', closed, rfl⟩ := Option.map_eq_some_iff.mp runs
      exact (onSocketClose_sameCalls closed).quiet rfl rfl
  | socketControl ws msg =>
      obtain ⟨manager', handled, rfl⟩ := Option.map_eq_some_iff.mp runs
      exact (onSocketMessage_sameCalls (onControl_sameCalls manager msg)
        handled).quiet rfl rfl
  | socketBinary ws =>
      obtain ⟨manager', handled, rfl⟩ := Option.map_eq_some_iff.mp runs
      exact (onSocketMessage_sameCalls (onBinary_sameCalls manager)
        handled).quiet rfl rfl
  | clientReconnectTimer ref =>
      simp only [RoomTask.run] at runs
      split at runs
      · cases runs
      · split at runs <;> cases runs
        exact (connect_sameCalls manager ref).quiet rfl rfl
  | managedReconnect =>
      simp only [RoomTask.run] at runs
      split at runs
      · cases runs
      · have cleared : SameCalls manager
            { manager with reconnectTimer := none } := ⟨rfl, rfl, rfl⟩
        split at runs <;> cases runs
        · exact cleared.quiet rfl rfl
        · refine callReconnect_callsMove (cleared.trans ?_) (fun _ => rfl) rfl
          exact ⟨rfl, rfl, rfl⟩
  | afterManagedReconnect call =>
      obtain ⟨ok, -, rfl⟩ := Option.map_eq_some_iff.mp runs
      split
      · exact same.quiet rfl rfl
      · split
        · exact same.quiet rfl rfl
        · exact (scheduleManagedReconnect_sameCalls manager).quiet rfl rfl
  | heartbeatTick =>
      simp only [RoomTask.run] at runs
      split at runs
      · cases runs
        exact same.quiet rfl rfl
      · split at runs <;> cases runs
        · exact same.quiet rfl rfl
        · exact sendHeartbeatPing_callsMove same rfl
  | heartbeatTimeout =>
      simp only [RoomTask.run] at runs
      split at runs <;> cases runs
      have cleared : SameCalls manager
          { manager with heartbeatPending := false } := ⟨rfl, rfl, rfl⟩
      exact forceStaleReconnect_callsMove cleared rfl
  | afterStaleReconnect call =>
      obtain ⟨ok, -, rfl⟩ := Option.map_eq_some_iff.mp runs
      split
      · exact same.quiet rfl rfl
      · split
        · exact same.quiet rfl rfl
        · exact (scheduleManagedReconnect_sameCalls manager).quiet rfl rfl
  | ensureAllConnected =>
      simp only [RoomTask.run] at runs
      split at runs
      · cases runs
        exact same.quiet rfl rfl
      · split at runs
        · cases runs
          exact same.quiet rfl rfl
        · split at runs
          · cases runs
            have reset : SameCalls manager manager.resetReconnectState :=
              ⟨rfl, rfl, rfl⟩
            exact callReconnect_callsMove reset (fun _ => rfl) rfl
          · split at runs <;> cases runs
            · exact sendHeartbeatPing_callsMove same rfl
            · exact same.quiet rfl rfl
  | offline =>
      cases runs
      exact (same.trans ⟨rfl, rfl, rfl⟩).quiet rfl rfl
  | closeRoom =>
      cases runs
      exact ((closeRoomConnection_sameCalls manager).trans
        ⟨rfl, rfl, rfl⟩).quiet rfl rfl
  | releaseSeat =>
      cases runs
      refine closeThen_callsMove (same.trans ?_) rfl (fun _ => rfl) rfl
      exact ⟨rfl, rfl, rfl⟩
  | releaseSeatClosing wait =>
      simp only [RoomTask.run] at runs
      split at runs <;> cases runs
      exact same.quiet rfl rfl
  | releaseSeatPause =>
      cases runs
      exact (closeRoomConnection_sameCalls manager).quiet rfl rfl
  | releaseSeatRecord =>
      cases runs
      exact (same.trans ⟨rfl, rfl, rfl⟩).quiet rfl rfl
  | lock =>
      cases runs
      refine closeThen_callsMove (same.trans ?_) rfl (fun _ => rfl) rfl
      exact ⟨rfl, rfl, rfl⟩
  | lockClosing wait =>
      simp only [RoomTask.run] at runs
      split at runs <;> cases runs
      exact same.quiet rfl rfl
  | lockPause =>
      cases runs
      have marked : SameCalls manager (manager.modifyRuntime fun runtime =>
          { runtime with bucketFull := false }) := ⟨rfl, rfl, rfl⟩
      exact (marked.trans (closeRoomConnection_sameCalls _)).quiet rfl rfl
  | restoreAll =>
      cases runs
      exact (same.trans ⟨rfl, rfl, rfl⟩).quiet rfl rfl
  | messagesChanged fromPeer =>
      cases runs
      exact (same.trans ⟨rfl, rfl, rfl⟩).quiet rfl rfl

namespace ConnectionManager

variable {manager : ConnectionManager} {task : RoomTask}
  {outside : Surroundings} {turn : ConnectionManager × List RoomTask}

/-- A turn of a flow starts no call and no flow. -/
theorem FlowTurn.servesNone {result left : Nat}
    (turns : FlowTurn manager result left turn)
    (idle : manager.queued = []) : serving turn.1.queued = [] := by
  cases turns with
  | ends value kept =>
      rw [kept.queued]
      exact congrArg serving idle
  | waits stage kept less _ =>
      rw [kept.queued]
      exact congrArg serving idle

theorem FlowTurn.queuedNone {result left : Nat} {stage : ConnectFlow}
    {promise : Nat} (turns : FlowTurn manager result left turn)
    (idle : manager.queued = []) :
    .flow stage promise ∉ turn.1.queued := by
  intro member
  have serves : RoomTask.flow stage promise ∈ serving turn.1.queued :=
    mem_serving.mpr ⟨member, rfl⟩
  rw [turns.servesNone idle] at serves
  cases serves

/-- Only a call or a flow leaves a flow. -/
theorem started_cases {stage : ConnectFlow} {promise : Nat}
    (idle : manager.queued = [])
    (runs : task.run outside manager = some turn)
    (started : .flow stage promise ∈ turn.2 ++ turn.1.queued) :
    (∃ result, Calls.Awaiting task result) ∨
      ∃ stage' result, task = .flow stage' result := by
  have moves := task.callsMove runs (by rw [idle]; rfl)
  have serves : RoomTask.flow stage promise ∈
      serving (turn.2 ++ turn.1.queued) := mem_serving.mpr ⟨started, rfl⟩
  generalize serving (turn.2 ++ turn.1.queued) = tasks at moves serves
  generalize turn.1.calls = calls at moves
  cases moves with
  | quiet none => cases serves
  | call none free awaits =>
      have same := List.mem_singleton.mp serves
      subst same
      cases awaits
  | share none taken => cases List.mem_singleton.mp serves
  | answer value awaits => cases serves
  | start awaits less => exact .inl ⟨_, awaits⟩
  | startEnds value awaits => cases List.mem_singleton.mp serves
  | forward settled => cases serves
  | finish settled => cases serves
  | ends value => cases serves
  | goesOn less => exact .inr ⟨_, _, rfl⟩
  | reopen free => cases List.mem_singleton.mp serves
  | wait taken => cases List.mem_singleton.mp serves

/-- A flow that a turn starts or goes on with waits for a promise there is. -/
theorem started_inside {stage : ConnectFlow} {promise wait : Nat}
    (idle : manager.queued = [])
    (runs : task.run outside manager = some turn)
    (started : .flow stage promise ∈ turn.2 ++ turn.1.queued)
    (waits : stage.wait? = some wait) :
    wait < turn.1.closeWaits.length := by
  have turns : ∀ {manager : ConnectionManager} {result left : Nat}
      {turn : ConnectionManager × List RoomTask},
      FlowTurn manager result left turn → .flow stage promise ∈ turn.2 →
        wait < turn.1.closeWaits.length := by
    intro manager result left turn turns member
    cases turns with
    | ends value kept => cases member
    | waits stage' kept less inside =>
        cases List.mem_singleton.mp member
        exact inside wait waits
  have registered : ∀ {middle : ConnectionManager} {result left : Nat}
      {start : ConnectionManager → Nat → ConnectionManager × List RoomTask},
      middle.queued = [] →
      (∀ manager promise, FlowTurn manager promise left
        (start manager promise)) →
      turn = middle.register result start →
        wait < turn.1.closeWaits.length := by
    rintro middle result left start idle starts rfl
    have begins := starts middle.newPromise middle.promises.length
    simp only [register, foldl_queue] at started ⊢
    rcases List.mem_append.mp started with finish | queued
    · cases List.mem_singleton.mp finish
    · rcases List.mem_append.mp queued with early | new
      · exact absurd early (begins.queuedNone idle)
      · exact turns begins new
  rcases started_cases idle runs started with ⟨result, awaits⟩ |
    ⟨stage', result, rfl⟩
  · rcases awaits.run_cases runs with ⟨value, rfl⟩ | ⟨rfl, same⟩ | ⟨rfl, same⟩
    · have none : .flow stage promise ∈ manager.queued := started
      rw [idle] at none
      cases none
    · exact registered idle
        (fun manager promise => doOpenRoom_flowTurn manager outside promise)
        same
    · have reset : manager.resetReconnectState.queued = [] := idle
      exact registered reset doReconnectRoom_flowTurn same
  · rcases flow_turns runs with goes | ⟨-, -, rfl⟩
    · rcases List.mem_append.mp started with new | queued
      · exact turns goes new
      · exact absurd queued (goes.queuedNone idle)
    · unfold ConnectionManager.openRoom enter at started
      dsimp only [ConnectionManager.unsuppress] at started
      split at started
      · simp [idle] at started
      · simp [idle] at started

end ConnectionManager

end Byteln.Client

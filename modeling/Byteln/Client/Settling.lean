import Byteln.Library.Fairness
import Byteln.Client.CloseWaits

/-!
# Every call settles

A reconnect that finds the room gone at the end of its pause opens it, and so
waits for the entry in `openPromises`, which is its own.  As long as that does
not happen, every call settles in every fair execution.
-/

namespace Byteln.Client

open Byteln.Library

/-- A reconnect at the end of its pause finds the room, or no entry in
`openPromises`. -/
def ConnectionManager.Unblocked (manager : ConnectionManager)
    (task : RoomTask) (_ : Surroundings) : Prop :=
  match task with
  | .flow .reconnectPause _ =>
      manager.room ≠ none ∨ manager.openPromise = none
  | _ => True

/-- No flow shares the promise of another call. -/
def NoFlowShares (tasks : List RoomTask) : Prop :=
  ∀ inflight result, .forward inflight result ∈ tasks →
    ¬ Awaited tasks result

theorem NoFlowShares.mono {tasks others : List RoomTask}
    (shares : NoFlowShares tasks) (fewer : ∀ task ∈ others, task ∈ tasks) :
    NoFlowShares others := by
  intro inflight result member awaited
  exact shares inflight result (fewer _ member)
    (awaited.mono fun _ => fewer _)

/-- A move of the calls keeps flows from sharing a promise, unless it is the
one that makes a flow wait. -/
theorem Calls.Move.noFlowShares {calls calls' : Calls} {task : RoomTask}
    {others started : List RoomTask} (moves : calls.Move task calls' started)
    (accounts : Accounts calls (serving [task] ++ others))
    (shares : NoFlowShares (serving [task] ++ others))
    (unblocked : ∀ inflight result, task = .flow .reconnectPause result →
      started ≠ [.forward inflight result]) :
    NoFlowShares (started ++ others) := by
  have old : NoFlowShares others :=
    shares.mono fun _ member => List.mem_append_right _ member
  have inside : ∀ {task : RoomTask} {result}, task ∈ others →
      task.result? = some result → result < calls.promises.length :=
    fun member serves => accounts.lt_length
      (mem_owed (List.mem_append_right _ member) serves)
  have later : ∀ {promise}, Awaited others promise →
      promise < calls.promises.length := by
    rintro promise ⟨result, member⟩
    exact (accounts.later promise result (List.mem_append_right _ member)).2
  have other : ∀ {next : RoomTask},
      (∀ promise result, next ≠ .finish promise result) →
      (∀ inflight result, next ≠ .forward inflight result) →
        NoFlowShares ([next] ++ others) := by
    intro next finishes forwards inflight result member awaited
    have before : ∀ {task}, task ∈ [next] ++ others → task ≠ next →
        task ∈ others := by
      intro task member different
      rcases List.mem_append.mp member with new | old
      · exact absurd (List.mem_singleton.mp new) different
      · exact old
    refine old inflight result
      (before member fun same => forwards inflight result same.symm) ?_
    obtain ⟨result', finish⟩ := awaited
    exact ⟨result', before finish fun same =>
      finishes result result' same.symm⟩
  have starts : ∀ {result : Nat} (flows : List RoomTask),
      (∀ task ∈ flows, ∃ stage promise, task = .flow stage promise) →
        NoFlowShares (.finish calls.promises.length result ::
          (flows ++ others)) := by
    intro result flows kinds inflight result' member awaited
    have before : ∀ {task}, task ∈ RoomTask.finish calls.promises.length
        result :: (flows ++ others) →
        task = .finish calls.promises.length result ∨
          (∃ stage promise, task = .flow stage promise) ∨ task ∈ others := by
      intro task member
      rcases List.mem_cons.mp member with same | member
      · exact .inl same
      · rcases List.mem_append.mp member with flow | old
        · exact .inr (.inl (kinds task flow))
        · exact .inr (.inr old)
    rcases before member with same | ⟨stage, promise, same⟩ | forward
    · cases same
    · cases same
    · obtain ⟨waiting, finish⟩ := awaited
      rcases before finish with same | ⟨stage, promise, same⟩ | finish
      · cases same
        exact Nat.lt_irrefl _ (inside forward rfl)
      · cases same
      · exact old inflight result' forward ⟨waiting, finish⟩
  cases moves with
  | quiet serves => exact old
  | call serves free awaits => cases awaits <;> exact other (by simp) (by simp)
  | share serves taken =>
      intro inflight result member awaited
      have waits : Awaited others result := by
        obtain ⟨waiting, finish⟩ := awaited
        rcases List.mem_append.mp finish with new | finish
        · cases List.mem_singleton.mp new
        · exact ⟨waiting, finish⟩
      rcases List.mem_append.mp member with new | forward
      · cases List.mem_singleton.mp new
        exact Nat.lt_irrefl _ (later waits)
      · exact old inflight result forward waits
  | answer value awaits => exact old
  | @start task result stage awaits less =>
      refine starts [.flow stage calls.promises.length] ?_
      intro task member
      exact ⟨_, _, List.mem_singleton.mp member⟩
  | startEnds value awaits =>
      refine starts [] fun task member => ?_
      cases member
  | forward settled => exact old
  | finish settled => exact old
  | ends value => exact old
  | goesOn less => exact other (by simp) (by simp)
  | reopen free => exact other (by simp) (by simp)
  | wait taken => exact absurd rfl (unblocked _ _ rfl)

/-- The pools of runs in which no reconnect waits for an entry. -/
def UnblockedReachable (pool : Pool ConnectionManager RoomTask) : Prop :=
  (connectionSystem.restrict
    (Program.OnRun ConnectionManager.Unblocked)).Reachable pool

open ConnectionManager

/-- A reconnect that is not blocked connects the room or opens it. -/
theorem ConnectionManager.Unblocked.turns {manager : ConnectionManager}
    {outside : Surroundings} {stage : ConnectFlow} {result : Nat}
    {turn : ConnectionManager × List RoomTask}
    (unblocked : manager.Unblocked (.flow stage result) outside)
    (goes : manager.flow outside result stage = some turn) :
    FlowTurn manager result stage.left turn ∨
      stage = .reconnectPause ∧
        turn = (unsuppress (manager, [.openRoom result])) := by
  rcases flow_turns goes with turns | ⟨rfl, gone, rfl⟩
  · exact .inl turns
  · right
    rcases unblocked with present | free
    · exact absurd gone present
    · unfold ConnectionManager.openRoom enter
      rw [free]
      exact ⟨rfl, rfl⟩

theorem no_flow_shares {pool : Pool ConnectionManager RoomTask}
    (reachable : UnblockedReachable pool) : NoFlowShares pool.acts := by
  have serves := (calls_invariant (fun calls tasks =>
    Accounts calls tasks ∧ NoFlowShares tasks) ?_
    ⟨.nil, fun _ _ member => (nomatch member)⟩ ?_ reachable).2
  · intro inflight result member awaited
    exact serves inflight result (mem_serving.mpr ⟨member, rfl⟩)
      (awaited_serving.mpr awaited)
  · rintro calls tasks others moved ⟨accounts, shares⟩
    exact ⟨accounts.of_perm moved,
      shares.mono fun task => moved.mem_iff.mpr⟩
  · rintro manager task outside turn others ⟨accounts, shares⟩ idle unblocked
      runs moves
    refine ⟨accounts.move moves, moves.noFlowShares accounts shares ?_⟩
    rintro inflight result rfl started
    rcases unblocked.turns runs with turns | ⟨-, rfl⟩
    · rw [serving_append, turns.servesNone idle, List.append_nil] at started
      cases turns with
      | ends value kept => cases started
      | waits stage kept less inside => cases started
    · have idle : manager.queued = [] := idle
      simp [unsuppress, idle, serving, RoomTask.result?] at started

/-! ## Stacks -/

/-- What waits for a call in the manager itself. -/
def RoomTask.follows : RoomTask → Bool
  | .afterManagedReconnect _ | .afterStaleReconnect _ => true
  | _ => false

/-- Only the first task serves a promise or is a timeout. -/
def Layered (tasks : List RoomTask) : Prop :=
  ∀ task ∈ tasks.tail, task.follows = true

theorem layered_nil : Layered [] := fun _ member => (nomatch member)

theorem layered_singleton (task : RoomTask) : Layered [task] :=
  fun _ member => (nomatch member)

theorem Layered.append {tasks rest : List RoomTask} {task : RoomTask}
    (layered : Layered tasks) (below : Layered (task :: rest)) :
    Layered (tasks ++ rest) := by
  cases tasks with
  | nil =>
      intro other member
      exact below other (List.mem_of_mem_tail member)
  | cons first tasks =>
      intro other member
      rcases List.mem_append.mp member with new | old
      · exact layered other new
      · exact below other old

namespace ConnectionManager

variable {manager : ConnectionManager} {outside : Surroundings}
  {turn : ConnectionManager × List RoomTask}

theorem layered_enter (manager : ConnectionManager) (result : Nat)
    (awaiting : RoomTask) : Layered (manager.enter result awaiting).2 := by
  unfold enter
  split <;> exact layered_singleton _

theorem layered_call (manager : ConnectionManager)
    {enters : ConnectionManager → Nat → ConnectionManager × List RoomTask}
    {following : Nat → List RoomTask} {awaiting : Nat → RoomTask}
    (enter : ∀ manager result, enters manager result =
      ConnectionManager.enter manager result (awaiting result))
    (follows : ∀ promise, ∀ task ∈ following promise, task.follows = true) :
    Layered (manager.call enters following).2 := by
  simp only [ConnectionManager.call, enter, ConnectionManager.enter]
  split
  · intro task member
    exact follows _ task member
  · intro task member
    exact follows _ task member

theorem layered_callReconnect (manager : ConnectionManager)
    {following : Nat → List RoomTask}
    (follows : ∀ promise, ∀ task ∈ following promise, task.follows = true) :
    Layered (manager.call ConnectionManager.reconnectRoom following).2 :=
  layered_call manager (fun _ _ => rfl) follows

theorem layered_callOpen (manager : ConnectionManager) :
    Layered (manager.call ConnectionManager.openRoom fun _ => []).2 :=
  layered_call manager (fun _ _ => rfl) fun _ _ member => (nomatch member)

theorem layered_forceStaleReconnect (manager : ConnectionManager) :
    Layered manager.forceStaleReconnect.2 := by
  unfold forceStaleReconnect
  split
  · exact layered_nil
  · split
    · exact layered_nil
    · apply layered_callReconnect
      intro promise task member
      rw [List.mem_singleton.mp member]
      rfl

theorem layered_sendHeartbeatPing (manager : ConnectionManager) :
    Layered manager.sendHeartbeatPing.2 := by
  unfold sendHeartbeatPing
  split
  · exact layered_nil
  · split
    · exact layered_forceStaleReconnect manager
    · exact layered_nil

theorem layered_closeThen (manager : ConnectionManager)
    (closing : Nat → RoomTask) (following : RoomTask) :
    Layered (manager.closeThen closing following).2 := by
  unfold closeThen
  split <;> exact layered_singleton _

theorem layered_flow {stage : ConnectFlow} {result : Nat}
    (goes : manager.flow outside result stage = some turn) :
    Layered turn.2 := by
  rcases flow_turns goes with turns | ⟨-, -, rfl⟩
  · cases turns with
    | ends value kept => exact layered_nil
    | waits next kept less inside => exact layered_singleton _
  · exact layered_enter manager result _

end ConnectionManager

theorem RoomTask.layered {outside : Surroundings} {task : RoomTask}
    {manager : ConnectionManager} {turn : ConnectionManager × List RoomTask}
    (runs : task.run outside manager = some turn) : Layered turn.2 := by
  cases task with
  | flow stage result => exact layered_flow runs
  | callOpenRoom =>
      cases runs
      exact layered_callOpen manager
  | callReconnectRoom =>
      cases runs
      exact layered_callReconnect manager fun _ _ member => (nomatch member)
  | seatReclaimed =>
      cases runs
      exact layered_callOpen manager
  | openRoom result =>
      rcases (Calls.Awaiting.openRoom result).run_cases runs with
        ⟨value, rfl⟩ | ⟨-, rfl⟩ | ⟨-, rfl⟩
      · exact layered_nil
      · exact layered_singleton _
      · exact layered_singleton _
  | reconnectRoom result =>
      rcases (Calls.Awaiting.reconnectRoom result).run_cases runs with
        ⟨value, rfl⟩ | ⟨-, rfl⟩ | ⟨-, rfl⟩
      · exact layered_nil
      · exact layered_singleton _
      · exact layered_singleton _
  | connectWithPin =>
      simp only [RoomTask.run] at runs
      split at runs <;> cases runs
      · exact layered_singleton _
      · exact layered_nil
  | forward inflight result =>
      obtain ⟨ok, -, rfl⟩ := Option.map_eq_some_iff.mp runs
      exact layered_nil
  | finish promise result =>
      obtain ⟨ok, -, rfl⟩ := Option.map_eq_some_iff.mp runs
      exact layered_nil
  | socketOpen ws =>
      obtain ⟨after, -, rfl⟩ := Option.map_eq_some_iff.mp runs
      exact layered_nil
  | socketError ws =>
      obtain ⟨after, -, rfl⟩ := Option.map_eq_some_iff.mp runs
      exact layered_nil
  | socketClose ws code =>
      obtain ⟨after, -, rfl⟩ := Option.map_eq_some_iff.mp runs
      exact layered_nil
  | socketControl ws msg =>
      obtain ⟨after, -, rfl⟩ := Option.map_eq_some_iff.mp runs
      exact layered_nil
  | socketBinary ws =>
      obtain ⟨after, -, rfl⟩ := Option.map_eq_some_iff.mp runs
      exact layered_nil
  | clientReconnectTimer ref =>
      simp only [RoomTask.run] at runs
      split at runs
      · cases runs
      · split at runs <;> cases runs
        exact layered_nil
  | managedReconnect =>
      simp only [RoomTask.run] at runs
      split at runs
      · cases runs
      · split at runs <;> cases runs
        · exact layered_nil
        · apply layered_callReconnect
          intro promise task member
          rw [List.mem_singleton.mp member]
          rfl
  | afterManagedReconnect call =>
      obtain ⟨ok, -, rfl⟩ := Option.map_eq_some_iff.mp runs
      split
      · exact layered_nil
      · split <;> exact layered_nil
  | afterStaleReconnect call =>
      obtain ⟨ok, -, rfl⟩ := Option.map_eq_some_iff.mp runs
      split
      · exact layered_nil
      · split <;> exact layered_nil
  | heartbeatTick =>
      simp only [RoomTask.run] at runs
      split at runs
      · cases runs
        exact layered_nil
      · split at runs <;> cases runs
        · exact layered_nil
        · exact layered_sendHeartbeatPing manager
  | heartbeatTimeout =>
      simp only [RoomTask.run] at runs
      split at runs <;> cases runs
      exact layered_forceStaleReconnect _
  | ensureAllConnected =>
      simp only [RoomTask.run] at runs
      split at runs
      · cases runs
        exact layered_nil
      · split at runs
        · cases runs
          exact layered_nil
        · split at runs
          · cases runs
            exact layered_callReconnect _ fun _ _ member => (nomatch member)
          · split at runs <;> cases runs
            · exact layered_sendHeartbeatPing manager
            · exact layered_nil
  | releaseSeat =>
      cases runs
      exact layered_closeThen _ _ _
  | lock =>
      cases runs
      exact layered_closeThen _ _ _
  | releaseSeatClosing wait =>
      simp only [RoomTask.run] at runs
      split at runs <;> cases runs
      exact layered_singleton _
  | lockClosing wait =>
      simp only [RoomTask.run] at runs
      split at runs <;> cases runs
      exact layered_singleton _
  | releaseSeatPause =>
      cases runs
      exact layered_singleton _
  | openSocket client generation =>
      cases runs
      exact layered_nil
  | closeTimeout wait =>
      cases runs
      exact layered_nil
  | offline =>
      cases runs
      exact layered_nil
  | closeRoom =>
      cases runs
      exact layered_nil
  | releaseSeatRecord =>
      cases runs
      exact layered_nil
  | lockPause =>
      cases runs
      exact layered_nil
  | restoreAll =>
      cases runs
      exact layered_nil
  | messagesChanged fromPeer =>
      cases runs
      exact layered_nil

theorem layered_of_reachable {pool : Pool ConnectionManager RoomTask}
    (reachable : connectionSystem.Reachable pool) :
    ∀ stack ∈ pool.threads, Layered stack := by
  refine Lts.Reachable.invariant
    (fun pool => ∀ stack ∈ pool.threads, Layered stack) ?_ ?_ reachable
  · rintro pool rfl stack member
    cases member
  · intro pool label pool' layered step stack member
    cases label with
    | spawn task =>
        cases step with
        | spawn threads entry =>
            rcases List.mem_append.mp member with old | new
            · exact layered stack old
            · rw [List.mem_singleton.mp new]
              exact layered_singleton task
    | run task outside =>
        obtain ⟨tasks, rest, next, moved⟩ := step.run_stacks
        obtain ⟨turn, runs, same⟩ := Option.map_eq_some_iff.mp next
        obtain ⟨-, rfl⟩ := Prod.mk.inj same
        rcases moved.only stack member with rfl | old | ⟨task', -, rfl⟩
        · exact (task.layered runs).append (layered _ moved.before)
        · exact layered stack old
        · exact layered_singleton task'

/-- Tasks that serve a promise or are timeouts are on top of their stacks. -/
theorem top_of_act {pool : Pool ConnectionManager RoomTask} {task : RoomTask}
    (reachable : connectionSystem.Reachable pool) (member : task ∈ pool.acts)
    (first : task.follows = false) : task ∈ pool.tops := by
  obtain ⟨stack, present, inside⟩ := List.mem_flatten.mp member
  have layered := layered_of_reachable reachable stack present
  cases stack with
  | nil => cases inside
  | cons top rest =>
      rcases List.mem_cons.mp inside with rfl | below
      · exact Program.mem_tops.mpr ⟨rest, present⟩
      · rw [layered task below] at first
        cases first

/-! ## Executions -/

/-- A step of the pool, as a turn of its task. -/
theorem turn_of_step {pool pool' : Pool ConnectionManager RoomTask}
    {task : RoomTask} {outside : Surroundings}
    (step : connectionManager.Step pool (.run task outside) pool') :
    ∃ turn rest, task.run outside pool.shared = some turn ∧
      pool'.shared = { turn.1 with queued := [] } ∧
      Program.StackStep pool pool' task turn.2 rest turn.1.queued := by
  obtain ⟨tasks, rest, next, moved⟩ := step.run_stacks
  obtain ⟨turn, runs, same⟩ := Option.map_eq_some_iff.mp next
  obtain ⟨shared, rfl⟩ := Prod.mk.inj same
  refine ⟨turn, rest, runs, shared.symm, ?_⟩
  have forks : connectionManager.forks outside task pool.shared =
      turn.1.queued := by
    simp [connectionManager, RoomTask.forks, runs]
  rw [← forks]
  exact moved

theorem Calls.Move.settled {calls calls' : Calls} {task : RoomTask}
    {started : List RoomTask} (moves : calls.Move task calls' started)
    {promise : Nat} (settled : (calls.settled? promise).isSome = true) :
    (calls'.settled? promise).isSome = true := by
  obtain ⟨value, known⟩ := Option.isSome_iff_exists.mp settled
  have found : calls.promises[promise]? = some (some value) := by
    unfold Calls.settled? at known
    exact Option.join_eq_some_iff.mp known
  have inside := (List.getElem?_eq_some_iff.mp found).1
  have adds : ∀ other entry, (⟨(calls.add other).promises, entry⟩ :
      Calls).settled? promise = some value := by
    intro other entry
    unfold Calls.settled? Calls.add
    rw [List.getElem?_append_left inside, found]
    rfl
  have settles : ∀ result other entry,
      ((⟨(calls.settle result other).promises, entry⟩ : Calls).settled?
        promise).isSome = true := by
    intro result other entry
    unfold Calls.settled? Calls.settle
    simp only [List.getElem?_set]
    split
    · rename_i same
      subst same
      simp [inside]
    · simp [found]
  have adds : ∀ other entry, ((⟨(calls.add other).promises, entry⟩ :
      Calls).settled? promise).isSome = true := fun other entry => by
    rw [adds other entry]
    rfl
  cases moves with
  | quiet serves => exact settled
  | call serves free awaits => exact adds none _
  | share serves taken => exact adds none _
  | answer value awaits => exact settles _ _ _
  | start awaits less => exact adds none _
  | startEnds value awaits => exact adds _ _
  | forward settled => exact settles _ _ _
  | finish settled => exact settles _ _ _
  | ends value => exact settles _ _ _
  | goesOn less => exact settled
  | reopen free => exact settled
  | wait taken => exact settled

section Executions

variable {execution : connectionManager.Execution}

/-- At this time or later the promise is settled. -/
def SettlesFrom (execution : connectionManager.Execution) (time promise : Nat) :
    Prop :=
  ∃ later, time ≤ later ∧
    ((execution.pools later).shared.settled? promise).isSome = true

theorem SettlesFrom.earlier {time later promise : Nat}
    (settles : SettlesFrom execution later promise) (le : time ≤ later) :
    SettlesFrom execution time promise := by
  obtain ⟨last, after, settled⟩ := settles
  exact ⟨last, le.trans after, settled⟩

/-- A fair execution of a page that has just been loaded, in which no
reconnect waits for an entry. -/
structure FairUnblocked (execution : connectionManager.Execution) : Prop where
  begins : execution.pools 0 = ⟨.blank, []⟩
  unblocked : execution.AllMeet (Program.OnRun ConnectionManager.Unblocked)
  fair : execution.Fair

theorem FairUnblocked.reachable (run : FairUnblocked execution) (time : Nat) :
    UnblockedReachable (execution.pools time) :=
  execution.reachable run.begins run.unblocked time

theorem FairUnblocked.reached (run : FairUnblocked execution) (time : Nat) :
    connectionSystem.Reachable (execution.pools time) :=
  Lts.reachable_of_restrict (run.reachable time)

/-- A settled promise stays settled. -/
theorem FairUnblocked.settled (run : FairUnblocked execution)
    {time later promise : Nat} (le : time ≤ later)
    (settled : ((execution.pools time).shared.settled? promise).isSome =
      true) :
    ((execution.pools later).shared.settled? promise).isSome = true := by
  refine execution.stable (fun pool : Pool ConnectionManager RoomTask =>
    (pool.shared.settled? promise).isSome = true) ?_ le settled
  intro time label taken settled
  have step := execution.step time label taken
  cases label with
  | spawn task =>
      rw [(Program.Step.spawn_inv step).2.1]
      exact settled
  | run task outside =>
      obtain ⟨turn, rest, runs, shared, -⟩ := turn_of_step step
      have idle := (sound_of_reachable (run.reached time)).2
      have moves := task.callsMove runs (by rw [idle]; rfl)
      have kept := moves.settled settled
      rw [shared]
      exact kept

/-- A promise of `closeAndWait` that is settled stays so. -/
theorem FairUnblocked.waitSettled (run : FairUnblocked execution)
    {time later wait : Nat} (le : time ≤ later)
    (settled : (execution.pools time).shared.waitSettled wait = true) :
    (execution.pools later).shared.waitSettled wait = true := by
  refine execution.stable (fun pool : Pool ConnectionManager RoomTask =>
    pool.shared.waitSettled wait = true) ?_ le settled
  intro time label taken settled
  have step := execution.step time label taken
  cases label with
  | spawn task =>
      rw [(Program.Step.spawn_inv step).2.1]
      exact settled
  | run task outside =>
      obtain ⟨tasks, others, -, before, -⟩ := Program.Step.run_inv step
      obtain ⟨turn, rest, runs, shared, -⟩ := turn_of_step step
      have sound := (sound_of_reachable (run.reached time)).1
      have moves := (sound.of_openings (openings_perm before)).waitsMove runs
      rw [shared]
      unfold ConnectionManager.waitSettled at settled ⊢
      split at settled
      · cases settled
      · rename_i known found
        have inside := (List.getElem?_eq_some_iff.mp found).1
        have found' := List.getElem?_eq_getElem (inside.trans_le moves.length)
        rw [found']
        exact (moves.kept wait known _ found found').settled settled

/-- A task settles its promise. -/
theorem settled_of_set {pool : Pool ConnectionManager RoomTask}
    {manager : ConnectionManager} {task : RoomTask} {result : Nat}
    (value : Bool) (reachable : connectionSystem.Reachable pool)
    (member : task ∈ pool.acts) (serves : task.result? = some result)
    (same : manager.promises =
      pool.shared.promises.set result (some value)) :
    (manager.settled? result).isSome = true := by
  have accounts := accounts_of_reachable reachable
  have inside : result < pool.shared.promises.length := by
    apply accounts.lt_length
    rw [owed_serving]
    exact mem_owed member serves
  unfold ConnectionManager.settled?
  rw [same]
  simp [inside]

/-- A task that can go on once a promise is settled settles its own. -/
theorem FairUnblocked.after (run : FairUnblocked execution) {time : Nat}
    {task : RoomTask} {promise result : Nat}
    (top : task ∈ (execution.pools time).tops)
    (serves : task.result? = some result)
    (waits : ∀ outside manager, task.run outside manager =
      (manager.settled? promise).map fun ok =>
        ((if task = .finish promise result then
          { manager with openPromise := none } else manager).settle result ok,
          []))
    (settles : SettlesFrom execution time promise) :
    SettlesFrom execution time result := by
  obtain ⟨since, le, settled⟩ := settles
  obtain ⟨later, outside, after, taken⟩ := run.fair.runs le top fun later le _ => by
    have settled := run.settled le settled
    obtain ⟨ok, known⟩ := Option.isSome_iff_exists.mp settled
    refine ⟨untroubled, ?_⟩
    show (RoomTask.next untroubled task (execution.pools later).shared).isSome =
      true
    rw [RoomTask.next, waits, known]
    rfl
  have step := execution.step later _ taken
  obtain ⟨turn, rest, runs, shared, moved⟩ := turn_of_step step
  have member : task ∈ (execution.pools later).acts :=
    List.mem_flatten.mpr ⟨_, moved.before, List.mem_cons_self⟩
  refine ⟨later + 1, after.trans (Nat.le_succ later), ?_⟩
  rw [waits] at runs
  obtain ⟨ok, -, rfl⟩ := Option.map_eq_some_iff.mp runs
  refine settled_of_set ok (run.reached later) member serves ?_
  rw [shared]
  dsimp only
  split <;> rfl

theorem FairUnblocked.finish (run : FairUnblocked execution)
    {time promise result : Nat}
    (top : .finish promise result ∈ (execution.pools time).tops)
    (settles : SettlesFrom execution time promise) :
    SettlesFrom execution time result := by
  refine run.after top rfl (fun outside manager => ?_) settles
  simp [RoomTask.run]

theorem FairUnblocked.forward (run : FairUnblocked execution)
    {time inflight result : Nat}
    (top : .forward inflight result ∈ (execution.pools time).tops)
    (settles : SettlesFrom execution time inflight) :
    SettlesFrom execution time result := by
  refine run.after top rfl (fun outside manager => ?_) settles
  simp [RoomTask.run]

/-- The promise that a flow waits for settles. -/
theorem FairUnblocked.closed (run : FairUnblocked execution)
    {time result wait : Nat} {stage : ConnectFlow}
    (member : .flow stage result ∈ (execution.pools time).acts)
    (waits : stage.wait? = some wait) :
    ∃ since, time ≤ since ∧
      (execution.pools since).shared.waitSettled wait = true := by
  have served := waitsServed_of_reachable (run.reached time)
  have inside := served.flows stage result wait member waits
  have found := List.getElem?_eq_getElem inside
  rcases served.waits wait _ found with settled | ⟨-, timeout⟩
  · refine ⟨time, le_rfl, ?_⟩
    unfold ConnectionManager.waitSettled
    rw [found]
    exact settled
  · have top := top_of_act (run.reached time) timeout rfl
    obtain ⟨later, outside, le, taken⟩ := run.fair.runs le_rfl top
      fun _ _ _ => ⟨untroubled, rfl⟩
    have step := execution.step later _ taken
    obtain ⟨tasks, others, -, before, -⟩ := Program.Step.run_inv step
    obtain ⟨turn, rest, runs, shared, -⟩ := turn_of_step step
    have sound := (sound_of_reachable (run.reached later)).1
    have moves := (sound.of_openings (openings_perm before)).waitsMove runs
    have grown : wait < (execution.pools later).shared.closeWaits.length := by
      refine execution.stable (fun pool : Pool ConnectionManager RoomTask =>
        wait < pool.shared.closeWaits.length) ?_ le inside
      intro time label taken inside
      have step := execution.step time label taken
      cases label with
      | spawn task =>
          rw [(Program.Step.spawn_inv step).2.1]
          exact inside
      | run task outside =>
          obtain ⟨tasks, others, -, before, -⟩ := Program.Step.run_inv step
          obtain ⟨turn, rest, runs, shared, -⟩ := turn_of_step step
          have sound := (sound_of_reachable (run.reached time)).1
          have moves := (sound.of_openings (openings_perm before)).waitsMove
            runs
          rw [shared]
          exact inside.trans_le moves.length
    refine ⟨later + 1, le.trans (Nat.le_succ later), ?_⟩
    have found := List.getElem?_eq_getElem grown
    have found' := List.getElem?_eq_getElem (grown.trans_le moves.length)
    have served := (waitsServed_of_reachable (run.reached later)).waits wait _
      found
    cases runs
    rw [shared]
    unfold ConnectionManager.waitSettled
    dsimp only at found' ⊢
    rw [found']
    exact finishWait_settles found (served.imp_right And.left) found'

/-- A task that settles its promise by itself. -/
inductive Leading : RoomTask → Nat → Prop where
  | call {task : RoomTask} {result : Nat} :
      Calls.Awaiting task result → Leading task result
  | flow (stage : ConnectFlow) (result : Nat) :
      Leading (.flow stage result) result

theorem Leading.serves {task : RoomTask} {result : Nat}
    (leads : Leading task result) : task.result? = some result := by
  cases leads with
  | call awaits => cases awaits <;> rfl
  | flow stage result => rfl

theorem Calls.Awaiting.enabled {task : RoomTask} {result : Nat}
    (awaits : Calls.Awaiting task result) (outside : Surroundings)
    (manager : ConnectionManager) :
    (task.run outside manager).isSome = true := by
  cases awaits with
  | openRoom =>
      simp only [RoomTask.run]
      split
      · rfl
      · split <;> rfl
  | reconnectRoom =>
      simp only [RoomTask.run]
      split <;> rfl

theorem flow_enabled {manager : ConnectionManager} {outside : Surroundings}
    {stage : ConnectFlow} {result : Nat}
    (closed : ∀ wait, stage.wait? = some wait →
      manager.waitSettled wait = true) :
    (manager.flow outside result stage).isSome = true := by
  cases stage with
  | reconnectClosing room wait => simp [flow, closed wait rfl]
  | connectClosing room wait => simp [flow, closed wait rfl]
  | relayClosing room wait => simp [flow, closed wait rfl]
  | reconnectPause =>
      simp only [flow]
      split <;> rfl
  | connectToken =>
      simp only [flow]
      split <;> rfl
  | openCredentials =>
      simp only [flow]
      split <;> rfl
  | openRecord =>
      simp only [flow]
      split <;> rfl
  | openToken =>
      simp only [flow]
      split <;> rfl
  | openMessages => rfl
  | openPending => rfl
  | waitForRelay polls => rfl

/-- Such a task takes its step. -/
theorem FairUnblocked.leads (run : FairUnblocked execution) {time : Nat}
    {task : RoomTask} {result : Nat} (leads : Leading task result)
    (top : task ∈ (execution.pools time).tops) :
    ∃ later outside, time ≤ later ∧
      execution.labels later = some (.run task outside) := by
  cases leads with
  | call awaits =>
      refine run.fair.runs le_rfl top fun later _ _ => ⟨untroubled, ?_⟩
      have able := awaits.enabled untroubled (execution.pools later).shared
      show (RoomTask.next untroubled task _).isSome = true
      rw [RoomTask.next, Option.isSome_map]
      exact able
  | flow stage result =>
      have able : ∀ since, time ≤ since →
          (∀ wait, stage.wait? = some wait →
            (execution.pools since).shared.waitSettled wait = true) →
          ∃ later outside, time ≤ later ∧
            execution.labels later = some (.run (.flow stage result) outside) := by
        intro since le closed
        refine run.fair.runs le top fun later after _ => ⟨untroubled, ?_⟩
        show (RoomTask.next untroubled (.flow stage result) _).isSome = true
        rw [RoomTask.next, Option.isSome_map]
        exact flow_enabled fun wait waits =>
          run.waitSettled after (closed wait waits)
      cases waits : stage.wait? with
      | none =>
          exact able time le_rfl fun wait same => by
            rw [waits] at same
            cases same
      | some wait =>
          obtain ⟨since, le, settled⟩ := run.closed
            (Program.mem_acts_of_tops top) waits
          refine able since le fun other same => ?_
          rw [waits] at same
          obtain rfl := Option.some.inj same
          exact settled

/-- By induction on how many activations are left. -/
theorem FairUnblocked.leading (run : FairUnblocked execution) (left : Nat) :
    ∀ {time : Nat} {task : RoomTask} {result : Nat},
      Leading task result → task.left = left →
      task ∈ (execution.pools time).tops →
        SettlesFrom execution time result := by
  induction left using Nat.strong_induction_on with
  | _ left induction =>
      intro time task result leads few top
      obtain ⟨later, outside, le, taken⟩ := run.leads leads top
      have step := execution.step later _ taken
      have reached := run.reached later
      have idle := (sound_of_reachable reached).2
      obtain ⟨turn, rest, runs, shared, moved⟩ := turn_of_step step
      have member : task ∈ (execution.pools later).acts :=
        List.mem_flatten.mpr ⟨_, moved.before, List.mem_cons_self⟩
      refine SettlesFrom.earlier ?_ (le.trans (Nat.le_succ later))
      have answered : ∀ value, turn.1.promises =
          (execution.pools later).shared.promises.set result (some value) →
          SettlesFrom execution (later + 1) result := by
        intro value same
        refine ⟨later + 1, le_rfl, ?_⟩
        refine settled_of_set value reached member leads.serves ?_
        rw [shared]
        exact same
      have goesOn : ∀ {next : RoomTask}, turn.2 = [next] →
          Leading next result → next.left < left →
            SettlesFrom execution (later + 1) result := by
        intro next same leads less
        refine induction next.left less leads rfl ?_
        refine Program.mem_tops.mpr ⟨rest, ?_⟩
        have after := moved.after
        rw [same] at after
        exact after
      cases leads with
      | flow stage result =>
          have unblocked := run.unblocked later _ taken
          rcases unblocked.turns runs with turns | ⟨rfl, rfl⟩
          · cases turns with
            | ends value kept => exact answered value kept.promises
            | waits next kept less inside =>
                exact goesOn rfl (.flow next result) (few ▸ less)
          · refine goesOn rfl (.call (.openRoom result)) ?_
            rw [← few]
            simp [RoomTask.left, ConnectFlow.left]
      | call awaits =>
          have registered : ∀ {middle : ConnectionManager}
              {start : ConnectionManager → Nat →
                ConnectionManager × List RoomTask},
              (∀ manager promise, FlowTurn manager promise task.left
                (start manager promise)) →
              turn = middle.register result start →
                SettlesFrom execution (later + 1) result := by
            rintro middle start starts rfl
            have begun := starts middle.newPromise middle.promises.length
            have finish : RoomTask.finish middle.promises.length result ∈
                (execution.pools (later + 1)).tops :=
              Program.mem_tops.mpr ⟨rest, moved.after⟩
            refine run.finish finish ?_
            simp only [register, foldl_queue] at moved shared
            generalize start middle.newPromise middle.promises.length = begins
              at begun moved shared
            cases begun with
            | @ends after value kept =>
                refine ⟨later + 1, le_rfl, ?_⟩
                rw [shared]
                unfold ConnectionManager.settled?
                dsimp only
                rw [kept.promises]
                simp [ConnectionManager.settle, newPromise]
            | waits next kept less inside =>
                have forked := moved.forked (.flow next middle.promises.length)
                  (by simp)
                exact induction next.left (few ▸ less) (.flow next _) rfl
                  (Program.mem_tops.mpr ⟨[], forked⟩)
          rcases awaits.run_cases runs with ⟨value, rfl⟩ | ⟨rfl, same⟩ |
            ⟨rfl, same⟩
          · exact answered value rfl
          · exact registered (fun manager promise =>
              doOpenRoom_flowTurn manager outside promise) same
          · exact registered doReconnectRoom_flowTurn same

/-- A promise that is not settled is owed by a task on top of its stack. -/
theorem FairUnblocked.owes (run : FairUnblocked execution) {time promise : Nat}
    (within : promise < (execution.pools time).shared.promises.length)
    (unsettled : (execution.pools time).shared.settled? promise = none) :
    (∃ task ∈ (execution.pools time).tops, Leading task promise) ∨
      (∃ other, .finish other promise ∈ (execution.pools time).tops) ∨
      ∃ inflight, .forward inflight promise ∈ (execution.pools time).tops := by
  have reached := run.reached time
  have accounts := accounts_of_reachable reached
  have found : (execution.pools time).shared.calls.promises[promise]? =
      some none := by
    have found := List.getElem?_eq_getElem within
    unfold ConnectionManager.settled? at unsettled
    rw [found] at unsettled
    exact found.trans (congrArg some unsettled)
  have owes := (accounts.owed promise).mpr found
  rw [owed_serving] at owes
  obtain ⟨task, member, serves⟩ := List.mem_filterMap.mp owes
  have top : task ∈ (execution.pools time).tops := by
    apply top_of_act reached member
    cases task <;> first | rfl | cases serves
  cases task with
  | openRoom result =>
      obtain rfl := Option.some.inj serves
      exact .inl ⟨_, top, .call (.openRoom result)⟩
  | reconnectRoom result =>
      obtain rfl := Option.some.inj serves
      exact .inl ⟨_, top, .call (.reconnectRoom result)⟩
  | flow stage result =>
      obtain rfl := Option.some.inj serves
      exact .inl ⟨_, top, .flow stage result⟩
  | finish other result =>
      obtain rfl := Option.some.inj serves
      exact .inr (.inl ⟨other, top⟩)
  | forward inflight result =>
      obtain rfl := Option.some.inj serves
      exact .inr (.inr ⟨inflight, top⟩)
  | _ => cases serves

/-- The promise of a flow settles. -/
theorem FairUnblocked.awaited (run : FairUnblocked execution) {time : Nat}
    (left : Nat) : ∀ {promise : Nat},
      (execution.pools time).shared.promises.length - promise = left →
      Awaited (execution.pools time).acts promise →
        SettlesFrom execution time promise := by
  have accounts := accounts_of_reachable (run.reached time)
  have later : ∀ {promise result : Nat},
      .finish promise result ∈ (execution.pools time).acts →
        result < promise ∧
          promise < (execution.pools time).shared.promises.length :=
    fun member => accounts.later _ _ (mem_serving.mpr ⟨member, rfl⟩)
  induction left using Nat.strong_induction_on with
  | _ left induction =>
      intro promise far awaited
      cases settled : (execution.pools time).shared.settled? promise with
      | some value => exact ⟨time, le_rfl, by rw [settled]; rfl⟩
      | none =>
          obtain ⟨waiting, finish⟩ := awaited
          rcases run.owes (later finish).2 settled with
            ⟨task, top, leads⟩ | ⟨other, top⟩ | ⟨inflight, top⟩
          · exact run.leading _ leads rfl top
          · have member := Program.mem_acts_of_tops top
            obtain ⟨less, inside⟩ := later member
            refine run.finish top (induction _ ?_ rfl ⟨promise, member⟩)
            omega
          · exact absurd ⟨waiting, finish⟩
              (no_flow_shares (run.reachable time) inflight promise
                (Program.mem_acts_of_tops top))

/-- Every promise settles. -/
theorem FairUnblocked.settles (run : FairUnblocked execution)
    {time promise : Nat}
    (within : promise < (execution.pools time).shared.promises.length) :
    SettlesFrom execution time promise := by
  cases settled : (execution.pools time).shared.settled? promise with
  | some value => exact ⟨time, le_rfl, by rw [settled]; rfl⟩
  | none =>
      rcases run.owes within settled with
        ⟨task, top, leads⟩ | ⟨other, top⟩ | ⟨inflight, top⟩
      · exact run.leading _ leads rfl top
      · have member := Program.mem_acts_of_tops top
        exact run.finish top (run.awaited _ rfl ⟨promise, member⟩)
      · apply run.forward top
        have accounts := accounts_of_reachable (run.reached time)
        obtain ⟨inside, shared⟩ := accounts.shared inflight promise
          (mem_serving.mpr ⟨Program.mem_acts_of_tops top, rfl⟩)
        have inside : inflight <
            (execution.pools time).shared.promises.length := inside
        cases known : (execution.pools time).shared.settled? inflight with
        | some value => exact ⟨time, le_rfl, by rw [known]; rfl⟩
        | none =>
            have found := List.getElem?_eq_getElem inside
            unfold ConnectionManager.settled? at known
            rw [found] at known
            have waits := shared (found.trans (congrArg some known))
            exact run.awaited _ rfl (awaited_serving.mp waits)

/-- In a fair execution in which no reconnect waits for an entry, no flow
waits for another, every call settles, and no entry is left when all of them
have. -/
theorem calls_settle (run : FairUnblocked execution) :
    (∀ time, NoFlowShares (execution.pools time).acts) ∧
    (∀ time promise,
      promise < (execution.pools time).shared.promises.length →
        SettlesFrom execution time promise) ∧
    (∀ time, (∀ promise,
        promise < (execution.pools time).shared.promises.length →
          ((execution.pools time).shared.settled? promise).isSome = true) →
      (execution.pools time).shared.openPromise = none) := by
  refine ⟨fun time => no_flow_shares (run.reachable time),
    fun time promise within => run.settles within, fun time settled => ?_⟩
  cases entry : (execution.pools time).shared.openPromise with
  | none => rfl
  | some promise =>
      have accounts := accounts_of_reachable (run.reached time)
      obtain ⟨result, waits⟩ := accounts.entry promise entry
      have unsettled := (accounts.owed result).mp (mem_owed waits rfl)
      have within := (List.getElem?_eq_some_iff.mp unsettled).1
      have known := settled result within
      have unsettled : (execution.pools time).shared.promises[result]? =
          some none := unsettled
      simp [ConnectionManager.settled?, unsettled] at known

end Executions

/-! ## A reconnect of a closed room -/

/-- No relay token is found. -/
private def tokenless : Surroundings :=
  { untroubled with relayToken := false }

/-- The room is opened, without a connection. -/
private def openedOnce : List (Program.Move RoomTask Surroundings) :=
  [.spawn .callOpenRoom, .run 0 untroubled, .run 0 untroubled,
    .spawn .callOpenRoom, .run 2 untroubled, .run 1 untroubled,
    .run 1 untroubled, .run 1 untroubled, .run 1 tokenless,
    .run 0 untroubled, .run 2 untroubled]

/-- It is closed in the pause of a reconnect. -/
private def closedInPause : List (Program.Move RoomTask Surroundings) :=
  openedOnce ++ [.spawn .callReconnectRoom, .run 3 untroubled,
    .run 3 untroubled, .spawn .closeRoom, .run 5 untroubled,
    .run 4 untroubled]

/-- The reconnect waits for its own promise. -/
theorem reconnect_waits_for_itself :
    ∃ execution : connectionManager.Execution,
      execution.pools 0 = ⟨.blank, []⟩ ∧ execution.Fair ∧
      ∃ time, ∀ later, time ≤ later →
        ¬ NoFlowShares (execution.pools later).acts ∧
        (execution.pools later).shared.settled? 3 = none ∧
        (execution.pools later).shared.openPromise = some 4 := by
  obtain ⟨steps, pool, played, threads, promises, entry⟩ :
      ∃ steps pool, connectionManager.play ⟨.blank, []⟩ closedInPause =
          some (steps, pool) ∧
        pool.threads = [[], [], [], [.finish 4 3], [.forward 4 4], []] ∧
        pool.shared.promises =
          [some false, some false, some false, none, none] ∧
        pool.shared.openPromise = some 4 :=
    ⟨_, _, rfl, rfl, rfl, rfl⟩
  have run : connectionSystem.Run ⟨.blank, []⟩ steps pool := by
    refine Program.play_run ?_ played
    intro task member
    simp only [closedInPause, openedOnce, List.mem_append, List.mem_cons,
      List.not_mem_nil, or_false, reduceCtorEq, false_or,
      Program.Move.spawn.injEq] at member
    rcases member with (rfl | rfl) | rfl | rfl <;> rfl
  refine ⟨Program.Execution.ofRun run, Program.Execution.ofRun_start run,
    Program.Execution.ofRun_fair run ?_, steps.length, ?_⟩
  · intro task top
    rintro ⟨outside, able⟩
    simp only [Pool.tops, threads, List.filterMap_cons, List.head?_nil,
      List.head?_cons, List.filterMap_nil, List.mem_cons, List.not_mem_nil,
      or_false] at top
    have next : ∀ {task : RoomTask}, task.run outside pool.shared = none →
        (connectionManager.next outside task pool.shared).isSome = false := by
      intro task waits
      show (RoomTask.next outside task pool.shared).isSome = false
      rw [RoomTask.next, waits]
      rfl
    rcases top with rfl | rfl
    · rw [next (by simp [RoomTask.run, settled?, promises])] at able
      cases able
    · rw [next (by simp [RoomTask.run, settled?, promises])] at able
      cases able
  · intro later beyond
    rw [Program.Execution.ofRun_past run beyond]
    refine ⟨fun shares => ?_, ?_, entry⟩
    · apply shares 4 4
      · simp [Pool.acts, threads]
      · exact ⟨3, by simp [Pool.acts, threads]⟩
    · simp [settled?, promises]

/-- The room is opened and reconnected. -/
private def reconnectedOnce : List (Program.Move RoomTask Surroundings) :=
  openedOnce ++ [.spawn .callReconnectRoom, .run 3 untroubled,
    .run 3 untroubled, .run 4 untroubled, .run 4 tokenless,
    .run 3 untroubled]

/-- A reconnect comes to the end of its pause. -/
private def reconnects : PoolLabel RoomTask Surroundings → Bool
  | .run (.flow .reconnectPause _) _ => true
  | _ => false

theorem calls_settle_reconnected :
    ∃ execution : connectionManager.Execution,
      (∀ promise, promise < 5 → SettlesFrom execution 0 promise) ∧
      ∃ time, (execution.pools time).shared.promises.length = 5 ∧
        (execution.pools time).shared.openPromise = none := by
  obtain ⟨steps, pool, played, threads, promises, listed⟩ :
      ∃ steps pool, connectionManager.play ⟨.blank, []⟩ reconnectedOnce =
          some (steps, pool) ∧
        pool.threads = [[], [], [], [], []] ∧
        pool.shared.promises =
          [some false, some false, some false, some false, some false] ∧
        (steps.filter fun entry => reconnects entry.2).map
          (fun entry => entry.1.shared.room) = [some 0] :=
    ⟨_, _, rfl, rfl, rfl, rfl⟩
  have run : connectionSystem.Run ⟨.blank, []⟩ steps pool := by
    refine Program.play_run ?_ played
    intro task member
    simp only [reconnectedOnce, openedOnce, List.mem_append, List.mem_cons,
      List.not_mem_nil, or_false, reduceCtorEq, false_or,
      Program.Move.spawn.injEq] at member
    rcases member with (rfl | rfl) | rfl <;> rfl
  have fair : FairUnblocked (Program.Execution.ofRun run) := by
    refine ⟨Program.Execution.ofRun_start run,
      Program.Execution.ofRun_allMeet run ?_,
      Program.Execution.ofRun_fair run ?_⟩
    · rintro ⟨before, label⟩ member
      cases label with
      | spawn task => trivial
      | run task outside =>
          cases task with
          | flow stage result =>
              cases stage with
              | reconnectPause =>
                  left
                  have found : before.shared.room ∈ [some 0] := by
                    rw [← listed]
                    apply List.mem_map.mpr
                    exact ⟨_, List.mem_filter.mpr ⟨member, rfl⟩, rfl⟩
                  rw [List.mem_singleton.mp found]
                  exact Option.some_ne_none 0
              | _ => trivial
          | _ => trivial
    · intro task top
      simp [Pool.tops, threads] at top
  have ends := Program.Execution.ofRun_past run le_rfl
  obtain ⟨-, settles, cleared⟩ := calls_settle fair
  refine ⟨Program.Execution.ofRun run, fun promise within => ?_,
    steps.length, ?_, ?_⟩
  · apply (settles steps.length promise ?_).earlier (Nat.zero_le _)
    rw [ends, promises]
    exact within
  · rw [ends, promises]
    rfl
  · apply cleared
    intro promise within
    rw [ends, promises] at within
    have within : promise < 5 := within
    rw [ends, settled?, promises]
    interval_cases promise <;> rfl

end Byteln.Client

import Byteln.Client.ConnectionCalls

/-!
# Who settles which promise

Every promise of a call or connect flow that is not settled is owed by exactly
one task, and the entry in `openPromises` belongs to a call that is waiting
for it.
-/

namespace Byteln.Client

open Byteln.Library

/-- The promises that tasks will settle. -/
def owed (tasks : List RoomTask) : List Nat :=
  tasks.filterMap RoomTask.result?

@[simp] theorem owed_nil : owed [] = [] := rfl

@[simp] theorem owed_append (tasks others : List RoomTask) :
    owed (tasks ++ others) = owed tasks ++ owed others :=
  List.filterMap_append

theorem owed_cons {task : RoomTask} {tasks : List RoomTask} {result : Nat}
    (serves : task.result? = some result) :
    owed (task :: tasks) = result :: owed tasks :=
  List.filterMap_cons_some serves

theorem mem_owed {tasks : List RoomTask} {task : RoomTask} {result : Nat}
    (member : task ∈ tasks) (serves : task.result? = some result) :
    result ∈ owed tasks :=
  List.mem_filterMap.mpr ⟨task, member, serves⟩

theorem owed_perm {tasks others : List RoomTask} (moved : tasks.Perm others) :
    (owed tasks).Perm (owed others) :=
  moved.filterMap _

/-- A call waits for the promise of a connect flow. -/
def Awaited (tasks : List RoomTask) (promise : Nat) : Prop :=
  ∃ result, .finish promise result ∈ tasks

theorem Awaited.mono {tasks others : List RoomTask} {promise : Nat}
    (awaited : Awaited tasks promise)
    (kept : ∀ result, .finish promise result ∈ tasks →
      .finish promise result ∈ others) : Awaited others promise := by
  obtain ⟨result, member⟩ := awaited
  exact ⟨result, kept result member⟩

/-- The tasks account for the promises. -/
structure Accounts (calls : Calls) (tasks : List RoomTask) : Prop where
  once : (owed tasks).Nodup
  owed : ∀ promise, promise ∈ owed tasks ↔
    calls.promises[promise]? = some none
  single : ∀ promise result result', .finish promise result ∈ tasks →
    .finish promise result' ∈ tasks → result = result'
  later : ∀ promise result, .finish promise result ∈ tasks →
    result < promise ∧ promise < calls.promises.length
  entry : ∀ promise, calls.openPromise = some promise → Awaited tasks promise
  flows : ∀ stage promise, .flow stage promise ∈ tasks → Awaited tasks promise
  shared : ∀ inflight result, .forward inflight result ∈ tasks →
    inflight < calls.promises.length ∧
      (calls.promises[inflight]? = some none → Awaited tasks inflight)

namespace Accounts

variable {calls calls' : Calls} {task task' : RoomTask}
  {tasks others started : List RoomTask} {result : Nat}

theorem nil : Accounts ⟨[], none⟩ [] := by
  constructor <;> simp

theorem of_perm (accounts : Accounts calls tasks)
    (moved : tasks.Perm others) : Accounts calls others := by
  have same : ∀ task, task ∈ others ↔ task ∈ tasks := fun _ =>
    moved.mem_iff.symm
  have awaited : ∀ {promise}, Awaited tasks promise → Awaited others promise :=
    fun awaited => awaited.mono fun _ member => (same _).mpr member
  constructor
  · exact (owed_perm moved).nodup_iff.mp accounts.once
  · intro promise
    rw [← (owed_perm moved).mem_iff]
    exact accounts.owed promise
  · intro promise result result' member member'
    exact accounts.single promise result result' ((same _).mp member)
      ((same _).mp member')
  · intro promise result member
    exact accounts.later promise result ((same _).mp member)
  · intro promise entered
    exact awaited (accounts.entry promise entered)
  · intro stage promise member
    exact awaited (accounts.flows stage promise ((same _).mp member))
  · intro inflight result member
    obtain ⟨inside, waits⟩ := accounts.shared inflight result
      ((same _).mp member)
    exact ⟨inside, fun unsettled => awaited (waits unsettled)⟩

theorem lt_length (accounts : Accounts calls tasks) {promise : Nat}
    (owes : promise ∈ Client.owed tasks) : promise < calls.promises.length :=
  (List.getElem?_eq_some_iff.mp ((accounts.owed promise).mp owes)).1

/-- The task that owes a promise is the only one. -/
theorem not_owed (accounts : Accounts calls (task :: others))
    (serves : task.result? = some result) : result ∉ Client.owed others := by
  have once := accounts.once
  rw [owed_cons serves] at once
  exact (List.nodup_cons.mp once).1

/-- A task settles its promise. -/
theorem settle (accounts : Accounts calls (task :: others))
    (serves : task.result? = some result) (value : Bool) {entry : Option Nat}
    (ended : ∀ promise result', task = .finish promise result' →
      calls.promises[promise]? ≠ some none)
    (entered : ∀ promise, entry = some promise → Awaited others promise) :
    Accounts ⟨calls.promises.set result (some value), entry⟩ others := by
  have once := accounts.once
  rw [owed_cons serves] at once
  have inside : ∀ {task'}, task' ∈ others → task' ∈ task :: others :=
    fun member => List.mem_cons_of_mem task member
  have settled : ∀ promise,
      (calls.promises.set result (some value))[promise]? = some none ↔
        promise ≠ result ∧ calls.promises[promise]? = some none := by
    intro promise
    rw [List.getElem?_set]
    by_cases same : result = promise
    · subst same
      by_cases within : result < calls.promises.length <;> simp [within]
    · simp [same, Ne.symm same]
  have awaited : ∀ {promise}, calls.promises[promise]? = some none →
      Awaited (task :: others) promise → Awaited others promise := by
    intro promise unsettled awaits
    apply awaits.mono
    intro result' member
    rcases List.mem_cons.mp member with same | member
    · exact absurd unsettled (ended promise result' same.symm)
    · exact member
  constructor
  · exact (List.nodup_cons.mp once).2
  · intro promise
    rw [settled, ← accounts.owed promise, owed_cons serves, List.mem_cons]
    constructor
    · intro owes
      refine ⟨?_, .inr owes⟩
      rintro rfl
      exact accounts.not_owed serves owes
    · rintro ⟨other, same | owes⟩
      · exact absurd same other
      · exact owes
  · intro promise result result' member member'
    exact accounts.single promise result result' (inside member)
      (inside member')
  · intro promise result member
    rw [List.length_set]
    exact accounts.later promise result (inside member)
  · exact entered
  · intro stage promise member
    have owes : promise ∈ Client.owed (task :: others) :=
      mem_owed (inside member) rfl
    exact awaited ((accounts.owed promise).mp owes)
      (accounts.flows stage promise (inside member))
  · intro inflight result' member
    obtain ⟨within, waits⟩ := accounts.shared inflight result' (inside member)
    rw [List.length_set]
    refine ⟨within, fun unsettled => ?_⟩
    have unsettled := ((settled inflight).mp unsettled).2
    exact awaited unsettled (waits unsettled)

/-- A task that waits for no flow goes on as another such task. -/
theorem goesOn (accounts : Accounts calls (task :: others))
    (serves : task'.result? = task.result?)
    (finishes : ∀ promise result, task ≠ .finish promise result)
    (finishes' : ∀ promise result, task' ≠ .finish promise result)
    (flow : ∀ stage promise, task' = .flow stage promise →
      Awaited others promise)
    (forward : ∀ inflight result, task' = .forward inflight result →
      inflight < calls.promises.length ∧ Awaited others inflight) :
    Accounts calls (task' :: others) := by
  have sameOwed : Client.owed (task' :: others) =
      Client.owed (task :: others) := by
    cases owes : task.result? with
    | none =>
        rw [Client.owed, Client.owed, List.filterMap_cons_none owes,
          List.filterMap_cons_none (serves.trans owes)]
    | some result => rw [owed_cons owes, owed_cons (serves.trans owes)]
  have before : ∀ {promise result}, .finish promise result ∈ task' :: others →
      .finish promise result ∈ task :: others := by
    intro promise result member
    rcases List.mem_cons.mp member with same | member
    · exact absurd same.symm (finishes' promise result)
    · exact List.mem_cons_of_mem _ member
  have kept : ∀ {promise}, Awaited others promise →
      Awaited (task' :: others) promise := fun awaited =>
    awaited.mono fun _ member => List.mem_cons_of_mem _ member
  have awaited : ∀ {promise}, Awaited (task :: others) promise →
      Awaited (task' :: others) promise := by
    intro promise awaits
    apply awaits.mono
    intro result member
    rcases List.mem_cons.mp member with same | member
    · exact absurd same.symm (finishes promise result)
    · exact List.mem_cons_of_mem _ member
  constructor
  · exact sameOwed ▸ accounts.once
  · exact sameOwed ▸ accounts.owed
  · intro promise result result' member member'
    exact accounts.single promise result result' (before member)
      (before member')
  · intro promise result member
    exact accounts.later promise result (before member)
  · intro promise entered
    exact awaited (accounts.entry promise entered)
  · intro stage promise member
    rcases List.mem_cons.mp member with same | member
    · exact kept (flow stage promise same.symm)
    · exact awaited (accounts.flows stage promise
        (List.mem_cons_of_mem _ member))
  · intro inflight result member
    rcases List.mem_cons.mp member with same | member
    · obtain ⟨within, awaits⟩ := forward inflight result same.symm
      exact ⟨within, fun _ => kept awaits⟩
    · obtain ⟨within, waits⟩ := accounts.shared inflight result
        (List.mem_cons_of_mem _ member)
      exact ⟨within, fun unsettled => awaited (waits unsettled)⟩

theorem getElem?_add (calls : Calls) (value : Option Bool) (promise : Nat) :
    (calls.add value).promises[promise]? = some none ↔
      calls.promises[promise]? = some none ∨
        promise = calls.promises.length ∧ value = none := by
  unfold Calls.add
  rcases Nat.lt_trichotomy promise calls.promises.length with less | same | more
  · rw [List.getElem?_append_left less]
    simp [Nat.ne_of_lt less]
  · subst same
    simp
  · rw [List.getElem?_eq_none (by simpa using more),
      List.getElem?_eq_none more.le]
    simp [Nat.ne_of_gt more]

/-- A call has a promise of its own. -/
theorem call (accounts : Accounts calls tasks)
    (serves : task.result? = some calls.promises.length)
    (finishes : ∀ promise result, task ≠ .finish promise result)
    (flow : ∀ stage promise, task ≠ .flow stage promise)
    (forward : ∀ inflight result, task = .forward inflight result →
      Awaited tasks inflight) :
    Accounts (calls.add none) (task :: tasks) := by
  have length : (calls.add none).promises.length =
      calls.promises.length + 1 := by
    simp [Calls.add]
  have before : ∀ {promise result}, .finish promise result ∈ task :: tasks →
      .finish promise result ∈ tasks := by
    intro promise result member
    rcases List.mem_cons.mp member with same | member
    · exact absurd same.symm (finishes promise result)
    · exact member
  have awaited : ∀ {promise}, Awaited tasks promise →
      Awaited (task :: tasks) promise := fun awaited =>
    awaited.mono fun _ member => List.mem_cons_of_mem _ member
  constructor
  · rw [owed_cons serves, List.nodup_cons]
    refine ⟨?_, accounts.once⟩
    intro owes
    exact Nat.lt_irrefl _ (accounts.lt_length owes)
  · intro promise
    rw [owed_cons serves, List.mem_cons, getElem?_add, ← accounts.owed]
    simp [or_comm]
  · intro promise result result' member member'
    exact accounts.single promise result result' (before member)
      (before member')
  · intro promise result member
    obtain ⟨less, within⟩ := accounts.later promise result (before member)
    exact ⟨less, by omega⟩
  · intro promise entered
    exact awaited (accounts.entry promise entered)
  · intro stage promise member
    rcases List.mem_cons.mp member with same | member
    · exact absurd same.symm (flow stage promise)
    · exact awaited (accounts.flows stage promise member)
  · intro inflight result member
    rw [length, getElem?_add]
    rcases List.mem_cons.mp member with same | member
    · have awaits := forward inflight result same.symm
      have within := (accounts.later _ _ awaits.choose_spec).2
      exact ⟨by omega, fun _ => awaited awaits⟩
    · obtain ⟨within, waits⟩ := accounts.shared inflight result member
      refine ⟨by omega, ?_⟩
      rintro (unsettled | ⟨rfl, -⟩)
      · exact awaited (waits unsettled)
      · exact absurd within (Nat.lt_irrefl _)

/-- A call starts a flow, which settles its promise at once or later. -/
theorem start (accounts : Accounts calls (task :: others))
    (awaits : Calls.Awaiting task result) {value : Option Bool}
    (flows : started = [] ∧ value.isSome ∨
      value = none ∧ ∃ stage, started = [.flow stage calls.promises.length]) :
    Accounts { calls.add value with openPromise := some calls.promises.length }
      (.finish calls.promises.length result :: (started ++ others)) := by
  have serves : task.result? = some result := by
    cases awaits <;> rfl
  have once := accounts.once
  rw [owed_cons serves] at once
  have length : (calls.add value).promises.length =
      calls.promises.length + 1 := by
    simp [Calls.add]
  have new : calls.promises.length ∉ Client.owed (task :: others) :=
    fun owes => Nat.lt_irrefl _ (accounts.lt_length owes)
  have less : result < calls.promises.length := by
    apply accounts.lt_length
    rw [owed_cons serves]
    exact List.mem_cons_self
  have fresh : Client.owed started = [] ∧ value.isSome ∨
      value = none ∧ Client.owed started = [calls.promises.length] := by
    rcases flows with ⟨rfl, ends⟩ | ⟨rfl, stage, rfl⟩
    · exact .inl ⟨rfl, ends⟩
    · exact .inr ⟨rfl, rfl⟩
  have starts : ∀ {task'}, task' ∈ started →
      ∃ stage, task' = .flow stage calls.promises.length := by
    intro task' member
    rcases flows with ⟨rfl, -⟩ | ⟨-, stage, rfl⟩
    · cases member
    · exact ⟨stage, List.mem_singleton.mp member⟩
  have before : ∀ {promise result'}, .finish promise result' ∈
      RoomTask.finish calls.promises.length result :: (started ++ others) →
      promise = calls.promises.length ∧ result' = result ∨
        .finish promise result' ∈ task :: others := by
    intro promise result' member
    rcases List.mem_cons.mp member with same | member
    · cases same
      exact .inl ⟨rfl, rfl⟩
    · rcases List.mem_append.mp member with flow | member
      · obtain ⟨stage, same⟩ := starts flow
        cases same
      · exact .inr (List.mem_cons_of_mem _ member)
  have own : Awaited (.finish calls.promises.length result ::
      (started ++ others)) calls.promises.length :=
    ⟨result, List.mem_cons_self⟩
  have awaited : ∀ {promise}, Awaited (task :: others) promise →
      Awaited (.finish calls.promises.length result :: (started ++ others))
        promise := by
    intro promise waits
    apply waits.mono
    intro result' member
    rcases List.mem_cons.mp member with same | member
    · subst same
      cases awaits
    · simp [member]
  constructor
  · rw [owed_cons rfl, owed_append]
    have apart : calls.promises.length ∉ Client.owed others := fun owes =>
      new (by rw [owed_cons serves]; exact List.mem_cons_of_mem _ owes)
    rcases fresh with ⟨none, -⟩ | ⟨-, one⟩
    · rw [none]
      exact once
    · rw [one, List.nodup_cons]
      have once := List.nodup_cons.mp once
      refine ⟨?_, List.nodup_cons.mpr ⟨apart, once.2⟩⟩
      intro member
      rcases List.mem_cons.mp member with same | member
      · exact absurd same (Nat.ne_of_lt less)
      · exact once.1 member
  · intro promise
    have old := accounts.owed promise
    rw [owed_cons serves, List.mem_cons] at old
    rw [owed_cons rfl, owed_append, List.mem_cons, List.mem_append]
    simp only [getElem?_add]
    rcases fresh with ⟨none, ends⟩ | ⟨rfl, one⟩
    · have ends : value ≠ Option.none := Option.isSome_iff_ne_none.mp ends
      simp [none, ends, old]
    · rw [one, List.mem_singleton, ← old]
      constructor
      · rintro (same | same | member)
        · exact .inl (.inl same)
        · exact .inr ⟨same, rfl⟩
        · exact .inl (.inr member)
      · rintro ((same | member) | ⟨same, -⟩)
        · exact .inl same
        · exact .inr (.inr member)
        · exact .inr (.inl same)
  · intro promise result' result'' member member'
    rcases before member with ⟨same, rfl⟩ | old
    · rcases before member' with ⟨-, rfl⟩ | old'
      · rfl
      · have within := (accounts.later _ _ old').2
        omega
    · rcases before member' with ⟨same, rfl⟩ | old'
      · have within := (accounts.later _ _ old).2
        omega
      · exact accounts.single promise result' result'' old old'
  · intro promise result' member
    rw [length]
    rcases before member with ⟨rfl, rfl⟩ | old
    · exact ⟨less, Nat.lt_succ_self _⟩
    · obtain ⟨later, within⟩ := accounts.later promise result' old
      exact ⟨later, by omega⟩
  · intro promise entered
    obtain rfl := Option.some.inj entered
    exact own
  · intro stage promise member
    rcases List.mem_cons.mp member with same | member
    · cases same
    · rcases List.mem_append.mp member with flow | member
      · obtain ⟨stage, same⟩ := starts flow
        cases same
        exact own
      · exact awaited (accounts.flows stage promise
          (List.mem_cons_of_mem _ member))
  · intro inflight result' member
    rw [length]
    simp only [getElem?_add]
    rcases List.mem_cons.mp member with same | member
    · cases same
    · rcases List.mem_append.mp member with flow | member
      · obtain ⟨stage, same⟩ := starts flow
        cases same
      · obtain ⟨within, waits⟩ := accounts.shared inflight result'
          (List.mem_cons_of_mem _ member)
        refine ⟨by omega, ?_⟩
        rintro (unsettled | ⟨rfl, -⟩)
        · exact awaited (waits unsettled)
        · exact absurd within (Nat.lt_irrefl _)

/-- The tasks account for the promises after every move, if they did
before. -/
theorem move (accounts : Accounts calls (serving [task] ++ others))
    (moves : calls.Move task calls' started) :
    Accounts calls' (started ++ others) := by
  have idle : ∀ {task : RoomTask}, task.result? = none →
      serving [task] = [] := fun serves =>
    serving_eq_nil fun other member =>
      List.mem_singleton.mp member ▸ serves
  cases moves with
  | quiet serves =>
      rw [idle serves] at accounts
      exact accounts
  | call serves free awaits =>
      rw [idle serves] at accounts
      apply accounts.call
      · cases awaits <;> rfl
      · intro promise result same
        subst same
        cases awaits
      · intro stage promise same
        subst same
        cases awaits
      · intro inflight result same
        subst same
        cases awaits
  | share serves taken =>
      rw [idle serves] at accounts
      apply accounts.call rfl
      · intro promise result same
        cases same
      · intro stage promise same
        cases same
      · intro inflight result same
        cases same
        exact accounts.entry _ taken
  | @answer task result value awaits =>
      rw [awaits.serving] at accounts
      have serves : task.result? = some result := by
        cases awaits <;> rfl
      have finishes : ∀ promise result', task ≠ .finish promise result' := by
        cases awaits <;> simp
      refine accounts.settle serves value
        (fun promise result' same => absurd same (finishes promise result'))
        fun promise entered => ?_
      apply (accounts.entry promise entered).mono
      intro result' member
      rcases List.mem_cons.mp member with same | member
      · exact absurd same.symm (finishes promise result')
      · exact member
  | @start task result stage awaits less =>
      rw [awaits.serving] at accounts
      exact accounts.start awaits (.inr ⟨rfl, stage, rfl⟩)
  | startEnds value awaits =>
      rw [awaits.serving] at accounts
      exact accounts.start awaits (.inl ⟨rfl, rfl⟩)
  | forward settled =>
      refine Accounts.settle accounts rfl _ ?_ fun promise entered => ?_
      · intro promise result' same
        cases same
      · apply (accounts.entry promise entered).mono
        intro result' member
        rcases List.mem_cons.mp member with same | member
        · cases same
        · exact member
  | finish settled =>
      refine Accounts.settle accounts rfl _ ?_ fun promise entered => ?_
      · intro promise result' same unsettled
        cases same
        simp [Calls.settled?, unsettled] at settled
      · cases entered
  | ends value =>
      refine Accounts.settle accounts rfl _ ?_ fun promise entered => ?_
      · intro promise result' same
        cases same
      · apply (accounts.entry promise entered).mono
        intro result' member
        rcases List.mem_cons.mp member with same | member
        · cases same
        · exact member
  | @goesOn stage stage' result less =>
      have awaited := accounts.flows stage result List.mem_cons_self
      refine Accounts.goesOn accounts rfl (fun _ _ same => by cases same)
        (fun _ _ same => by cases same) ?_ fun _ _ same => by cases same
      intro _ _ same
      cases same
      apply awaited.mono
      intro result' member
      rcases List.mem_cons.mp member with same | member
      · cases same
      · exact member
  | reopen free =>
      exact Accounts.goesOn accounts rfl (fun _ _ same => by cases same)
        (fun _ _ same => by cases same) (fun _ _ same => by cases same)
        fun _ _ same => by cases same
  | wait taken =>
      have awaited := accounts.entry _ taken
      refine Accounts.goesOn accounts rfl (fun _ _ same => by cases same)
        (fun _ _ same => by cases same) (fun _ _ same => by cases same) ?_
      intro _ _ same
      cases same
      refine ⟨(accounts.later _ _ awaited.choose_spec).2, awaited.mono ?_⟩
      intro result' member
      rcases List.mem_cons.mp member with same | member
      · cases same
      · exact member

end Accounts

theorem awaited_serving {tasks : List RoomTask} {promise : Nat} :
    Awaited (serving tasks) promise ↔ Awaited tasks promise := by
  constructor
  · rintro ⟨result, member⟩
    exact ⟨result, (mem_serving.mp member).1⟩
  · rintro ⟨result, member⟩
    exact ⟨result, mem_serving.mpr ⟨member, rfl⟩⟩

theorem owed_serving (tasks : List RoomTask) :
    owed (serving tasks) = owed tasks := by
  induction tasks with
  | nil => rfl
  | cons task tasks induction =>
      unfold owed serving at *
      cases serves : task.result? with
      | none =>
          rw [List.filter_cons_of_neg (by simp [serves]), induction,
            List.filterMap_cons_none serves]
      | some result =>
          rw [List.filter_cons_of_pos (by simp [serves]),
            List.filterMap_cons_some serves, induction,
            List.filterMap_cons_some serves]

/-! ## Invariants of the calls -/

/-- A property of the calls and of the tasks that serve them, which every move
keeps that a step meeting the condition makes. -/
theorem calls_invariant
    {condition : ConnectionManager → RoomTask → Surroundings → Prop}
    (property : Calls → List RoomTask → Prop)
    (perm : ∀ {calls tasks tasks'}, tasks.Perm tasks' →
      property calls tasks → property calls tasks')
    (initially : property ⟨[], none⟩ [])
    (moved : ∀ {manager : ConnectionManager} {task outside turn others},
      property manager.calls (serving [task] ++ others) →
      manager.queued = [] → condition manager task outside →
      task.run outside manager = some turn →
      manager.calls.Move task turn.1.calls
        (serving (turn.2 ++ turn.1.queued)) →
      property turn.1.calls (serving (turn.2 ++ turn.1.queued) ++ others))
    {pool : Pool ConnectionManager RoomTask}
    (reachable : (connectionSystem.restrict
      (Program.OnRun condition)).Reachable pool) :
    property pool.shared.calls (serving pool.acts) := by
  refine (Program.invariant (fun manager tasks =>
    property manager.calls (serving tasks) ∧ manager.queued = [])
    ?_ ?_ ?_ ?_ reachable).1
  · rintro manager tasks others same ⟨holds, idle⟩
    exact ⟨perm (serving_perm same) holds, idle⟩
  · rintro pool rfl
    exact ⟨initially, rfl⟩
  · rintro manager tasks task entry ⟨holds, idle⟩
    have servesNone : serving [task] = [] := by
      cases task <;> first | rfl | cases entry
    have split : serving (task :: tasks) = serving [task] ++ serving tasks :=
      serving_append [task] tasks
    rw [split, servesNone]
    exact ⟨holds, idle⟩
  · rintro manager manager' task tasks others outside ⟨holds, idle⟩ next meets
    obtain ⟨turn, runs, same⟩ := Option.map_eq_some_iff.mp next
    obtain ⟨rfl, rfl⟩ := Prod.mk.inj same
    have split : serving (task :: others) = serving [task] ++ serving others :=
      serving_append [task] others
    rw [split] at holds
    have forks : connectionManager.forks outside task manager =
        turn.1.queued := by
      simp [connectionManager, RoomTask.forks, runs]
    have moves := task.callsMove runs (by rw [idle]; rfl)
    have kept := moved holds idle meets runs moves
    rw [forks, serving_append, serving_append, ← List.append_assoc,
      ← serving_append turn.2]
    exact ⟨kept, rfl⟩

theorem accounts_of_reachable {pool : Pool ConnectionManager RoomTask}
    (reachable : connectionSystem.Reachable pool) :
    Accounts pool.shared.calls (serving pool.acts) := by
  have unrestricted := Program.reachable_unrestricted reachable
  refine calls_invariant Accounts (fun moved accounts => accounts.of_perm moved)
    .nil ?_ unrestricted
  intro manager task outside turn others accounts _ _ _ moves
  exact accounts.move moves

end Byteln.Client

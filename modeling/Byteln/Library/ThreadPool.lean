import Byteln.Library.Transition
import Mathlib.Data.List.Perm.Basic

/-!
# Threads over a shared state

A program gives, for the activation on top of a call stack, its next atomic
step on the shared state.  A step may change the shared state, replaces the
activation by a list of activations (the ones it calls first, its own
continuation after them) and may start new threads.  `oracle` carries whatever
the step does not decide itself: a clock reading, the outcome of an I/O call,
an iteration order.

Interleaving is arbitrary: any stack may take the next step, and any entry
activation may be spawned at any time.
-/

namespace Byteln.Library

/-- Threads, each with its call stack, over one shared state. -/
structure Pool (σ α : Type*) where
  shared : σ
  threads : List (List α)

/-- Every activation of the pool, running or waiting for its callee. -/
def Pool.acts {σ α : Type*} (pool : Pool σ α) : List α :=
  pool.threads.flatten

inductive PoolLabel (α ω : Type*) where
  | spawn (act : α)
  | run (act : α) (oracle : ω)

/-- The atomic steps of the activations, the threads started in them, and the
activations a thread may be spawned with from outside. -/
structure Program (σ α ω : Type*) where
  next : ω → α → σ → Option (σ × List α)
  forks : ω → α → σ → List α := fun _ _ _ => []
  entry : α → Prop

namespace Program

variable {σ α ω : Type*} (program : Program σ α ω)

inductive Step : Pool σ α → PoolLabel α ω → Pool σ α → Prop where
  | spawn {shared : σ} (threads : List (List α)) {act : α} :
      program.entry act →
      Step ⟨shared, threads⟩ (.spawn act) ⟨shared, threads ++ [[act]]⟩
  | run {shared shared' : σ} (before after : List (List α))
      {act : α} (rest : List α) {acts : List α} {oracle : ω} :
      program.next oracle act shared = some (shared', acts) →
      Step ⟨shared, before ++ (act :: rest) :: after⟩ (.run act oracle)
        ⟨shared', before ++ (acts ++ rest) ::
          (after ++ (program.forks oracle act shared).map fun act => [act])⟩

def system (init : Pool σ α → Prop) : Lts (Pool σ α) (PoolLabel α ω) where
  init := init
  step := program.Step

/-- A condition on the running activation, its oracle and the shared state it
runs in, as a condition on pool steps.  Spawning a thread is never
restricted. -/
def OnRun (condition : σ → α → ω → Prop) :
    Pool σ α → PoolLabel α ω → Prop
  | pool, .run act oracle => condition pool.shared act oracle
  | _, .spawn _ => True

variable {program}

theorem Step.spawn_inv {pool pool' : Pool σ α} {act : α}
    (step : program.Step pool (.spawn act) pool') :
    program.entry act ∧ pool'.shared = pool.shared ∧
      pool'.acts.Perm (act :: pool.acts) := by
  cases step with
  | spawn _ entry =>
      refine ⟨entry, rfl, ?_⟩
      simp [Pool.acts]

private theorem flatten_map_singleton (acts : List α) :
    (acts.map fun act => [act]).flatten = acts := by
  induction acts with
  | nil => rfl
  | cons act acts induction => simp [induction]

/-- What one step does to the activations, up to their order: the running one
is replaced, the started ones are added, and all others stay. -/
theorem Step.run_inv {pool pool' : Pool σ α} {act : α} {oracle : ω}
    (step : program.Step pool (.run act oracle) pool') :
    ∃ acts others,
      program.next oracle act pool.shared = some (pool'.shared, acts) ∧
        pool.acts.Perm (act :: others) ∧
        pool'.acts.Perm
          (acts ++ (program.forks oracle act pool.shared ++ others)) := by
  cases step with
  | @run shared _ before after _ rest acts _ next =>
      refine ⟨acts, before.flatten ++ (rest ++ after.flatten), next, ?_, ?_⟩
      · simp [Pool.acts]
      · generalize program.forks oracle act shared = started
        have moved : (before.flatten ++ (acts ++ (rest ++
            (after.flatten ++ started)))).Perm
            (acts ++ (started ++ (before.flatten ++ (rest ++
              after.flatten)))) := by
          classical
          rw [List.perm_iff_count]
          intro act
          simp only [List.count_append]
          omega
        simpa [Pool.acts, flatten_map_singleton, List.append_assoc] using moved

/-- What one step does to the stacks: the running activation is replaced on
its stack, the started ones have stacks of their own, and all other stacks
stay. -/
structure StackStep (pool pool' : Pool σ α) (act : α) (acts rest started : List α) :
    Prop where
  before : (act :: rest) ∈ pool.threads
  after : (acts ++ rest) ∈ pool'.threads
  kept : ∀ stack ∈ pool.threads, stack = act :: rest ∨ stack ∈ pool'.threads
  forked : ∀ act' ∈ started, [act'] ∈ pool'.threads
  only : ∀ stack ∈ pool'.threads, stack = acts ++ rest ∨
    stack ∈ pool.threads ∨ ∃ act' ∈ started, stack = [act']

theorem Step.run_stacks {pool pool' : Pool σ α} {act : α} {oracle : ω}
    (step : program.Step pool (.run act oracle) pool') :
    ∃ acts rest, program.next oracle act pool.shared =
        some (pool'.shared, acts) ∧
      StackStep pool pool' act acts rest
        (program.forks oracle act pool.shared) := by
  cases step with
  | @run shared shared' before after _ rest acts _ next =>
      refine ⟨acts, rest, next, by simp, by simp, ?_, ?_, ?_⟩
      · intro stack member
        rcases List.mem_append.mp member with earlier | later
        · exact .inr (List.mem_append_left _ earlier)
        · rcases List.mem_cons.mp later with same | later
          · exact .inl same
          · exact .inr (by simp [later])
      · intro act' started
        simp [started]
      · intro stack member
        rcases List.mem_append.mp member with earlier | later
        · exact .inr (.inl (List.mem_append_left _ earlier))
        · rcases List.mem_cons.mp later with same | later
          · exact .inl same
          · rcases List.mem_append.mp later with kept | started
            · exact .inr (.inl (by simp [kept]))
            · obtain ⟨act', forked, rfl⟩ := List.mem_map.mp started
              exact .inr (.inr ⟨act', forked, rfl⟩)

/-- A stack with a property still has one after the step, unless it is the
running one. -/
theorem StackStep.exists_stack {pool pool' : Pool σ α} {act : α}
    {acts rest started : List α} {property : List α → Prop}
    (moved : StackStep pool pool' act acts rest started)
    (before : ∃ stack ∈ pool.threads, property stack)
    (running : property (act :: rest) →
      ∃ stack ∈ pool'.threads, property stack) :
    ∃ stack ∈ pool'.threads, property stack := by
  obtain ⟨stack, member, holds⟩ := before
  rcases moved.kept stack member with rfl | kept
  · exact running holds
  · exact ⟨stack, kept, holds⟩

/-- The invariant rule for thread pools, with what is known of reachable pools
at hand.  The property may look at the shared state and at all activations,
but not at their order.  Only the steps that meet the condition need to
preserve it. -/
theorem reachable_invariant {init : Pool σ α → Prop}
    {condition : σ → α → ω → Prop} (property : σ → List α → Prop)
    (perm : ∀ {shared acts acts'}, acts.Perm acts' →
      property shared acts → property shared acts')
    (initially : ∀ pool, init pool → property pool.shared pool.acts)
    (spawned : ∀ {shared acts act}, program.entry act →
      property shared acts → property shared (act :: acts))
    (preserved : ∀ {pool shared' act acts others oracle},
      ((program.system init).restrict (OnRun condition)).Reachable pool →
      pool.acts.Perm (act :: others) →
      property pool.shared (act :: others) →
      program.next oracle act pool.shared = some (shared', acts) →
      condition pool.shared act oracle →
      property shared'
        (acts ++ (program.forks oracle act pool.shared ++ others)))
    {pool : Pool σ α}
    (reachable :
      ((program.system init).restrict (OnRun condition)).Reachable pool) :
    property pool.shared pool.acts := by
  refine (Lts.Reachable.invariant (fun pool =>
    ((program.system init).restrict (OnRun condition)).Reachable pool ∧
      property pool.shared pool.acts)
    (fun pool initial => ⟨.start initial, initially pool initial⟩) ?_
    reachable).2
  rintro pool label pool' ⟨reached, holds⟩ step
  refine ⟨reached.step step, ?_⟩
  cases label with
  | spawn act =>
      obtain ⟨entry, sharedEq, actsPerm⟩ := Step.spawn_inv step.1
      rw [sharedEq]
      exact perm actsPerm.symm (spawned entry holds)
  | run act oracle =>
      obtain ⟨acts, others, next, before, after⟩ := Step.run_inv step.1
      exact perm after.symm
        (preserved reached before (perm before holds) next step.2)

/-- The invariant rule for properties that need nothing else. -/
theorem invariant {init : Pool σ α → Prop} {condition : σ → α → ω → Prop}
    (property : σ → List α → Prop)
    (perm : ∀ {shared acts acts'}, acts.Perm acts' →
      property shared acts → property shared acts')
    (initially : ∀ pool, init pool → property pool.shared pool.acts)
    (spawned : ∀ {shared acts act}, program.entry act →
      property shared acts → property shared (act :: acts))
    (preserved : ∀ {shared shared' act acts others oracle},
      property shared (act :: others) →
      program.next oracle act shared = some (shared', acts) →
      condition shared act oracle →
      property shared' (acts ++ (program.forks oracle act shared ++ others)))
    {pool : Pool σ α}
    (reachable :
      ((program.system init).restrict (OnRun condition)).Reachable pool) :
    property pool.shared pool.acts :=
  reachable_invariant property perm initially spawned
    (fun _ _ holds next meets => preserved holds next meets) reachable

/-- A condition that every step meets restricts nothing. -/
theorem reachable_unrestricted {init : Pool σ α → Prop} {pool : Pool σ α}
    (reachable : (program.system init).Reachable pool) :
    ((program.system init).restrict
      (OnRun fun _ _ _ => True)).Reachable pool := by
  obtain ⟨start, trace, initial, run⟩ := reachable
  refine ⟨start, trace, initial, Lts.run_restrict_iff.mpr ⟨run, ?_⟩⟩
  rintro ⟨_, label⟩ -
  cases label <;> trivial

variable (program) in
/-- The invariant rule with the run so far in view, and with a condition that
may look at the whole pool. -/
theorem run_invariant {init : Pool σ α → Prop}
    {condition : Pool σ α → PoolLabel α ω → Prop}
    (property : List (Pool σ α × PoolLabel α ω) → σ → List α → Prop)
    (perm : ∀ {trace shared acts acts'}, acts.Perm acts' →
      property trace shared acts → property trace shared acts')
    (spawned : ∀ {trace pool act}, program.entry act →
      condition pool (.spawn act) → property trace pool.shared pool.acts →
      property (trace ++ [(pool, .spawn act)]) pool.shared (act :: pool.acts))
    (preserved : ∀ {trace pool act oracle shared' acts others},
      pool.acts.Perm (act :: others) →
      property trace pool.shared (act :: others) →
      program.next oracle act pool.shared = some (shared', acts) →
      condition pool (.run act oracle) →
      property (trace ++ [(pool, .run act oracle)]) shared'
        (acts ++ (program.forks oracle act pool.shared ++ others)))
    {start pool : Pool σ α} {trace : List (Pool σ α × PoolLabel α ω)}
    (initially : property [] start.shared start.acts)
    (run : ((program.system init).restrict condition).Run start trace pool) :
    property trace pool.shared pool.acts := by
  induction run with
  | refl => exact initially
  | @snoc middle finish trace label _ taken induction =>
      cases label with
      | spawn act =>
          obtain ⟨entry, sharedEq, actsPerm⟩ := Step.spawn_inv taken.1
          rw [sharedEq]
          exact perm actsPerm.symm (spawned entry taken.2 induction)
      | run act oracle =>
          obtain ⟨acts, others, next, before, after⟩ := Step.run_inv taken.1
          exact perm after.symm
            (preserved before (perm before induction) next taken.2)

/-! ## Executing a schedule -/

/-- Let the stack at a position take its next step. -/
def exec (program : Program σ α ω) (pool : Pool σ α)
    (choice : Nat × ω) : Option (Pool σ α) :=
  match pool.threads[choice.1]? with
  | some (act :: rest) =>
      (program.next choice.2 act pool.shared).map fun (shared, acts) =>
        ⟨shared, pool.threads.take choice.1 ++ (acts ++ rest) ::
          (pool.threads.drop (choice.1 + 1) ++
            (program.forks choice.2 act pool.shared).map fun act => [act])⟩
  | _ => none

/-- Let the threads named by a schedule take their steps in turn. -/
def execAll (program : Program σ α ω) (pool : Pool σ α) :
    List (Nat × ω) → Option (Pool σ α)
  | [] => some pool
  | choice :: schedule =>
      (program.exec pool choice).bind fun next =>
        program.execAll next schedule

/-- The step a choice stands for: that of the activation on top of the chosen
stack. -/
theorem exec_step {pool pool' : Pool σ α} {choice : Nat × ω}
    (result : program.exec pool choice = some pool') :
    ∃ act rest, pool.threads[choice.1]? = some (act :: rest) ∧
      program.Step pool (.run act choice.2) pool' := by
  unfold exec at result
  split at result
  · rename_i act rest found
    obtain ⟨⟨shared', acts⟩, next, rfl⟩ := Option.map_eq_some_iff.mp result
    obtain ⟨inBounds, stackEq⟩ := List.getElem?_eq_some_iff.mp found
    have split : pool.threads = pool.threads.take choice.1 ++
        (act :: rest) :: pool.threads.drop (choice.1 + 1) := by
      rw [← stackEq, List.getElem_cons_drop, List.take_append_drop]
    obtain ⟨shared, threads⟩ := pool
    simp only at split next found ⊢
    refine ⟨act, rest, found, ?_⟩
    have step := Step.run (threads.take choice.1)
      (threads.drop (choice.1 + 1)) rest next
    rwa [← split] at step
  · simp at result

theorem exec_step_of {pool pool' : Pool σ α} {position : Nat} {act : α}
    {rest : List α} {oracle : ω}
    (found : pool.threads[position]? = some (act :: rest))
    (result : program.exec pool (position, oracle) = some pool') :
    program.Step pool (.run act oracle) pool' := by
  obtain ⟨act', rest', found', step⟩ := exec_step result
  obtain ⟨rfl, -⟩ := List.cons.inj (Option.some.inj (found'.symm.trans found))
  exact step

theorem execAll_run {init : Pool σ α → Prop} {pool pool' : Pool σ α}
    {schedule : List (Nat × ω)}
    (reachable : (program.system init).Reachable pool)
    (result : program.execAll pool schedule = some pool') :
    (program.system init).Reachable pool' := by
  induction schedule generalizing pool with
  | nil =>
      simp only [execAll, Option.some.injEq] at result
      exact result ▸ reachable
  | cons choice schedule induction =>
      obtain ⟨middle, first, rest⟩ := Option.bind_eq_some_iff.mp result
      obtain ⟨act, _, _, step⟩ := exec_step first
      exact induction (reachable.step step) rest

/-- Any number of threads can be spawned before the first step. -/
theorem spawnAll_reachable {init : Pool σ α → Prop} {pool : Pool σ α}
    (reachable : (program.system init).Reachable pool) (acts : List α)
    (entries : ∀ act ∈ acts, program.entry act) :
    (program.system init).Reachable
      ⟨pool.shared, pool.threads ++ acts.map fun act => [act]⟩ := by
  induction acts generalizing pool with
  | nil => simpa using reachable
  | cons act acts induction =>
      have spawned := reachable.step
        (.spawn pool.threads (entries act (by simp)))
      simpa using induction spawned fun other member =>
        entries other (by simp [member])

/-! ## Playing moves -/

/-- A thread started from outside, or the next step of the stack at a
position. -/
inductive Move (α ω : Type*) where
  | spawn (act : α)
  | run (position : Nat) (oracle : ω)

def play (program : Program σ α ω) (pool : Pool σ α) :
    List (Move α ω) → Option (List (Pool σ α × PoolLabel α ω) × Pool σ α)
  | [] => some ([], pool)
  | .spawn act :: moves =>
      (program.play ⟨pool.shared, pool.threads ++ [[act]]⟩ moves).map
        fun (trace, last) => ((pool, .spawn act) :: trace, last)
  | .run position oracle :: moves =>
      match pool.threads[position]? with
      | some (act :: _) =>
          (program.exec pool (position, oracle)).bind fun next =>
            (program.play next moves).map fun (trace, last) =>
              ((pool, .run act oracle) :: trace, last)
      | _ => none

/-- The moves played are a run, if outside only entries are started. -/
theorem play_run {init : Pool σ α → Prop} {pool last : Pool σ α}
    {moves : List (Move α ω)} {trace : List (Pool σ α × PoolLabel α ω)}
    (entries : ∀ act, .spawn act ∈ moves → program.entry act)
    (played : program.play pool moves = some (trace, last)) :
    (program.system init).Run pool trace last := by
  induction moves generalizing pool trace with
  | nil =>
      obtain ⟨rfl, rfl⟩ := Prod.mk.inj (Option.some.inj played)
      exact .refl _
  | cons move moves induction =>
      have later : ∀ act, .spawn act ∈ moves → program.entry act :=
        fun act member => entries act (List.mem_cons_of_mem _ member)
      cases move with
      | spawn act =>
          obtain ⟨⟨rest, last⟩, playedRest, equal⟩ :=
            Option.map_eq_some_iff.mp played
          obtain ⟨rfl, rfl⟩ := Prod.mk.inj equal
          exact .cons (.spawn pool.threads (entries act (by simp)))
            (induction later playedRest)
      | run position oracle =>
          simp only [play] at played
          split at played
          · rename_i act rest found
            obtain ⟨next, ran, playedNext⟩ := Option.bind_eq_some_iff.mp played
            obtain ⟨⟨rest, last⟩, playedRest, equal⟩ :=
              Option.map_eq_some_iff.mp playedNext
            obtain ⟨rfl, rfl⟩ := Prod.mk.inj equal
            obtain ⟨act', _, found', step⟩ := exec_step ran
            obtain ⟨rfl, -⟩ :=
              List.cons.inj (Option.some.inj (found'.symm.trans found))
            exact .cons step (induction later playedRest)
          · cases played

end Program

end Byteln.Library

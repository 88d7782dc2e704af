import Mathlib.Order.Nat
import Byteln.Library.ThreadPool

/-!
# Fair executions

Infinite executions of a program, which may pause, and what fairness says
about them: an activation that can take its next step whenever it is looked
at does take it.  A finite run that ends where no thread can go on is fair
when it pauses for ever.
-/

namespace Byteln.Library

/-- The activations that take the next steps of their threads. -/
def Pool.tops {σ α : Type*} (pool : Pool σ α) : List α :=
  pool.threads.filterMap List.head?

namespace Program

variable {σ α ω : Type*} {program : Program σ α ω}

theorem mem_tops {pool : Pool σ α} {act : α} :
    act ∈ pool.tops ↔ ∃ rest, (act :: rest) ∈ pool.threads := by
  simp only [Pool.tops, List.mem_filterMap]
  constructor
  · rintro ⟨stack, member, head⟩
    obtain ⟨rest, rfl⟩ := List.head?_eq_some_iff.mp head
    exact ⟨rest, member⟩
  · rintro ⟨rest, member⟩
    exact ⟨act :: rest, member, rfl⟩

theorem mem_acts_of_tops {pool : Pool σ α} {act : α}
    (top : act ∈ pool.tops) : act ∈ pool.acts := by
  obtain ⟨rest, member⟩ := mem_tops.mp top
  exact List.mem_flatten.mpr ⟨_, member, List.mem_cons_self⟩

/-- An activation stays on top of its stack until it takes a step. -/
theorem Step.top_stays {pool pool' : Pool σ α} {label : PoolLabel α ω}
    {act : α} (step : program.Step pool label pool') (top : act ∈ pool.tops) :
    act ∈ pool'.tops ∨ ∃ oracle, label = .run act oracle := by
  obtain ⟨rest, member⟩ := mem_tops.mp top
  cases label with
  | spawn other =>
      left
      cases step with
      | spawn threads entry =>
          exact mem_tops.mpr ⟨rest, List.mem_append_left _ member⟩
  | run other oracle =>
      obtain ⟨acts, below, -, kept⟩ := step.run_stacks
      rcases kept.kept _ member with same | kept
      · obtain ⟨rfl, rfl⟩ := List.cons.inj same
        exact .inr ⟨oracle, rfl⟩
      · exact .inl (mem_tops.mpr ⟨rest, kept⟩)

variable (program) in
/-- The activation can take a step. -/
def Enabled (act : α) (shared : σ) : Prop :=
  ∃ oracle, (program.next oracle act shared).isSome = true

variable (program) in
/-- An infinite execution.  It pauses where there is no label. -/
structure Execution where
  pools : Nat → Pool σ α
  labels : Nat → Option (PoolLabel α ω)
  step : ∀ time label, labels time = some label →
    program.Step (pools time) label (pools (time + 1))
  pause : ∀ time, labels time = none → pools (time + 1) = pools time

namespace Execution

variable (execution : program.Execution)

/-- An activation that from some time on can take a step whenever it is on top
of its stack takes one. -/
def Fair : Prop :=
  ∀ time act, act ∈ (execution.pools time).tops →
    (∀ later, time ≤ later → act ∈ (execution.pools later).tops →
      program.Enabled act (execution.pools later).shared) →
    ∃ later oracle, time ≤ later ∧
      execution.labels later = some (.run act oracle)

/-- Every step meets a condition. -/
def AllMeet (condition : Pool σ α → PoolLabel α ω → Prop) : Prop :=
  ∀ time label, execution.labels time = some label →
    condition (execution.pools time) label

variable {execution}

theorem reachable {init : Pool σ α → Prop}
    {condition : Pool σ α → PoolLabel α ω → Prop}
    (initial : init (execution.pools 0))
    (meets : execution.AllMeet condition) (time : Nat) :
    ((program.system init).restrict condition).Reachable
      (execution.pools time) := by
  induction time with
  | zero => exact .start initial
  | succ time induction =>
      cases taken : execution.labels time with
      | none =>
          rw [execution.pause time taken]
          exact induction
      | some label =>
          exact induction.step
            ⟨execution.step time label taken, meets time label taken⟩

/-- What every step and every pause keeps holds ever after. -/
theorem stable (property : Pool σ α → Prop)
    (keeps : ∀ time label, execution.labels time = some label →
      property (execution.pools time) →
        property (execution.pools (time + 1)))
    {time later : Nat} (le : time ≤ later)
    (holds : property (execution.pools time)) :
    property (execution.pools later) := by
  induction later, le using Nat.le_induction with
  | base => exact holds
  | succ later _ induction =>
      cases taken : execution.labels later with
      | none =>
          rw [execution.pause later taken]
          exact induction
      | some label => exact keeps later label taken induction

/-- An activation is still there, or has taken a step. -/
theorem stays_or_runs {time later : Nat} {act : α} (le : time ≤ later)
    (top : act ∈ (execution.pools time).tops) :
    act ∈ (execution.pools later).tops ∨
      ∃ between oracle, time ≤ between ∧
        execution.labels between = some (.run act oracle) := by
  induction later, le using Nat.le_induction with
  | base => exact .inl top
  | succ later le induction =>
      rcases induction with there | ran
      · cases taken : execution.labels later with
        | none =>
            rw [execution.pause later taken]
            exact .inl there
        | some label =>
            rcases (execution.step later label taken).top_stays there with
              stays | ⟨oracle, rfl⟩
            · exact .inl stays
            · exact .inr ⟨later, oracle, le, taken⟩
      · exact .inr ran

/-- Fairness, for an activation that can take its step from some later time
on. -/
theorem Fair.runs (fair : execution.Fair) {time since : Nat} {act : α}
    (le : time ≤ since) (top : act ∈ (execution.pools time).tops)
    (enabled : ∀ later, since ≤ later →
      act ∈ (execution.pools later).tops →
        program.Enabled act (execution.pools later).shared) :
    ∃ later oracle, time ≤ later ∧
      execution.labels later = some (.run act oracle) := by
  rcases stays_or_runs le top with there | ran
  · obtain ⟨later, oracle, after, taken⟩ := fair since act there enabled
    exact ⟨later, oracle, le.trans after, taken⟩
  · exact ran

end Execution

/-! ## Finite runs -/

/-- The state before a step of a run, or the last state. -/
def stateAt (steps : List (Pool σ α × PoolLabel α ω)) (last : Pool σ α)
    (time : Nat) : Pool σ α :=
  (steps[time]?.map Prod.fst).getD last

/-- Every recorded step leads to the state before the next one. -/
theorem step_stateAt {system : Lts (Pool σ α) (PoolLabel α ω)}
    {start last : Pool σ α} {steps : List (Pool σ α × PoolLabel α ω)}
    (run : system.Run start steps last) {time : Nat}
    {entry : Pool σ α × PoolLabel α ω} (found : steps[time]? = some entry) :
    system.step entry.1 entry.2 (stateAt steps last (time + 1)) := by
  induction run with
  | refl => cases found
  | @snoc middle finish steps label _ taken induction =>
      rcases Nat.lt_trichotomy time steps.length with earlier | same | later
      · rw [List.getElem?_append_left earlier] at found
        have next := induction found
        have agree : stateAt (steps ++ [(middle, label)]) finish (time + 1) =
            stateAt steps middle (time + 1) := by
          unfold stateAt
          rcases Nat.lt_or_ge (time + 1) steps.length with inside | outside
          · rw [List.getElem?_append_left inside,
              List.getElem?_eq_getElem inside]
            rfl
          · have same : time + 1 = steps.length := by omega
            simp [same]
        rw [agree]
        exact next
      · subst same
        simp only [List.getElem?_append_right le_rfl, Nat.sub_self,
          List.getElem?_cons_zero, Option.some.injEq] at found
        subst found
        have ends : stateAt (steps ++ [(middle, label)]) finish
            (steps.length + 1) = finish := by
          simp [stateAt]
        rw [ends]
        exact taken
      · have past : (steps ++ [(middle, label)]).length ≤ time := by
          simp only [List.length_append, List.length_singleton]
          omega
        rw [List.getElem?_eq_none past] at found
        cases found

namespace Execution

/-- A run that pauses for ever after its last step. -/
def ofRun {init : Pool σ α → Prop} {start last : Pool σ α}
    {steps : List (Pool σ α × PoolLabel α ω)}
    (run : (program.system init).Run start steps last) :
    program.Execution where
  pools := stateAt steps last
  labels := fun time => steps[time]?.map Prod.snd
  step := by
    intro time label taken
    obtain ⟨entry, found, rfl⟩ := Option.map_eq_some_iff.mp taken
    have step := step_stateAt run found
    have state : stateAt steps last time = entry.1 := by
      simp [stateAt, found]
    rw [state]
    exact step
  pause := by
    intro time none
    have past : steps.length ≤ time := by
      simpa using none
    simp [stateAt, List.getElem?_eq_none past,
      List.getElem?_eq_none (past.trans (Nat.le_succ time))]

variable {init : Pool σ α → Prop} {start last : Pool σ α}
  {steps : List (Pool σ α × PoolLabel α ω)}
  (run : (program.system init).Run start steps last)

theorem ofRun_start : (ofRun run).pools 0 = start := by
  have first : ∀ {last : Pool σ α}
      {steps : List (Pool σ α × PoolLabel α ω)},
      (program.system init).Run start steps last →
        stateAt steps last 0 = start := by
    intro last steps run
    induction run with
    | refl => rfl
    | @snoc middle finish steps label _ _ induction =>
        cases steps with
        | nil => exact induction
        | cons entry steps => exact induction
  exact first run

theorem ofRun_past {time : Nat} (past : steps.length ≤ time) :
    (ofRun run).pools time = last := by
  simp [ofRun, stateAt, List.getElem?_eq_none past]

theorem ofRun_allMeet {condition : Pool σ α → PoolLabel α ω → Prop}
    (meets : Lts.AllMeet condition steps) :
    (ofRun run).AllMeet condition := by
  intro time label taken
  obtain ⟨entry, found, rfl⟩ := Option.map_eq_some_iff.mp taken
  have state : (ofRun run).pools time = entry.1 := by
    simp [ofRun, stateAt, found]
  rw [state]
  exact meets entry (List.mem_of_getElem? found)

/-- A run that ends where no thread can go on is fair. -/
theorem ofRun_fair
    (stuck : ∀ act ∈ last.tops, ¬ program.Enabled act last.shared) :
    (ofRun run).Fair := by
  intro time act top enabled
  have le := Nat.le_max_left time steps.length
  have past := ofRun_past run (Nat.le_max_right time steps.length)
  rcases stays_or_runs le top with there | ran
  · have able := enabled _ le there
    rw [past] at there able
    exact absurd able (stuck act there)
  · exact ran

end Execution

end Program

end Byteln.Library

import Byteln.Library.ThreadPool
import Mathlib.Data.Set.Basic

/-!
# Deadlocks

Threads that wait for resources which other threads hold.  A set of threads is
deadlocked when none of them can go on and each waits for a member, or for
nobody at all.  There is no such set when the resources are ranked, and every
thread waits for a resource of a higher rank than those it holds.
-/

namespace Byteln.Library

/-- The resource that the next step of an activation takes or waits for, and
the resources that an activation holds, one entry for each hold. -/
structure Locking (σ α ρ : Type*) where
  wants : σ → α → Option ρ
  holds : α → List ρ

/-- One thread waits for a resource that another one holds. -/
def Locking.WaitsFor {σ α ρ : Type*} (locking : Locking σ α ρ)
    (pool : Pool σ α) (i j : ℕ) : Prop :=
  ∃ act rest stack resource,
    pool.threads[i]? = some (act :: rest) ∧
      locking.wants pool.shared act = some resource ∧
      pool.threads[j]? = some stack ∧
      ∃ act' ∈ stack, resource ∈ locking.holds act'

namespace Program

variable {σ α ω ρ : Type*}

/-- A thread whose call has not ended. -/
def Pending (ended : α → Prop) (pool : Pool σ α) (i : ℕ) : Prop :=
  ∃ act rest, pool.threads[i]? = some (act :: rest) ∧ ¬ ended act

/-- A thread whose call has not ended and that has no step. -/
def Blocked (program : Program σ α ω) (ended : α → Prop) (pool : Pool σ α)
    (i : ℕ) : Prop :=
  Pending ended pool i ∧ ∀ oracle, program.exec pool (i, oracle) = none

def Deadlocked (program : Program σ α ω) (ended : α → Prop)
    (locking : Locking σ α ρ) (pool : Pool σ α) : Prop :=
  ∃ members : Set ℕ, members.Nonempty ∧ ∀ i ∈ members,
    program.Blocked ended pool i ∧
      ((∃ j, locking.WaitsFor pool i j) →
        ∃ j ∈ members, locking.WaitsFor pool i j)

/-- What keeps a pool from deadlocks: whoever cannot go on waits for a pending
thread, and no thread waits for a resource of a lower or equal rank than one it
holds. -/
structure Ranked (program : Program σ α ω) (ended : α → Prop)
    (locking : Locking σ α ρ) (rank : ρ → ℕ) (pool : Pool σ α) : Prop where
  waits : ∀ i, program.Blocked ended pool i →
    ∃ j, Pending ended pool j ∧ locking.WaitsFor pool i j
  ascends : ∀ act rest resource act' resource',
    (act :: rest) ∈ pool.threads →
    locking.wants pool.shared act = some resource →
    act' ∈ act :: rest → resource' ∈ locking.holds act' →
    rank resource' < rank resource

variable {program : Program σ α ω} {ended : α → Prop}
  {locking : Locking σ α ρ} {rank : ρ → ℕ} {pool : Pool σ α}

/-- Along a chain of waiting threads the rank of what they wait for grows. -/
theorem Ranked.grows (ranked : Ranked program ended locking rank pool)
    {i j k : ℕ} {act : α} {rest : List α} {resource : ρ}
    (top : pool.threads[i]? = some (act :: rest))
    (wanted : locking.wants pool.shared act = some resource)
    (waits : locking.WaitsFor pool i j) (further : locking.WaitsFor pool j k) :
    ∃ act' rest' resource', pool.threads[j]? = some (act' :: rest') ∧
      locking.wants pool.shared act' = some resource' ∧
      rank resource < rank resource' := by
  obtain ⟨act₁, rest₁, stack, resource₁, top₁, wanted₁, atStack, holder,
    member, holds⟩ := waits
  obtain ⟨rfl, rfl⟩ := List.cons.inj (Option.some.inj (top.symm.trans top₁))
  obtain rfl := Option.some.inj (wanted.symm.trans wanted₁)
  obtain ⟨act₂, rest₂, _, resource₂, top₂, wanted₂, -⟩ := further
  obtain rfl := Option.some.inj (atStack.symm.trans top₂)
  exact ⟨act₂, rest₂, resource₂, top₂, wanted₂,
    ranked.ascends act₂ rest₂ resource₂ holder resource
      (List.mem_of_getElem? top₂) wanted₂ member holds⟩

/-- Among threads that all wait for one another the ranks are unbounded. -/
private theorem Ranked.unbounded
    (ranked : Ranked program ended locking rank pool) {members : Set ℕ}
    (circular : ∀ i ∈ members, ∃ j ∈ members, locking.WaitsFor pool i j)
    (occupied : members.Nonempty) (n : ℕ) :
    ∃ i ∈ members, ∃ act rest resource,
      pool.threads[i]? = some (act :: rest) ∧
        locking.wants pool.shared act = some resource ∧
        n ≤ rank resource := by
  induction n with
  | zero =>
      obtain ⟨i, member⟩ := occupied
      obtain ⟨j, -, act, rest, -, resource, top, wanted, -⟩ :=
        circular i member
      exact ⟨i, member, act, rest, resource, top, wanted, Nat.zero_le _⟩
  | succ n induction =>
      obtain ⟨i, member, act, rest, resource, top, wanted, reached⟩ :=
        induction
      obtain ⟨j, memberJ, waits⟩ := circular i member
      obtain ⟨k, -, further⟩ := circular j memberJ
      obtain ⟨act', rest', resource', top', wanted', higher⟩ :=
        ranked.grows top wanted waits further
      exact ⟨j, memberJ, act', rest', resource', top', wanted',
        Nat.succ_le_of_lt (Nat.lt_of_le_of_lt reached higher)⟩

theorem Ranked.not_deadlocked
    (ranked : Ranked program ended locking rank pool) {bound : ℕ}
    (bounded : ∀ resource, rank resource < bound) :
    ¬ program.Deadlocked ended locking pool := by
  rintro ⟨members, occupied, stuck⟩
  have circular : ∀ i ∈ members, ∃ j ∈ members, locking.WaitsFor pool i j := by
    intro i member
    obtain ⟨blocked, closed⟩ := stuck i member
    obtain ⟨j, -, waits⟩ := ranked.waits i blocked
    exact closed ⟨j, waits⟩
  obtain ⟨-, -, -, -, resource, -, -, reached⟩ :=
    ranked.unbounded circular occupied bound
  exact absurd (bounded resource) (Nat.not_lt.mpr reached)

/-- As long as some call has not ended, some thread can take a step. -/
theorem Ranked.goes_on (ranked : Ranked program ended locking rank pool)
    {bound : ℕ} (bounded : ∀ resource, rank resource < bound)
    (pending : ∃ i, Pending ended pool i) :
    ∃ i oracle pool', program.exec pool (i, oracle) = some pool' := by
  by_contra none
  have stuck : ∀ i oracle, program.exec pool (i, oracle) = .none := by
    intro i oracle
    cases stepped : program.exec pool (i, oracle) with
    | none => rfl
    | some pool' => exact absurd ⟨i, oracle, pool', stepped⟩ none
  apply ranked.not_deadlocked bounded
  refine ⟨{i | Pending ended pool i}, pending, ?_⟩
  intro i member
  refine ⟨⟨member, stuck i⟩, fun _ => ?_⟩
  exact ranked.waits i ⟨member, stuck i⟩

end Program

end Byteln.Library

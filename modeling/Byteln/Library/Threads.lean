import Byteln.Library.ThreadPool

/-!
# Following one thread

A thread keeps its position in the pool, so that a run played move by move can
be followed at one position.
-/

namespace Byteln.Library.Program

variable {σ α ω : Type*} {program : Program σ α ω}

/-- What a step at a position does to the stacks: that one changes, the others
stay where they are. -/
structure ExecStep (program : Program σ α ω) (pool pool' : Pool σ α)
    (position : Nat) (oracle : ω) (act : α) (rest acts : List α) :
    Prop where
  next : program.next oracle act pool.shared = some (pool'.shared, acts)
  before : pool.threads[position]? = some (act :: rest)
  after : pool'.threads[position]? = some (acts ++ rest)
  elsewhere : ∀ {i : Nat} {stack : List α}, i ≠ position →
    pool.threads[i]? = some stack → pool'.threads[i]? = some stack
  step : program.Step pool (.run act oracle) pool'

theorem getElem?_replace {α : Type*} {xs : List α} {n i : Nat} (x : α)
    (ys : List α) (bound : n < xs.length) :
    (xs.take n ++ x :: (xs.drop (n + 1) ++ ys))[i]? =
      if i = n then some x else (xs ++ ys)[i]? := by
  have width : (xs.take n).length = n :=
    List.length_take_of_le (Nat.le_of_lt bound)
  have set : xs.take n ++ x :: xs.drop (n + 1) = xs.set n x :=
    (List.set_eq_take_append_cons_drop.trans (if_pos bound)).symm
  rw [← List.cons_append, ← List.append_assoc, set]
  by_cases same : i = n
  · rw [if_pos same, same, List.getElem?_append_left (by simpa using bound),
      List.getElem?_set_self bound]
  · rw [if_neg same, List.getElem?_append, List.getElem?_append,
      List.length_set, List.getElem?_set_ne (Ne.symm same)]

theorem exec_inv {pool pool' : Pool σ α} {position : Nat} {oracle : ω}
    (ran : program.exec pool (position, oracle) = some pool') :
    ∃ act rest acts,
      ExecStep program pool pool' position oracle act rest acts := by
  obtain ⟨act, rest, found, step⟩ := exec_step ran
  unfold exec at ran
  rw [found] at ran
  dsimp only at ran
  obtain ⟨⟨shared', acts⟩, next, rfl⟩ := Option.map_eq_some_iff.mp ran
  obtain ⟨bound, -⟩ := List.getElem?_eq_some_iff.mp found
  refine ⟨act, rest, acts, next, found, ?_, ?_, step⟩
  · exact (getElem?_replace _ _ bound).trans (if_pos rfl)
  · intro i stack different here
    refine ((getElem?_replace _ _ bound).trans (if_neg different)).trans ?_
    obtain ⟨inside, -⟩ := List.getElem?_eq_some_iff.mp here
    rw [List.getElem?_append_left inside, here]

/-- The first of the moves played. -/
theorem play_run_inv {pool last : Pool σ α} {position : Nat} {oracle : ω}
    {moves : List (Move α ω)} {trace : List (Pool σ α × PoolLabel α ω)}
    (played : program.play pool (.run position oracle :: moves) =
      some (trace, last)) :
    ∃ next act rest acts later,
      ExecStep program pool next position oracle act rest acts ∧
        program.play next moves = some (later, last) ∧
        trace = (pool, .run act oracle) :: later := by
  simp only [play] at played
  split at played
  · rename_i act rest found
    obtain ⟨next, ran, playedNext⟩ := Option.bind_eq_some_iff.mp played
    obtain ⟨⟨later, last'⟩, playedLater, equal⟩ :=
      Option.map_eq_some_iff.mp playedNext
    obtain ⟨rfl, rfl⟩ := Prod.mk.inj equal
    obtain ⟨act', rest', acts, step⟩ := exec_inv ran
    obtain ⟨rfl, rfl⟩ :=
      List.cons.inj (Option.some.inj (step.before.symm.trans found))
    exact ⟨next, act', rest', acts, later, step, playedLater, rfl⟩
  · cases played

theorem play_spawn_inv {pool last : Pool σ α} {act : α}
    {moves : List (Move α ω)} {trace : List (Pool σ α × PoolLabel α ω)}
    (played : program.play pool (.spawn act :: moves) = some (trace, last)) :
    ∃ later, program.play ⟨pool.shared, pool.threads ++ [[act]]⟩ moves =
        some (later, last) ∧
      trace = (pool, .spawn act) :: later := by
  obtain ⟨⟨later, last'⟩, playedLater, equal⟩ :=
    Option.map_eq_some_iff.mp played
  obtain ⟨rfl, rfl⟩ := Prod.mk.inj equal
  exact ⟨later, playedLater, rfl⟩

theorem play_append {pool last : Pool σ α} {moves moves' : List (Move α ω)}
    {trace : List (Pool σ α × PoolLabel α ω)}
    (played : program.play pool (moves ++ moves') = some (trace, last)) :
    ∃ earlier middle later,
      program.play pool moves = some (earlier, middle) ∧
        program.play middle moves' = some (later, last) ∧
        trace = earlier ++ later := by
  induction moves generalizing pool trace with
  | nil => exact ⟨[], pool, trace, rfl, played, rfl⟩
  | cons move moves induction =>
      cases move with
      | spawn act =>
          obtain ⟨rest, playedRest, rfl⟩ := play_spawn_inv played
          obtain ⟨earlier, middle, later, first, second, rfl⟩ :=
            induction playedRest
          refine ⟨(pool, .spawn act) :: earlier, middle, later, ?_, second,
            rfl⟩
          exact Option.map_eq_some_iff.mpr ⟨_, first, rfl⟩
      | run position oracle =>
          simp only [List.cons_append, play] at played ⊢
          split at played
          · rename_i act rest found
            obtain ⟨next, ran, playedNext⟩ :=
              Option.bind_eq_some_iff.mp played
            obtain ⟨⟨rest', last'⟩, playedRest, equal⟩ :=
              Option.map_eq_some_iff.mp playedNext
            obtain ⟨rfl, rfl⟩ := Prod.mk.inj equal
            obtain ⟨earlier, middle, later, first, second, rfl⟩ :=
              induction playedRest
            refine ⟨(pool, .run act oracle) :: earlier, middle, later, ?_,
              second, rfl⟩
            rw [ran, Option.bind_some]
            exact Option.map_eq_some_iff.mpr ⟨_, first, rfl⟩
          · cases played

/-- A property of pools that every move preserves that meets the condition. -/
theorem play_preserves {property : Pool σ α → Prop}
    {condition : Pool σ α → PoolLabel α ω → Prop}
    (spawned : ∀ pool act, program.entry act → property pool →
      property ⟨pool.shared, pool.threads ++ [[act]]⟩)
    (ran : ∀ {pool pool' position oracle act rest acts},
      ExecStep program pool pool' position oracle act rest acts →
      condition pool (.run act oracle) → property pool → property pool')
    {pool last : Pool σ α} {moves : List (Move α ω)}
    {trace : List (Pool σ α × PoolLabel α ω)}
    (entries : ∀ act, .spawn act ∈ moves → program.entry act)
    (played : program.play pool moves = some (trace, last))
    (meets : Lts.AllMeet condition trace) (holds : property pool) :
    property last := by
  induction moves generalizing pool trace with
  | nil =>
      obtain ⟨-, rfl⟩ := Prod.mk.inj (Option.some.inj played)
      exact holds
  | cons move moves induction =>
      have further : ∀ act, .spawn act ∈ moves → program.entry act :=
        fun act member => entries act (List.mem_cons_of_mem _ member)
      cases move with
      | spawn act =>
          obtain ⟨later, playedLater, rfl⟩ := play_spawn_inv played
          apply induction further playedLater
          · intro entry member
            exact meets entry (List.mem_cons_of_mem _ member)
          · exact spawned pool act (entries act List.mem_cons_self) holds
      | run position oracle =>
          obtain ⟨next, act, rest, acts, later, step, playedLater, rfl⟩ :=
            play_run_inv played
          apply induction further playedLater
          · intro entry member
            exact meets entry (List.mem_cons_of_mem _ member)
          · exact ran step (meets _ List.mem_cons_self) holds

end Byteln.Library.Program

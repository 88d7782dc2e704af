import Mathlib.Logic.Relation

/-!
# Labelled transition systems

Finite runs of a labelled transition system, the states they reach, and the
induction principle every safety proof of this development goes through.  A
run records the state before each step next to the step's label, so that a
condition on steps can be imposed on a run after the fact (`Lts.AllMeet`, and
`Lts.AlwaysMeet` if it looks back at the run so far) or built into the system
(`Lts.restrict`).
-/

namespace Byteln.Library

/-- Initial states and labelled steps. -/
structure Lts (σ ℓ : Type*) where
  init : σ → Prop
  step : σ → ℓ → σ → Prop

namespace Lts

variable {σ ℓ : Type*} (system : Lts σ ℓ)

/-- A finite run.  Its trace lists the state before each step together with
the label of the step, oldest first. -/
inductive Run : σ → List (σ × ℓ) → σ → Prop where
  | refl (state : σ) : Run state [] state
  | snoc {start middle finish : σ} {trace : List (σ × ℓ)} {label : ℓ} :
      Run start trace middle →
      system.step middle label finish →
      Run start (trace ++ [(middle, label)]) finish

/-- Every recorded step of a trace meets a condition. -/
def AllMeet (condition : σ → ℓ → Prop) (trace : List (σ × ℓ)) : Prop :=
  ∀ entry ∈ trace, condition entry.1 entry.2

/-- Every recorded step of a trace meets a condition on the step and what came
before it. -/
def AlwaysMeet (condition : List (σ × ℓ) → σ → ℓ → Prop)
    (trace : List (σ × ℓ)) : Prop :=
  ∀ earlier state label later, trace = earlier ++ (state, label) :: later →
    condition earlier state label

/-- A test of every step of a trace together with what came before it. -/
def testAlong (test : List (σ × ℓ) → σ × ℓ → Bool) :
    List (σ × ℓ) → List (σ × ℓ) → Bool
  | _, [] => true
  | earlier, entry :: later =>
      test earlier entry && testAlong test (earlier ++ [entry]) later

def Reachable (state : σ) : Prop :=
  ∃ start trace, system.init start ∧ system.Run start trace state

/-- The system whose steps are those steps that meet a condition. -/
def restrict (condition : σ → ℓ → Prop) : Lts σ ℓ where
  init := system.init
  step := fun state label next =>
    system.step state label next ∧ condition state label

variable {system}

theorem Reachable.start {state : σ} (initial : system.init state) :
    system.Reachable state :=
  ⟨state, [], initial, .refl state⟩

theorem Reachable.step {state next : σ} {label : ℓ}
    (reachable : system.Reachable state)
    (taken : system.step state label next) : system.Reachable next := by
  obtain ⟨start, trace, initial, run⟩ := reachable
  exact ⟨start, _, initial, run.snoc taken⟩

theorem Reachable.run {state next : σ} {trace : List (σ × ℓ)}
    (reachable : system.Reachable state)
    (run : system.Run state trace next) : system.Reachable next := by
  induction run with
  | refl => exact reachable
  | snoc _ taken induction => exact induction.step taken

/-- What a list of labels leads to, where every label has one step at most. -/
theorem Reachable.foldlM {run : σ → ℓ → Option σ}
    (agrees : ∀ state label next, run state label = some next →
      system.step state label next)
    {labels : List ℓ} {state finish : σ} (reachable : system.Reachable state)
    (ran : labels.foldlM run state = some finish) :
    system.Reachable finish := by
  induction labels generalizing state with
  | nil =>
      obtain rfl := Option.some.inj ran
      exact reachable
  | cons label labels induction =>
      rw [List.foldlM_cons, Option.bind_eq_bind, Option.bind_eq_some_iff] at ran
      obtain ⟨next, taken, ran⟩ := ran
      exact induction (reachable.step (agrees _ _ _ taken)) ran

/-- A run extended by an earlier step. -/
theorem Run.cons {start middle finish : σ} {trace : List (σ × ℓ)} {label : ℓ}
    (taken : system.step start label middle)
    (run : system.Run middle trace finish) :
    system.Run start ((start, label) :: trace) finish := by
  induction run with
  | refl => exact (Run.refl start).snoc taken
  | snoc _ last induction => exact induction.snoc last

/-- The last step of a run. -/
theorem Run.of_snoc {start middle finish : σ} {trace : List (σ × ℓ)}
    {label : ℓ} (run : system.Run start (trace ++ [(middle, label)]) finish) :
    system.Run start trace middle ∧ system.step middle label finish := by
  generalize extended : trace ++ [(middle, label)] = whole at run
  cases run with
  | refl => simp at extended
  | snoc earlier taken =>
      obtain ⟨rfl, last⟩ := List.append_inj' extended rfl
      obtain ⟨rfl, rfl⟩ := Prod.mk.inj (List.singleton_inj.mp last)
      exact ⟨earlier, taken⟩

/-- A run up to one of its steps. -/
theorem Run.before {start middle finish : σ} {label : ℓ}
    {earlier later : List (σ × ℓ)}
    (run : system.Run start (earlier ++ (middle, label) :: later) finish) :
    system.Run start earlier middle := by
  generalize split : earlier ++ (middle, label) :: later = whole at run
  induction run generalizing later with
  | refl => simp at split
  | snoc shorter taken induction =>
      rcases List.eq_nil_or_concat later with rfl | ⟨later, last, rfl⟩
      · obtain ⟨rfl, same⟩ := List.append_inj' split rfl
        obtain ⟨rfl, -⟩ := Prod.mk.inj (List.singleton_inj.mp same)
        exact shorter
      · rw [List.concat_eq_append, ← List.cons_append,
          ← List.append_assoc] at split
        exact induction (List.append_inj' split rfl).1

/-- A property of the first state of a run that every step preserves holds of
its last state. -/
theorem Run.preserves {start finish : σ} {trace : List (σ × ℓ)}
    {property : σ → Prop} (run : system.Run start trace finish)
    (holds : property start)
    (preserved : ∀ state label next, property state →
      system.step state label next → property next) :
    property finish := by
  induction run with
  | refl => exact holds
  | snoc _ taken induction => exact preserved _ _ _ induction taken

/-- An inductive invariant holds of every reachable state. -/
theorem Reachable.invariant (property : σ → Prop)
    (initially : ∀ state, system.init state → property state)
    (preserved : ∀ state label next, property state →
      system.step state label next → property next)
    {state : σ} (reachable : system.Reachable state) : property state := by
  obtain ⟨start, trace, initial, run⟩ := reachable
  exact run.preserves (initially start initial) preserved

/-- Every recorded step was taken. -/
theorem Run.taken {start finish : σ} {trace : List (σ × ℓ)}
    (run : system.Run start trace finish) {entry : σ × ℓ}
    (member : entry ∈ trace) : ∃ next, system.step entry.1 entry.2 next := by
  induction run with
  | refl => simp at member
  | snoc _ taken induction =>
      rcases List.mem_append.mp member with earlier | last
      · exact induction earlier
      · obtain rfl := List.mem_singleton.mp last
        exact ⟨_, taken⟩

theorem allMeet_append {condition : σ → ℓ → Prop}
    {first second : List (σ × ℓ)} :
    AllMeet condition (first ++ second) ↔
      AllMeet condition first ∧ AllMeet condition second := by
  simp [AllMeet, or_imp, forall_and]

theorem alwaysMeet_nil {condition : List (σ × ℓ) → σ → ℓ → Prop} :
    AlwaysMeet condition [] := by
  intro earlier state label later split
  cases earlier <;> cases split

theorem alwaysMeet_snoc {condition : List (σ × ℓ) → σ → ℓ → Prop}
    {trace : List (σ × ℓ)} {state : σ} {label : ℓ} :
    AlwaysMeet condition (trace ++ [(state, label)]) ↔
      AlwaysMeet condition trace ∧ condition trace state label := by
  constructor
  · intro always
    refine ⟨?_, always trace state label [] rfl⟩
    rintro earlier state' label' later rfl
    exact always earlier state' label' (later ++ [(state, label)]) (by simp)
  · rintro ⟨always, last⟩ earlier state' label' later split
    rcases List.eq_nil_or_concat later with rfl | ⟨before, entry, rfl⟩
    · obtain ⟨rfl, same⟩ := List.append_inj' split rfl
      obtain ⟨rfl, rfl⟩ := Prod.mk.inj (List.singleton_inj.mp same)
      exact last
    · rw [List.concat_eq_append, ← List.cons_append,
        ← List.append_assoc] at split
      exact always earlier state' label' before (List.append_inj' split rfl).1

/-- A trace whose steps pass a test of the condition meets it. -/
theorem alwaysMeet_of_test {condition : List (σ × ℓ) → σ → ℓ → Prop}
    {test : List (σ × ℓ) → σ × ℓ → Bool}
    (sound : ∀ earlier state label, test earlier (state, label) = true →
      condition earlier state label)
    {trace : List (σ × ℓ)} (tested : testAlong test [] trace = true) :
    AlwaysMeet condition trace := by
  have whole : ∀ earlier later, testAlong test earlier later = true →
      AlwaysMeet condition earlier →
      AlwaysMeet condition (earlier ++ later) := by
    intro earlier later tested before
    induction later generalizing earlier with
    | nil => rwa [List.append_nil]
    | cons entry later induction =>
        obtain ⟨state, label⟩ := entry
        obtain ⟨first, rest⟩ := (Bool.and_eq_true _ _).mp tested
        have extended := induction _ rest <|
          alwaysMeet_snoc.mpr ⟨before, sound _ _ _ first⟩
        rwa [List.append_assoc] at extended
  exact whole [] trace tested alwaysMeet_nil

/-- A run of the restricted system is a run whose steps all meet the
condition. -/
theorem run_restrict_iff {condition : σ → ℓ → Prop}
    {start finish : σ} {trace : List (σ × ℓ)} :
    (system.restrict condition).Run start trace finish ↔
      system.Run start trace finish ∧ AllMeet condition trace := by
  constructor
  · intro run
    induction run with
    | refl => exact ⟨.refl _, by simp [AllMeet]⟩
    | snoc _ taken induction =>
        refine ⟨induction.1.snoc taken.1, allMeet_append.mpr ⟨induction.2, ?_⟩⟩
        simpa [AllMeet] using taken.2
  · rintro ⟨run, meets⟩
    induction run with
    | refl => exact .refl _
    | snoc _ taken induction =>
        obtain ⟨earlier, last⟩ := allMeet_append.mp meets
        exact (induction earlier).snoc ⟨taken, by simpa [AllMeet] using last⟩

theorem reachable_of_restrict {condition : σ → ℓ → Prop} {state : σ}
    (reachable : (system.restrict condition).Reachable state) :
    system.Reachable state := by
  obtain ⟨start, trace, initial, run⟩ := reachable
  exact ⟨start, trace, initial, (run_restrict_iff.mp run).1⟩

end Lts

end Byteln.Library

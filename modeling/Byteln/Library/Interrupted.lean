import Mathlib.Data.List.Basic

/-!
# Reading from an interrupted stream

A reader takes items off a stream in which a pause may end its wait.  What an
interrupted read has taken by then is gone.  `Reads` says of a reader which
items it reads a value from, and that it takes all there is when they do not
all arrive.
-/

namespace Byteln.Library

/-- What a reader finds next: an item, or a pause that it does not outlast. -/
inductive Arrival (β : Type*) where
  | item (b : β)
  | pause
deriving DecidableEq

/-- The items that have arrived. -/
def arrived {β : Type*} (arrivals : List (Arrival β)) : List β :=
  arrivals.filterMap fun
    | .item b => some b
    | .pause => none

theorem arrived_append {β : Type*} (first second : List (Arrival β)) :
    arrived (first ++ second) = arrived first ++ arrived second :=
  List.filterMap_append

@[simp] theorem arrived_items {β : Type*} (items : List β)
    (arrivals : List (Arrival β)) :
    arrived (items.map .item ++ arrivals) = items ++ arrived arrivals := by
  induction items with
  | nil => rfl
  | cons b items induction => exact congrArg (b :: ·) induction

@[simp] theorem arrived_pause {β : Type*} (arrivals : List (Arrival β)) :
    arrived (.pause :: arrivals) = arrived arrivals := rfl

inductive ReadEnd (ε α : Type*) where
  | done (a : α)
  | failed (e : ε)
  | paused
  /-- For more than has arrived. -/
  | waiting

/-- What one read has taken, what it leaves, and how it has ended. -/
structure PartialRead (β ε α : Type*) where
  taken : List β
  rest : List (Arrival β)
  result : ReadEnd ε α

abbrev StreamReader (β ε α : Type*) := List (Arrival β) → PartialRead β ε α

namespace StreamReader

variable {β ε α γ : Type*}

def pure (a : α) : StreamReader β ε α :=
  fun arrivals => ⟨[], arrivals, .done a⟩

def fail (e : ε) : StreamReader β ε α :=
  fun arrivals => ⟨[], arrivals, .failed e⟩

/-- Give up without an answer. -/
def stuck : StreamReader β ε α :=
  fun arrivals => ⟨[], arrivals, .waiting⟩

def bind (p : StreamReader β ε α) (q : α → StreamReader β ε γ) :
    StreamReader β ε γ :=
  fun arrivals =>
    let first := p arrivals
    match first.result with
    | .done a =>
        let second := q a first.rest
        ⟨first.taken ++ second.taken, second.rest, second.result⟩
    | .failed e => ⟨first.taken, first.rest, .failed e⟩
    | .paused => ⟨first.taken, first.rest, .paused⟩
    | .waiting => ⟨first.taken, first.rest, .waiting⟩

/-- Read a number of items. -/
def readFull : Nat → StreamReader β ε (List β)
  | 0 => pure []
  | n + 1 => fun
      | [] => ⟨[], [], .waiting⟩
      | .pause :: arrivals => ⟨[], arrivals, .paused⟩
      | .item b :: arrivals =>
          let later := readFull n arrivals
          ⟨b :: later.taken, later.rest, match later.result with
            | .done bs => .done (b :: bs)
            | .failed e => .failed e
            | .paused => .paused
            | .waiting => .waiting⟩

theorem bind_done {p : StreamReader β ε α} (q : α → StreamReader β ε γ)
    {arrivals rest : List (Arrival β)} {taken : List β} {a : α}
    (first : p arrivals = ⟨taken, rest, .done a⟩) :
    p.bind q arrivals =
      ⟨taken ++ (q a rest).taken, (q a rest).rest, (q a rest).result⟩ := by
  simp only [bind, first]

/-- What the first part of a read takes is taken. -/
theorem taken_bind (p : StreamReader β ε α) (q : α → StreamReader β ε γ)
    (arrivals : List (Arrival β)) :
    (p arrivals).taken <+: (p.bind q arrivals).taken := by
  unfold bind
  dsimp only
  split
  · exact List.prefix_append _ _
  all_goals exact List.prefix_refl _

/-- A read that has an item takes it. -/
theorem taken_readFull (n : Nat) (b : β) (arrivals : List (Arrival β)) :
    ∃ later, (readFull (n + 1) (.item b :: arrivals) :
      PartialRead β ε (List β)).taken = b :: later :=
  ⟨_, rfl⟩

/-! ## Readers of one value -/

/-- Why a read does not go on: a pause, or nothing has arrived. -/
inductive Break (β : Type*) where
  | pause (rest : List (Arrival β))
  | nothing

def Break.arrivals : Break β → List (Arrival β)
  | .pause rest => .pause :: rest
  | .nothing => []

/-- A read that is broken off after it has taken some items. -/
def Break.leaves (taken : List β) : Break β → PartialRead β ε α
  | .pause rest => ⟨taken, rest, .paused⟩
  | .nothing => ⟨taken, [], .waiting⟩

theorem bind_broken {p : StreamReader β ε α} (q : α → StreamReader β ε γ)
    {arrivals : List (Arrival β)} {taken : List β} {stop : Break β}
    (first : p arrivals = stop.leaves taken) :
    p.bind q arrivals = stop.leaves taken := by
  cases stop with
  | pause rest => simp only [bind, first, Break.leaves]
  | nothing => simp only [bind, first, Break.leaves]

/-- A reader reads a value from certain items, and when it is broken off
earlier, it has taken all that was there.  A loop is only asked to do so for
fewer items than it has rounds. -/
structure Reads (p : StreamReader β ε α) (bound : Nat) (items : List β)
    (a : α) : Prop where
  whole : ∀ rest, items.length < bound →
    p (items.map .item ++ rest) = ⟨items, rest, .done a⟩
  broken : ∀ (before after : List β) (stop : Break β),
    before ++ after = items → after ≠ [] → before.length < bound →
    p (before.map .item ++ stop.arrivals) = stop.leaves before

theorem Reads.pure (bound : Nat) (a : α) :
    Reads (StreamReader.pure a : StreamReader β ε α) bound [] a where
  whole := fun _ _ => rfl
  broken := by
    intro before after _ split late
    exact absurd (List.append_eq_nil_iff.mp split).2 late

/-- Without a round there is nothing to read. -/
theorem Reads.zero (p : StreamReader β ε α) (items : List β) (a : α) :
    Reads p 0 items a where
  whole := by simp
  broken := by simp

/-- One reader after another.  The second one may have fewer rounds left, if
the first one takes something. -/
theorem Reads.bind {p : StreamReader β ε α} {q : α → StreamReader β ε γ}
    {bound left : Nat} {first second : List β} {a : α} {c : γ}
    (reads : Reads p bound first a) (goesOn : Reads (q a) left second c)
    (enough : bound ≤ left + first.length) :
    Reads (p.bind q) bound (first ++ second) c where
  whole := by
    intro rest short
    rw [List.length_append] at short
    rw [List.map_append, List.append_assoc,
      bind_done _ (reads.whole _ (by omega)), goesOn.whole rest (by omega)]
  broken := by
    have reached : ∀ (middle after : List β) (stop : Break β),
        middle ++ after = second → after ≠ [] →
        (first ++ middle).length < bound →
        p.bind q ((first ++ middle).map .item ++ stop.arrivals) =
          stop.leaves (first ++ middle) := by
      intro middle after stop split late short
      rw [List.length_append] at short
      rw [List.map_append, List.append_assoc,
        bind_done _ (reads.whole _ (by omega)),
        goesOn.broken middle after stop split late (by omega)]
      cases stop <;> rfl
    intro before after stop split late short
    rcases List.append_eq_append_iff.mp split with
      ⟨middle, firstEq, afterEq⟩ | ⟨middle, rfl, secondEq⟩
    · by_cases inside : middle = []
      · subst inside
        rw [List.append_nil] at firstEq
        subst firstEq
        have late := reached [] after stop afterEq late
        rw [List.append_nil] at late
        exact late short
      · exact bind_broken _
          (reads.broken before middle stop firstEq.symm inside short)
    · exact reached middle after stop secondEq.symm late short

theorem Reads.readFull (bound : Nat) (items : List β) :
    Reads (StreamReader.readFull items.length : StreamReader β ε (List β))
      bound items items where
  whole := by
    intro rest _
    induction items with
    | nil => rfl
    | cons b items induction =>
        have later := induction (by simp_all; omega)
        simp [StreamReader.readFull, later]
  broken := by
    intro before after stop split late _
    induction before generalizing items with
    | nil =>
        obtain rfl : after = items := split
        obtain ⟨b, items, rfl⟩ := List.exists_cons_of_ne_nil late
        cases stop <;> rfl
    | cons b before induction =>
        subst split
        have later := induction (before ++ after) rfl (by simp_all; omega)
        cases stop <;>
          simp_all [StreamReader.readFull, Break.leaves, Break.arrivals]

/-- What has arrived begins with all of these items, or breaks off among
them. -/
theorem exists_break (items : List β) {more : List β}
    {arrivals : List (Arrival β)} (fits : arrived arrivals <+: items ++ more) :
    (∃ rest, arrivals = items.map .item ++ rest) ∨
      ∃ before after stop, before ++ after = items ∧ after ≠ [] ∧
        arrivals = before.map .item ++ Break.arrivals stop := by
  induction items generalizing arrivals with
  | nil => exact .inl ⟨arrivals, rfl⟩
  | cons b items induction =>
      cases arrivals with
      | nil => exact .inr ⟨[], b :: items, .nothing, rfl, by simp, rfl⟩
      | cons arrival arrivals =>
          cases arrival with
          | pause =>
              exact .inr ⟨[], b :: items, .pause arrivals, rfl, by simp, rfl⟩
          | item other =>
              obtain ⟨rfl, later⟩ : other = b ∧
                  arrived arrivals <+: items ++ more :=
                List.cons_prefix_cons.mp fits
              rcases induction later with
                ⟨rest, rfl⟩ | ⟨before, after, stop, split, late, rfl⟩
              · exact .inl ⟨rest, rfl⟩
              · refine .inr ⟨other :: before, after, stop, ?_, late, rfl⟩
                rw [List.cons_append, split]

end StreamReader

end Byteln.Library

import Mathlib

/-!
# Buffering readers

Readers of a stream that arrives in pieces: a buffer in front of a reader, and
texts that are read before a reader.  However the stream is cut, what is read
is the stream.
-/

namespace Byteln.Library

section Buffering

variable {α : Type*}

/-! ## Readers -/

/-- What one read of the network delivers. -/
structure Segment (α : Type*) where
  items : List α
  some_ : items ≠ []

/-- The reads of the network to come. -/
abbrev Wire (α : Type*) := List (Segment α)

namespace Wire

def content (wire : Wire α) : List α :=
  wire.flatMap Segment.items

/-- Nothing is returned at the end of the stream. -/
def read (limit : ℕ) (wire : Wire α) : Option (List α) × Wire α :=
  match wire with
  | [] => if limit = 0 then (some [], []) else (none, [])
  | segment :: wire =>
      if fits : segment.items.length ≤ limit then (some segment.items, wire)
      else (some (segment.items.take limit),
        ⟨segment.items.drop limit, by
          rw [ne_eq, List.drop_eq_nil_iff]
          exact fits⟩ :: wire)

end Wire

/-- A reader: the network itself, a buffer in front of a reader, or a text
that is read before a reader. -/
inductive Source (α : Type*) where
  | wire
  | buffer (buffered : List α) (source : Source α)
  | multi (first : List α) (rest : Source α)

structure ReadResult (α : Type*) where
  items : Option (List α)
  source : Source α
  wire : Wire α

namespace Source

/-- One read of at most so many items.  A buffer is filled by one read of the
reader behind it, unless as much as it can hold is asked for. -/
def read (size : ℕ) : ℕ → Source α → Wire α → ReadResult α
  | limit, wire, network =>
      ⟨(network.read limit).1, wire, (network.read limit).2⟩
  | limit, buffer buffered source, network =>
      if limit = 0 then ⟨some [], buffer buffered source, network⟩
      else if buffered ≠ [] then
        ⟨some (buffered.take limit), buffer (buffered.drop limit) source,
          network⟩
      else if size ≤ limit then
        let next := source.read size limit network
        ⟨next.items, buffer [] next.source, next.wire⟩
      else
        let next := source.read size size network
        match next.items with
        | none => ⟨none, buffer [] next.source, next.wire⟩
        | some items =>
            ⟨some (items.take limit), buffer (items.drop limit) next.source,
              next.wire⟩
  | limit, multi first rest, network =>
      if first ≠ [] then
        ⟨some (first.take limit), multi (first.drop limit) rest, network⟩
      else
        let next := rest.read size limit network
        ⟨next.items, multi [] next.source, next.wire⟩

/-- What a reader holds. -/
def held : Source α → List α
  | wire => []
  | buffer buffered source => buffered ++ source.held
  | multi first rest => first ++ rest.held

/-- What is still to be read. -/
def content (source : Source α) (network : Wire α) : List α :=
  source.held ++ network.content

end Source

/-! ## What is read is the stream -/

/-- What one read of at most so many items makes of the items to come. -/
def IsRead (limit : ℕ) (before : List α) (items : Option (List α))
    (after : List α) : Prop :=
  match items with
  | none => before = [] ∧ after = []
  | some items =>
      before = items ++ after ∧ items.length ≤ limit ∧
        (0 < limit → items ≠ [])

theorem Wire.read_isRead (limit : ℕ) (wire : Wire α) :
    IsRead limit wire.content (wire.read limit).1
      (wire.read limit).2.content := by
  unfold Wire.read
  match wire with
  | [] =>
      dsimp only
      split
      · rename_i zero
        exact ⟨rfl, Nat.zero_le _, fun positive => by omega⟩
      · exact ⟨rfl, rfl⟩
  | segment :: wire =>
      dsimp only
      split
      · rename_i fits
        exact ⟨rfl, fits, fun _ => segment.some_⟩
      · rename_i more
        refine ⟨?_, List.length_take_le _ _, ?_⟩
        · unfold Wire.content
          rw [List.flatMap_cons, List.flatMap_cons, ← List.append_assoc,
            List.take_append_drop]
        · intro positive none_
          rw [List.take_eq_nil_iff] at none_
          rcases none_ with zero | empty
          · omega
          · exact segment.some_ empty

theorem isRead_take {limit : ℕ} {items : List α} (some_ : items ≠ [])
    (rest : List α) :
    IsRead limit (items ++ rest) (some (items.take limit))
      (items.drop limit ++ rest) := by
  refine ⟨?_, List.length_take_le _ _, ?_⟩
  · rw [← List.append_assoc, List.take_append_drop]
  · intro positive none_
    rw [List.take_eq_nil_iff] at none_
    rcases none_ with zero | empty
    · omega
    · exact some_ empty

namespace Source

theorem read_isRead {size : ℕ} (positive : 0 < size) (limit : ℕ)
    (source : Source α) (network : Wire α) :
    IsRead limit (source.content network) (source.read size limit network).items
      ((source.read size limit network).source.content
        (source.read size limit network).wire) := by
  unfold content
  induction source generalizing limit with
  | wire => exact network.read_isRead limit
  | buffer buffered source induction =>
      unfold read
      by_cases zero : limit = 0
      · rw [if_pos zero]
        exact ⟨rfl, Nat.zero_le _, fun positive => by omega⟩
      rw [if_neg zero]
      by_cases some_ : buffered ≠ []
      · rw [if_pos some_]
        unfold held
        rw [List.append_assoc, List.append_assoc]
        exact isRead_take some_ _
      rw [if_neg some_]
      rw [not_not] at some_
      rw [some_]
      split
      · exact induction limit
      · have next := induction size
        dsimp only
        cases read : (source.read size size network).items with
        | none =>
            rw [read] at next
            exact next
        | some items =>
            rw [read] at next
            obtain ⟨whole, -, filled⟩ := next
            dsimp only [held]
            rw [List.nil_append, whole, List.append_assoc]
            exact isRead_take (filled positive) _
  | multi first rest induction =>
      unfold read
      by_cases some_ : first ≠ []
      · rw [if_pos some_]
        unfold held
        rw [List.append_assoc, List.append_assoc]
        exact isRead_take some_ _
      · rw [if_neg some_]
        rw [not_not] at some_
        rw [some_]
        exact induction limit

/-- A series of reads, and the items that they return. -/
def readAll (size : ℕ) : List ℕ → Source α → Wire α → ReadResult α
  | [], source, network => ⟨some [], source, network⟩
  | limit :: limits, source, network =>
      let first := source.read size limit network
      let rest := readAll size limits first.source first.wire
      ⟨some (first.items.getD [] ++ rest.items.getD []), rest.source,
        rest.wire⟩

/-- Nothing is lost, read twice or out of its order. -/
theorem readAll_content {size : ℕ} (positive : 0 < size) (limits : List ℕ)
    (source : Source α) (network : Wire α) :
    source.content network =
      (source.readAll size limits network).items.getD [] ++
        (source.readAll size limits network).source.content
          (source.readAll size limits network).wire := by
  induction limits generalizing source network with
  | nil => rfl
  | cons limit limits induction =>
      have first := source.read_isRead positive limit network
      have rest := induction (source.read size limit network).source
        (source.read size limit network).wire
      unfold readAll
      dsimp only [Option.getD_some]
      cases read : (source.read size limit network).items with
      | none =>
          rw [read] at first
          obtain ⟨empty, empty'⟩ := first
          rw [Option.getD_none, List.nil_append, ← rest, empty, empty']
      | some items =>
          rw [read] at first
          rw [Option.getD_some, List.append_assoc, ← rest]
          exact first.1

end Source

/-! ## ReadResult up to a delimiter -/

/-- A buffer with the reader behind it. -/
structure Buffering (α : Type*) where
  buffered : List α
  source : Source α
  wire : Wire α

namespace Buffering

def rest (b : Buffering α) : List α :=
  b.source.content b.wire

def content (b : Buffering α) : List α :=
  b.buffered ++ b.rest

/-- One read of the reader behind into the room that is left. -/
def fill (size : ℕ) (b : Buffering α) : Option (Buffering α) :=
  let next := b.source.read size (size - b.buffered.length) b.wire
  next.items.map fun items => ⟨b.buffered ++ items, next.source, next.wire⟩

section Fill

variable {size : ℕ} {b b' : Buffering α}

theorem fill_eq_none (positive : 0 < size) (none_ : b.fill size = none) :
    b.content = b.buffered := by
  have whole := b.source.read_isRead positive (size - b.buffered.length)
    b.wire
  unfold fill at none_
  rw [Option.map_eq_none_iff] at none_
  rw [none_] at whole
  unfold content rest
  rw [whole.1, List.append_nil]

theorem fill_eq_some (positive : 0 < size) (room : b.buffered.length < size)
    (filled : b.fill size = some b') :
    b'.content = b.content ∧ b'.rest.length < b.rest.length := by
  have whole := b.source.read_isRead positive (size - b.buffered.length)
    b.wire
  unfold fill at filled
  rw [Option.map_eq_some_iff] at filled
  obtain ⟨items, read, rfl⟩ := filled
  rw [read] at whole
  obtain ⟨same, -, some_⟩ := whole
  have more := List.length_pos_iff.mpr (some_ (by omega))
  unfold content rest
  rw [same]
  constructor
  · rw [List.append_assoc]
  · rw [List.length_append]
    dsimp only
    omega

end Fill

variable [DecidableEq α]

/-- What stands up to the delimiter, and what has been taken from a full
buffer before; nothing is returned when the stream ends without one. -/
def readString (size : ℕ) [NeZero size] (delim : α) (taken : List α)
    (b : Buffering α) : Option (List α × Buffering α) :=
  if delim ∈ b.buffered then
    some (taken ++ (b.buffered.takeWhile (fun a => a ≠ delim) ++ [delim]),
      { b with
        buffered := (b.buffered.dropWhile fun a => a ≠ delim).tail })
  else if _ : size ≤ b.buffered.length then
    readString size delim (taken ++ b.buffered) { b with buffered := [] }
  else
    match _ : b.fill size with
    | none => none
    | some filled => readString size delim taken filled
termination_by (b.rest.length, b.buffered.length)
decreasing_by
  · apply Prod.Lex.right
    have positive := Nat.pos_of_neZero size
    simp only [List.length_nil]
    omega
  · apply Prod.Lex.left
    apply (fill_eq_some (Nat.pos_of_neZero size) (by omega) _).2
    assumption

section ReadString

variable {size : ℕ} [NeZero size] {delim : α}

theorem parted_at {l : List α} (found : delim ∈ l) :
    l = l.takeWhile (fun a => a ≠ delim) ++
        delim :: (l.dropWhile fun a => a ≠ delim).tail ∧
      delim ∉ l.takeWhile fun a => a ≠ delim := by
  constructor
  · cases rest : l.dropWhile fun a => a ≠ delim with
    | nil =>
        have all := List.dropWhile_eq_nil_iff.mp rest delim found
        simp at all
    | cons a more =>
        have first := List.head?_dropWhile_not (fun a => a ≠ delim) l
        rw [rest] at first
        have same : a = delim := by simpa using first
        rw [List.tail_cons, ← same]
        have whole := List.takeWhile_append_dropWhile
          (p := fun a => a ≠ delim) (l := l)
        rw [rest] at whole
        simpa only [same] using whole.symm
  · intro member
    have apart := List.mem_takeWhile_imp member
    simp at apart

theorem content_of_readString {taken line : List α} {b b' : Buffering α}
    (read : readString size delim taken b = some (line, b')) :
    ∃ before, line = taken ++ (before ++ [delim]) ∧ delim ∉ before ∧
      b.content = before ++ delim :: b'.content := by
  induction taken, b using readString.induct size delim with
  | case1 taken b found =>
      rw [readString, if_pos found, Option.some.injEq, Prod.mk.injEq] at read
      obtain ⟨rfl, rfl⟩ := read
      obtain ⟨whole, apart⟩ := parted_at found
      refine ⟨_, rfl, apart, ?_⟩
      unfold content rest
      rw [← List.cons_append, ← List.append_assoc, ← whole]
  | case2 taken b missing full induction =>
      rw [readString, if_neg missing, dif_pos full] at read
      obtain ⟨before, rfl, apart, whole⟩ := induction read
      refine ⟨b.buffered ++ before, by simp, ?_, ?_⟩
      · rw [List.mem_append, not_or]
        exact ⟨missing, apart⟩
      · rw [List.append_assoc, ← whole]
        rfl
  | case3 taken b missing room none_ =>
      rw [readString, if_neg missing, dif_neg room] at read
      split at read
      · cases read
      · rename_i filled
        rw [filled] at none_
        cases none_
  | case4 taken b missing room filled some_ induction =>
      rw [readString, if_neg missing, dif_neg room] at read
      split at read
      · cases read
      · rename_i filled' same
        rw [same, Option.some.injEq] at some_
        rw [some_] at read
        obtain ⟨before, rfl, apart, whole⟩ := induction read
        have kept := (fill_eq_some (Nat.pos_of_neZero size)
          (Nat.lt_of_not_le room) same).1
        refine ⟨before, rfl, apart, ?_⟩
        rw [← kept, some_, whole]

/-- A delimiter that arrives is found. -/
theorem readString_isSome {taken : List α} {b : Buffering α}
    (arrives : delim ∈ b.content) :
    (readString size delim taken b).isSome = true := by
  induction taken, b using readString.induct size delim with
  | case1 taken b found =>
      rw [readString, if_pos found]
      rfl
  | case2 taken b missing full induction =>
      rw [readString, if_neg missing, dif_pos full]
      apply induction
      unfold content at arrives ⊢
      rw [List.mem_append] at arrives
      exact arrives.resolve_left missing
  | case3 taken b missing room none_ =>
      rw [fill_eq_none (Nat.pos_of_neZero size) none_] at arrives
      exact absurd arrives missing
  | case4 taken b missing room filled some_ induction =>
      rw [readString, if_neg missing, dif_neg room]
      split
      · rename_i none_
        rw [none_] at some_
        cases some_
      · rename_i filled' same
        rw [same, Option.some.injEq] at some_
        rw [some_]
        apply induction
        rw [← some_, (fill_eq_some (Nat.pos_of_neZero size)
          (Nat.lt_of_not_le room) same).1]
        exact arrives

/-- A line that stands in front of a reader is read without the reader. -/
theorem readString_multi {taken before : List α} {b : Buffering α}
    {first left : List α} {source : Source α}
    (multi : b.source = .multi first source) (apart : delim ∉ before)
    (whole : b.buffered ++ first = before ++ delim :: left) :
    ∃ buffered first', readString size delim taken b =
        some (taken ++ (before ++ [delim]),
          ⟨buffered, .multi first' source, b.wire⟩) ∧
      buffered ++ first' = left := by
  induction taken, b using readString.induct size delim
    generalizing before first with
  | case1 taken b found =>
      obtain ⟨here, apart'⟩ := parted_at found
      have same : before = b.buffered.takeWhile (fun a => a ≠ delim) ∧
          left = (b.buffered.dropWhile fun a => a ≠ delim).tail ++ first := by
        rw [here, List.append_assoc, List.cons_append] at whole
        have lengths : before.length =
            (b.buffered.takeWhile fun a => a ≠ delim).length := by
          have start := List.append_eq_append_iff.mp whole
          rcases start with ⟨more, longer, rest⟩ | ⟨more, longer, rest⟩
          · cases more with
            | nil => exact congrArg List.length (by simpa using longer)
            | cons a more =>
                rw [List.cons_append, List.cons.injEq] at rest
                rw [longer, ← rest.1] at apart
                exact absurd (by simp) apart
          · cases more with
            | nil =>
                rw [List.append_nil] at longer
                rw [longer]
            | cons a more =>
                rw [List.cons_append, List.cons.injEq] at rest
                rw [longer, ← rest.1] at apart'
                exact absurd (by simp) apart'
        obtain ⟨same, rest⟩ := List.append_inj whole lengths.symm
        exact ⟨same.symm, (List.cons.inj rest).2.symm⟩
      rw [readString, if_pos found, same.1]
      exact ⟨_, first, by rw [multi], same.2.symm⟩
  | case2 taken b missing full induction =>
      have starts : ∃ rest, before = b.buffered ++ rest ∧
          first = rest ++ delim :: left := by
        rcases List.append_eq_append_iff.mp whole with
          ⟨more, longer, rest⟩ | ⟨more, longer, rest⟩
        · exact ⟨more, longer, rest⟩
        · cases more with
          | nil => exact ⟨[], by simp [longer], by simpa using rest.symm⟩
          | cons a more =>
              rw [List.cons_append, List.cons.injEq] at rest
              rw [longer, ← rest.1] at missing
              exact absurd (by simp) missing
      obtain ⟨rest, rfl, later⟩ := starts
      rw [List.mem_append, not_or] at apart
      obtain ⟨buffered, first', read, same⟩ := induction multi apart.2
        (by rw [later]; rfl)
      refine ⟨buffered, first', ?_, same⟩
      rw [readString, if_neg missing, dif_pos full, read]
      simp
  | case3 taken b missing room none_ =>
      have some_ : first ≠ [] := by
        rintro rfl
        rw [List.append_nil] at whole
        rw [whole] at missing
        exact missing (by simp)
      unfold fill at none_
      rw [multi, Source.read, if_pos some_] at none_
      cases none_
  | case4 taken b missing room filled some_ induction =>
      have more : first ≠ [] := by
        rintro rfl
        rw [List.append_nil] at whole
        rw [whole] at missing
        exact missing (by simp)
      have kept := some_
      unfold fill at kept
      rw [multi, Source.read, if_pos more] at kept
      obtain rfl := Option.some.inj kept
      obtain ⟨buffered, first', read, same⟩ := induction rfl apart (by
        rw [List.append_assoc, List.take_append_drop, whole])
      refine ⟨buffered, first', ?_, same⟩
      rw [readString, if_neg missing, dif_neg room]
      split
      · rename_i none_
        rw [none_] at some_
        cases some_
      · rename_i filled' equal
        rw [equal, Option.some.injEq] at some_
        rw [some_]
        exact read

end ReadString

end Buffering

end Buffering

end Byteln.Library

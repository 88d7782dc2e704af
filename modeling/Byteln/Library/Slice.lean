import Mathlib.Data.List.Basic
import Mathlib.Data.List.Infix

/-!
# Slices and their longest suffixes

A slice is a window of a backing array, which other slices may share.  What is
dropped from its front stays in the array; what is appended goes into the cell
behind the window when there is one, and into a new array otherwise.  Filtering
in place writes the elements that stay over the first cells of the window while
a second index reads the rest.
-/

namespace Byteln.Library

variable {α : Type*}

/-- The longest suffix of a list that has a property. -/
structure IsLongestSuffix (P : List α → Prop) (items kept : List α) :
    Prop where
  isSuffix : kept <:+ items
  holds : P kept
  longest : ∀ other, other <:+ items → P other → other <:+ kept

namespace IsLongestSuffix

variable {P : List α → Prop} {items kept kept' : List α}

theorem self (holds : P items) : IsLongestSuffix P items items :=
  ⟨List.suffix_refl items, holds, fun _ within _ => within⟩

/-- The first element has to go. -/
theorem cons {item : α} (fails : ¬P (item :: items))
    (rest : IsLongestSuffix P items kept) :
    IsLongestSuffix P (item :: items) kept := by
  refine ⟨rest.isSuffix.trans (List.suffix_cons item items), rest.holds, ?_⟩
  intro other within holds
  rcases List.suffix_cons_iff.mp within with rfl | inside
  · exact absurd holds fails
  · exact rest.longest other inside holds

theorem unique (first : IsLongestSuffix P items kept)
    (second : IsLongestSuffix P items kept') : kept = kept' := by
  have below := second.longest kept first.isSuffix first.holds
  have above := first.longest kept' second.isSuffix second.holds
  exact below.eq_of_length (Nat.le_antisymm below.length_le above.length_le)

end IsLongestSuffix

/-! ## Slices -/

/-- `len` cells of an array, from `start` on. -/
structure Slice (α : Type*) where
  backing : List α
  start : Nat
  len : Nat
  fits : start + len ≤ backing.length

namespace Slice

def toList (slice : Slice α) : List α :=
  (slice.backing.drop slice.start).take slice.len

@[simp] theorem length_toList (slice : Slice α) :
    slice.toList.length = slice.len := by
  have fits := slice.fits
  simp only [toList, List.length_take, List.length_drop]
  omega

/-- `slice[1:]`. -/
def rest (slice : Slice α) (occupied : slice.len ≠ 0) : Slice α where
  backing := slice.backing
  start := slice.start + 1
  len := slice.len - 1
  fits := by
    have fits := slice.fits
    omega

theorem toList_rest (slice : Slice α) (occupied : slice.len ≠ 0) :
    (slice.rest occupied).toList = slice.toList.tail := by
  obtain ⟨backing, start, len, fits⟩ := slice
  cases len with
  | zero => exact absurd rfl occupied
  | succ len =>
      have bound : start < backing.length := by omega
      simp only [rest, toList, Nat.add_sub_cancel]
      rw [List.drop_eq_getElem_cons bound, List.take_succ_cons, List.tail_cons]

/-- `append` of one element.  A new array has some spare cells. -/
def append (slice : Slice α) (item : α) (spare : List α) : Slice α :=
  if room : slice.start + slice.len < slice.backing.length then
    { backing := slice.backing.set (slice.start + slice.len) item
      start := slice.start
      len := slice.len + 1
      fits := by
        rw [List.length_set]
        exact room }
  else
    { backing := slice.toList ++ item :: spare
      start := 0
      len := slice.len + 1
      fits := by
        simp only [List.length_append, length_toList, List.length_cons]
        omega }

/-- Writing the cell behind some cells of a window. -/
theorem take_drop_set {backing : List α} {start written : Nat} {item : α}
    (room : start + written < backing.length) :
    ((backing.set (start + written) item).drop start).take (written + 1) =
      (backing.drop start).take written ++ [item] := by
  have inside : written < (backing.drop start).length := by
    rw [List.length_drop]
    omega
  have before : ¬start + written < start := by omega
  rw [List.drop_set, if_neg before, Nat.add_sub_cancel_left, List.take_add_one,
    List.getElem?_set_self inside, List.take_set_of_le le_rfl]
  rfl

theorem toList_append (slice : Slice α) (item : α) (spare : List α) :
    (slice.append item spare).toList = slice.toList ++ [item] := by
  unfold append
  split
  · rename_i room
    exact take_drop_set room
  · have whole : (slice.toList ++ item :: spare) =
        (slice.toList ++ [item]) ++ spare := by simp
    simp only [toList, List.drop_zero]
    exact whole ▸ List.take_left' (by simp)

/-- The loop over a window that starts at `start`: `index` cells have been
read, and the ones that stay were written over the first `written` cells. -/
def compactLoop (keep : α → Bool) (start : Nat) :
    Nat → Nat → Nat → List α → List α × Nat
  | 0, _, written, backing => (backing, written)
  | remaining + 1, index, written, backing =>
      match backing[start + index]? with
      | none => (backing, written)
      | some item =>
          if keep item then
            compactLoop keep start remaining (index + 1) (written + 1)
              (backing.set (start + written) item)
          else
            compactLoop keep start remaining (index + 1) written backing

/-- The loop appends what stays of the cells that it still has to read. -/
theorem compactLoop_spec (keep : α → Bool)
    (start remaining index written : Nat) (backing : List α)
    (behind : written ≤ index)
    (fits : start + index + remaining ≤ backing.length) :
    let (after, count) :=
      compactLoop keep start remaining index written backing
    after.length = backing.length ∧ count ≤ written + remaining ∧
      (after.drop start).take count =
        (backing.drop start).take written ++
          ((backing.drop (start + index)).take remaining).filter keep := by
  induction remaining generalizing index written backing with
  | zero => simp [compactLoop]
  | succ remaining induction =>
      have inside : start + index < backing.length := by omega
      unfold compactLoop
      rw [List.getElem?_eq_getElem inside]
      dsimp only
      rw [List.drop_eq_getElem_cons inside, List.take_succ_cons]
      split
      · rename_i stays
        have room : start + written < backing.length := by omega
        obtain ⟨same, bound, contents⟩ := induction (index + 1) (written + 1)
          (backing.set (start + written) backing[start + index])
          (Nat.succ_le_succ behind) (by rw [List.length_set]; omega)
        have unread : (backing.set (start + written)
            backing[start + index]).drop (start + (index + 1)) =
              backing.drop (start + index + 1) :=
          List.drop_set_of_lt (by omega)
        refine ⟨same.trans List.length_set, by omega, ?_⟩
        rw [contents, unread, take_drop_set room, List.filter_cons_of_pos stays,
          List.append_assoc]
        rfl
      · rename_i goes
        obtain ⟨same, bound, contents⟩ := induction (index + 1) written
          backing (Nat.le_succ_of_le behind) (by omega)
        refine ⟨same, by omega, ?_⟩
        rw [contents, List.filter_cons_of_neg goes]
        rfl

/-- Filter a slice in place: `dst := slice[:0]`, and every element that stays
is appended to `dst`. -/
def compact (keep : α → Bool) (slice : Slice α) : Slice α :=
  have spec := compactLoop_spec keep slice.start slice.len 0 0 slice.backing
    le_rfl slice.fits
  { backing := (compactLoop keep slice.start slice.len 0 0 slice.backing).1
    start := slice.start
    len := (compactLoop keep slice.start slice.len 0 0 slice.backing).2
    fits := by
      obtain ⟨same, bound, -⟩ := spec
      have fits := slice.fits
      omega }

theorem toList_compact (keep : α → Bool) (slice : Slice α) :
    (slice.compact keep).toList = slice.toList.filter keep := by
  obtain ⟨-, -, contents⟩ := compactLoop_spec keep slice.start slice.len 0 0
    slice.backing le_rfl slice.fits
  exact contents

end Slice

end Byteln.Library

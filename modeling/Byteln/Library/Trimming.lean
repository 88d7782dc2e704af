import Mathlib.Data.List.DropRight
import Mathlib.Data.List.Infix

/-!
# Trimming

Lists without the elements at their two ends that meet a condition, and the
pieces of a list that is split.
-/

namespace Byteln.Library

section Trimming

variable {α : Type*} (p : α → Bool)

def trimBy (l : List α) : List α :=
  (l.dropWhile p).rdropWhile p

/-- Neither end meets the condition. -/
def CleanEnds (l : List α) : Prop :=
  (∀ a, l.head? = some a → p a = false) ∧
    ∀ a, l.getLast? = some a → p a = false

variable {p} {l : List α}

theorem trimBy_infix : trimBy p l <:+: l :=
  (List.rdropWhile_prefix p _).isInfix.trans
    (List.dropWhile_suffix p).isInfix

theorem head?_trimBy {a : α} (head : (trimBy p l).head? = some a) :
    (l.dropWhile p).head? = some a := by
  obtain ⟨rest, whole⟩ := List.rdropWhile_prefix p (l.dropWhile p)
  rw [← whole, List.head?_append, show
    ((l.dropWhile p).rdropWhile p).head? = some a from head]
  rfl

theorem trimBy_cleanEnds (l : List α) : CleanEnds p (trimBy p l) := by
  constructor
  · intro a head
    have first := List.head?_dropWhile_not p l
    rw [head?_trimBy head] at first
    exact first
  · intro a last
    have first := List.head?_dropWhile_not p (l.dropWhile p).reverse
    unfold trimBy List.rdropWhile at last
    rw [List.getLast?_reverse] at last
    rw [last] at first
    exact first

theorem dropWhile_eq_self {l : List α}
    (clean : ∀ a, l.head? = some a → p a = false) : l.dropWhile p = l := by
  cases l with
  | nil => rfl
  | cons a l => exact List.dropWhile_cons_of_neg (by simp [clean a rfl])

/-- What has clean ends is left alone. -/
theorem trimBy_eq_self (clean : CleanEnds p l) : trimBy p l = l := by
  unfold trimBy List.rdropWhile
  rw [dropWhile_eq_self clean.1, dropWhile_eq_self ?_, List.reverse_reverse]
  intro a head
  rw [List.head?_reverse] at head
  exact clean.2 a head

/-- No separator is in the last piece. -/
theorem mem_getLast_splitOnP {a : α} {piece : List α}
    (last : (l.splitOnP p).getLast? = some piece) (member : a ∈ piece) :
    a ∈ l ∧ p a = false := by
  induction l generalizing piece with
  | nil =>
      rw [List.splitOnP_nil] at last
      obtain rfl := Option.some.inj last
      cases member
  | cons b l induction =>
      obtain ⟨first, pieces, split⟩ :=
        List.exists_cons_of_ne_nil (@List.splitOnP_ne_nil _ p l)
      rw [List.splitOnP_cons_eq_if_modifyHead] at last
      rw [split] at last induction
      by_cases separates : p b
      · rw [if_pos separates, List.getLast?_cons_cons] at last
        obtain ⟨inside, apart⟩ := induction last member
        exact ⟨List.mem_cons_of_mem b inside, apart⟩
      · rw [if_neg separates, List.modifyHead_cons] at last
        cases pieces with
        | nil =>
            obtain rfl := Option.some.inj last
            rcases List.mem_cons.mp member with rfl | member
            · exact ⟨List.mem_cons_self, by simpa using separates⟩
            · obtain ⟨inside, apart⟩ := induction rfl member
              exact ⟨List.mem_cons_of_mem b inside, apart⟩
        | cons second pieces =>
            rw [List.getLast?_cons_cons] at last
            obtain ⟨inside, apart⟩ := induction
              (by rw [List.getLast?_cons_cons]; exact last) member
            exact ⟨List.mem_cons_of_mem b inside, apart⟩

end Trimming

section

variable {α : Type*} [BEq α] [LawfulBEq α]

/-- The pieces of joined lists are the pieces of each of them. -/
theorem splitOn_joined (separator : α) {lists : List (List α)}
    (some_ : lists ≠ []) :
    ([separator].intercalate lists).splitOn separator =
      lists.flatMap fun l => l.splitOn separator := by
  induction lists with
  | nil => exact absurd rfl some_
  | cons l lists induction =>
      cases lists with
      | nil =>
          rw [List.intercalate_singleton, List.flatMap_singleton]
      | cons l' lists =>
          rw [List.intercalate_cons_cons, List.append_assoc,
            List.singleton_append, List.splitOn_append_cons_self,
            induction (List.cons_ne_nil _ _)]
          rfl

end

end Byteln.Library

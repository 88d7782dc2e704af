import Byteln.Library.Interrupted

/-!
# Records in a stream

A reader of one record reads a stream of records, as far as it has arrived.
-/

namespace Byteln.Library

namespace StreamReader

variable {β ε α : Type*}

/-- Read one record after another, until one is not there. -/
def collect (p : StreamReader β ε α) : Nat → List (Arrival β) → List α
  | 0, _ => []
  | rounds + 1, arrivals =>
      match (p arrivals).result with
      | .done a => a :: p.collect rounds (p arrivals).rest
      | _ => []

variable {p : StreamReader β ε α} {encode : α → List β}

theorem collect_broken {items after : List β} {a : α}
    (reads : ∀ bound, Reads p bound (encode a) a)
    (split : items ++ after = encode a) (late : after ≠ []) (rounds : Nat) :
    p.collect rounds (items.map .item) = [] := by
  have stopped := (reads (items.length + 1)).broken items after .nothing split
    late (Nat.lt_succ_self _)
  simp only [Break.arrivals, List.append_nil, Break.leaves] at stopped
  cases rounds with
  | zero => rfl
  | succ rounds => simp only [collect, stopped]

theorem collect_whole {a : α} (reads : ∀ bound, Reads p bound (encode a) a)
    (items : List β) (rounds : Nat) :
    p.collect (rounds + 1) ((encode a ++ items).map .item) =
      a :: p.collect rounds (items.map .item) := by
  have read := (reads ((encode a).length + 1)).whole (items.map .item)
    (Nat.lt_succ_self _)
  rw [List.map_append]
  simp only [collect, read]

/-- From the beginning of a stream of records, exactly those are read that
have arrived as a whole. -/
theorem collect_prefix {records : List α}
    (reads : ∀ a ∈ records, ∀ bound, Reads p bound (encode a) a)
    (nonempty : ∀ a ∈ records, encode a ≠ [])
    (waits : (p []).result = .waiting) {items : List β}
    (fits : items <+: records.flatMap encode) {rounds : Nat}
    (enough : items.length < rounds) :
    ∃ n, p.collect rounds (items.map .item) = records.take n ∧
      (records.take n).flatMap encode <+: items ∧
      (n < records.length →
        items.length < ((records.take (n + 1)).flatMap encode).length) := by
  induction records generalizing items rounds with
  | nil =>
      obtain rfl : items = [] := List.prefix_nil.mp fits
      obtain ⟨rounds, rfl⟩ := Nat.exists_eq_succ_of_ne_zero
        (Nat.ne_of_gt enough)
      refine ⟨0, ?_, List.nil_prefix, by simp⟩
      simp only [List.map_nil, collect, waits, List.take_nil]
  | cons a records induction =>
      obtain ⟨tail, whole⟩ := fits
      rw [List.flatMap_cons] at whole
      by_cases arrived : encode a <+: items
      · obtain ⟨later, rfl⟩ := arrived
        rw [List.append_assoc, List.append_cancel_left_eq] at whole
        have some_ := List.length_pos_of_ne_nil
          (nonempty a List.mem_cons_self)
        rw [List.length_append] at enough
        obtain ⟨rounds, rfl⟩ : ∃ left, rounds = left + 1 :=
          ⟨rounds - 1, by omega⟩
        obtain ⟨n, collected, before, broken⟩ := induction
          (fun b member => reads b (List.mem_cons_of_mem a member))
          (fun b member => nonempty b (List.mem_cons_of_mem a member))
          ⟨tail, whole⟩ (by omega : later.length < rounds)
        refine ⟨n + 1, ?_, ?_, fun more => ?_⟩
        · rw [collect_whole (reads a List.mem_cons_self), collected,
            List.take_succ_cons]
        · rw [List.take_succ_cons, List.flatMap_cons]
          exact (List.prefix_append_right_inj _).mpr before
        · have rest := broken (Nat.lt_of_succ_lt_succ more)
          rw [List.take_succ_cons, List.flatMap_cons, List.length_append,
            List.length_append]
          omega
      · rcases List.append_eq_append_iff.mp whole with
          ⟨after, encoded, -⟩ | ⟨later, rfl, -⟩
        · have late : after ≠ [] := by
            rintro rfl
            rw [List.append_nil] at encoded
            exact arrived (encoded ▸ List.prefix_refl _)
          refine ⟨0, collect_broken (reads a List.mem_cons_self)
            encoded.symm late rounds, List.nil_prefix, fun _ => ?_⟩
          have some_ := List.length_pos_of_ne_nil late
          rw [List.take_succ_cons, List.take_zero, List.flatMap_cons,
            List.flatMap_nil, List.append_nil, encoded, List.length_append]
          omega
        · exact absurd (List.prefix_append _ _) arrived

/-- Nothing of a stream is left out that is not longer than what is taken of
it. -/
theorem take_eq_of_broken {records : List α} {n : Nat}
    (broken : n < records.length → (records.flatMap encode).length <
      ((records.take (n + 1)).flatMap encode).length) :
    records.take n = records := by
  apply List.take_of_length_le
  by_contra more
  have longer := broken (Nat.lt_of_not_le more)
  have short : ((records.take (n + 1)).flatMap encode).length ≤
      (records.flatMap encode).length := by
    conv_rhs => rw [← List.take_append_drop (n + 1) records]
    rw [List.flatMap_append, List.length_append]
    exact Nat.le_add_right _ _
  omega

end StreamReader

end Byteln.Library

import Byteln.Client.Base64Url
import Byteln.Client.HistorySync
import Byteln.Library.CodePoints
import Byteln.Library.Trimming

/-!
# Digests of histories

Two devices compare the ids of their messages by a hash of the sorted ids,
joined with line breaks.  The hash tells apart what differs line by line, and
ids may hold line breaks themselves.
-/

namespace Byteln.Client

open Byteln.Library

/-! ## The digest -/

/-- `sorted.join('\n')`. -/
def joinIds (sorted : List JSString) : JSString :=
  [0x0a].intercalate sorted

def computeIdHash (sha256 : List UInt8 → List UInt8) (ids : List JSString) :
    JSString :=
  bytesToBase64Url (sha256 (textEncode (joinIds (sortMessageIds ids))))

/-! ## Lines -/

/-- The lines of the sorted ids, as code points.  A lone surrogate reads as
the replacement character. -/
def linesOf (ids : List JSString) : List (List Nat) :=
  (sortMessageIds ids).flatMap fun id => (codePoints id).splitOn 0x0a

/-- An id of one line, without lone surrogates. -/
def IsPlainId (id : JSString) : Prop :=
  0x0a ∉ id ∧ isWellFormed id = true

theorem perm_sortMessageIds (ids : List JSString) :
    (sortMessageIds ids).Perm ids :=
  List.perm_insertionSort _ ids

theorem sortMessageIds_eq_iff {a b : List JSString} :
    sortMessageIds a = sortMessageIds b ↔ a.Perm b := by
  constructor
  · intro same
    exact (perm_sortMessageIds a).symm.trans
      (same ▸ perm_sortMessageIds b)
  · intro perm
    have sorted : ∀ ids : List JSString,
        (sortMessageIds ids).Pairwise fun x y => x ≤ y := fun ids =>
      List.pairwise_insertionSort _ ids
    apply List.Perm.eq_of_pairwise _ (sorted a) (sorted b)
    · exact (perm_sortMessageIds a).trans
        (perm.trans (perm_sortMessageIds b).symm)
    · intro x y _ _ le ge
      exact List.le_antisymm le ge

theorem codePoints_joinIds (ids : List JSString) :
    codePoints (joinIds ids) = [0x0a].intercalate (ids.map codePoints) := by
  unfold joinIds
  induction ids with
  | nil => rfl
  | cons id ids induction =>
      cases ids with
      | nil => simp
      | cons id' ids =>
          rw [List.intercalate_cons_cons, List.append_assoc,
            List.singleton_append,
            codePoints_append_cons (by decide) (by decide), induction]
          simp

theorem splitOn_joinIds {ids : List JSString} (some_ : ids ≠ []) :
    (codePoints (joinIds ids)).splitOn 0x0a =
      ids.flatMap fun id => (codePoints id).splitOn 0x0a := by
  rw [codePoints_joinIds, splitOn_joined _ (by simpa using some_),
    List.flatMap_map]

theorem codePoints_ne_nil {id : JSString} (some_ : id ≠ []) :
    codePoints id ≠ [] := by
  intro empty
  apply textEncode_ne_nil some_
  rw [textEncode, empty]
  rfl

theorem joinIds_ne_nil {ids : List JSString} (some_ : ids ≠ [])
    (named : ∀ id ∈ ids, id ≠ []) : joinIds ids ≠ [] := by
  intro empty
  cases ids with
  | nil => exact some_ rfl
  | cons id ids =>
      have first := named id List.mem_cons_self
      unfold joinIds at empty
      cases ids with
      | nil =>
          rw [List.intercalate_singleton] at empty
          exact first empty
      | cons id' ids =>
          rw [List.intercalate_cons_cons, List.append_assoc,
            List.append_eq_nil_iff] at empty
          exact first empty.1

theorem flatMap_splitOn_ne_nil {ids : List JSString} (some_ : ids ≠ []) :
    (ids.flatMap fun id => (codePoints id).splitOn 0x0a) ≠ [] := by
  intro empty
  obtain ⟨id, rest, rfl⟩ := List.exists_cons_of_ne_nil some_
  rw [List.flatMap_cons, List.append_eq_nil_iff] at empty
  exact List.splitOn_ne_nil _ _ empty.1

/-- Sorted ids are encoded alike when they read alike line by line. -/
theorem textEncode_joinIds_iff {a b : List JSString}
    (named : ∀ id ∈ a, id ≠ []) (named' : ∀ id ∈ b, id ≠ []) :
    textEncode (joinIds a) = textEncode (joinIds b) ↔
      (a.flatMap fun id => (codePoints id).splitOn 0x0a) =
        b.flatMap fun id => (codePoints id).splitOn 0x0a := by
  rw [textEncode_eq_iff]
  by_cases none_ : a = []
  · by_cases none' : b = []
    · rw [none_, none']
      exact iff_of_true rfl rfl
    · have text := codePoints_ne_nil (joinIds_ne_nil none' named')
      have lines := flatMap_splitOn_ne_nil none'
      rw [none_]
      exact iff_of_false text.symm lines.symm
  · by_cases none' : b = []
    · have text := codePoints_ne_nil (joinIds_ne_nil none_ named)
      have lines := flatMap_splitOn_ne_nil none_
      rw [none']
      exact iff_of_false text lines
    · rw [← splitOn_joinIds none_, ← splitOn_joinIds none']
      constructor
      · intro same
        rw [same]
      · intro same
        have joined := congrArg [0x0a].intercalate same
        rwa [List.intercalate_splitOn, List.intercalate_splitOn] at joined

theorem computeIdHash_eq_iff {sha256 : List UInt8 → List UInt8}
    (injective : Function.Injective sha256) {a b : List JSString}
    (named : ∀ id ∈ a, id ≠ []) (named' : ∀ id ∈ b, id ≠ []) :
    computeIdHash sha256 a = computeIdHash sha256 b ↔
      linesOf a = linesOf b := by
  have sorted : ∀ id ∈ sortMessageIds a, id ≠ [] := fun id member =>
    named id ((perm_sortMessageIds a).mem_iff.mp member)
  have sorted' : ∀ id ∈ sortMessageIds b, id ≠ [] := fun id member =>
    named' id ((perm_sortMessageIds b).mem_iff.mp member)
  unfold linesOf
  rw [← textEncode_joinIds_iff sorted sorted']
  constructor
  · intro same
    exact injective (bytesToBase64Url_injective same)
  · intro same
    rw [computeIdHash, computeIdHash, same]

theorem newline_of_codePoints {s : JSString}
    (newline : 0x0a ∈ codePoints s) : 0x0a ∈ s := by
  induction s using codePoints.induct with
  | case1 => cases newline
  | case2 u lone =>
      rw [codePoints, if_pos lone] at newline
      cases List.mem_singleton.mp newline
  | case3 u text =>
      rw [codePoints, if_neg text] at newline
      have same : u = 0x0a :=
        UInt16.toNat_inj.mp (List.mem_singleton.mp newline).symm
      rw [same]
      exact List.mem_singleton_self _
  | case4 u v rest pair induction =>
      rw [codePoints, if_pos pair] at newline
      rcases List.mem_cons.mp newline with same | later
      · unfold surrogatePair at same
        omega
      · exact List.mem_cons_of_mem _ (List.mem_cons_of_mem _ (induction later))
  | case5 u v rest pair lone induction =>
      rw [codePoints, if_neg pair, if_pos lone] at newline
      rcases List.mem_cons.mp newline with same | later
      · cases same
      · exact List.mem_cons_of_mem _ (induction later)
  | case6 u v rest pair text induction =>
      rw [codePoints, if_neg pair, if_neg text] at newline
      rcases List.mem_cons.mp newline with same | later
      · have unit : u = 0x0a := UInt16.toNat_inj.mp same.symm
        rw [unit]
        exact List.mem_cons_self
      · exact List.mem_cons_of_mem _ (induction later)

theorem flatMap_splitOn_of_plain {ids : List JSString}
    (plain : ∀ id ∈ ids, IsPlainId id) :
    (ids.flatMap fun id => (codePoints id).splitOn 0x0a) =
      ids.map codePoints := by
  induction ids with
  | nil => rfl
  | cons id ids induction =>
      obtain ⟨first, later⟩ := List.forall_mem_cons.mp plain
      have single : (codePoints id).splitOn 0x0a = [codePoints id] :=
        List.splitOn_eq_singleton fun newline =>
          first.1 (newline_of_codePoints newline)
      rw [List.flatMap_cons, single, induction later, List.map_cons]
      rfl

theorem map_codePoints_injective {a b : List JSString}
    (plain : ∀ id ∈ a, IsPlainId id) (plain' : ∀ id ∈ b, IsPlainId id)
    (same : a.map codePoints = b.map codePoints) : a = b := by
  induction a generalizing b with
  | nil => exact (List.map_eq_nil_iff.mp same.symm).symm
  | cons id a induction =>
      cases b with
      | nil => cases same
      | cons id' b =>
          obtain ⟨first, later⟩ := List.forall_mem_cons.mp plain
          obtain ⟨first', later'⟩ := List.forall_mem_cons.mp plain'
          rw [List.map_cons, List.map_cons, List.cons.injEq] at same
          rw [codePoints_injective first.2 first'.2 same.1,
            induction later later' same.2]

/-- Histories of plain ids that read alike hold the same ids. -/
theorem perm_of_plain {a b : List JSString}
    (plain : ∀ id ∈ a, IsPlainId id) (plain' : ∀ id ∈ b, IsPlainId id)
    (same : linesOf a = linesOf b) : a.Perm b := by
  have sorted : ∀ id ∈ sortMessageIds a, IsPlainId id := fun id member =>
    plain id ((perm_sortMessageIds a).mem_iff.mp member)
  have sorted' : ∀ id ∈ sortMessageIds b, IsPlainId id := fun id member =>
    plain' id ((perm_sortMessageIds b).mem_iff.mp member)
  unfold linesOf at same
  rw [flatMap_splitOn_of_plain sorted, flatMap_splitOn_of_plain sorted']
    at same
  exact sortMessageIds_eq_iff.mp
    (map_codePoints_injective sorted sorted' same)

/-! ## What the digest tells -/

/-- The digest tells two histories apart, unless they read alike line by line
although they hold different ids.  This takes an id with a line break or a
lone surrogate. -/
theorem idHash_tells_iff {sha256 : List UInt8 → List UInt8}
    (injective : Function.Injective sha256) {a b : List JSString}
    (named : ∀ id ∈ a, id ≠ []) (named' : ∀ id ∈ b, id ≠ []) :
    ((computeIdHash sha256 a = computeIdHash sha256 b ↔ a.Perm b) ↔
      (linesOf a = linesOf b → a.Perm b)) ∧
    ((∀ id ∈ a, IsPlainId id) → (∀ id ∈ b, IsPlainId id) →
      linesOf a = linesOf b → a.Perm b) := by
  have hash := computeIdHash_eq_iff injective named named'
  refine ⟨?_, perm_of_plain⟩
  constructor
  · intro tells same
    exact tells.mp (hash.mpr same)
  · intro told
    constructor
    · intro same
      exact told (hash.mp same)
    · intro perm
      apply hash.mpr
      unfold linesOf
      rw [sortMessageIds_eq_iff.mpr perm]

theorem idHash_tells_iff_two :
    (computeIdHash id [js "b", js "a"] = computeIdHash id [js "a", js "b"] ↔
      [js "b", js "a"].Perm [js "a", js "b"]) := by
  have named : ∀ id ∈ [js "b", js "a"], id ≠ [] := by
    simp [js, utf16]
  have named' : ∀ id ∈ [js "a", js "b"], id ≠ [] := by
    simp [js, utf16]
  have swapped : [js "b", js "a"].Perm [js "a", js "b"] := .swap _ _ _
  exact (idHash_tells_iff Function.injective_id named named').1.mpr
    fun _ => swapped

/-- One id with a line break reads as two ids. -/
theorem idHash_confuses :
    ¬ ∀ a b : List JSString, (∀ id ∈ a, id ≠ []) → (∀ id ∈ b, id ≠ []) →
      (computeIdHash id a = computeIdHash id b ↔ a.Perm b) := by
  intro tells
  have same : computeIdHash id [[0x61, 0x0a, 0x62]] =
      computeIdHash id [[0x61], [0x62]] := by
    decide +kernel
  have perm := (tells [[0x61, 0x0a, 0x62]] [[0x61], [0x62]] (by simp)
    (by simp)).mp same
  exact absurd perm.length_eq (by decide)

end Byteln.Client

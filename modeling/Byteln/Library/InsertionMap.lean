import Mathlib.Data.List.Basic
import Mathlib.Data.List.Nodup

/-!
# Insertion-ordered maps

A finite map that enumerates its keys in the order of their first insertion,
as a JavaScript `Map` does; a Go `map` is the same object with the order
forgotten.  Setting a present key keeps its position.  The entries never
repeat a key.
-/

namespace Byteln.Library

structure InsertionMap (κ ν : Type*) where
  entries : List (κ × ν)
  nodupKeys : (entries.map Prod.fst).Nodup

namespace InsertionMap

variable {κ ν : Type*}

def empty : InsertionMap κ ν where
  entries := []
  nodupKeys := List.nodup_nil

instance : Inhabited (InsertionMap κ ν) :=
  ⟨empty⟩

def keys (map : InsertionMap κ ν) : List κ :=
  map.entries.map Prod.fst

def values (map : InsertionMap κ ν) : List ν :=
  map.entries.map Prod.snd

def size (map : InsertionMap κ ν) : Nat :=
  map.entries.length

variable [DecidableEq κ]

def get? (map : InsertionMap κ ν) (key : κ) : Option ν :=
  (map.entries.find? fun entry => entry.1 = key).map Prod.snd

def contains (map : InsertionMap κ ν) (key : κ) : Bool :=
  (map.get? key).isSome

/-- Replace the value in place when the key is present, append otherwise. -/
def setEntries (entries : List (κ × ν)) (key : κ) (value : ν) :
    List (κ × ν) :=
  match entries with
  | [] => [(key, value)]
  | entry :: rest =>
      if entry.1 = key then (key, value) :: rest
      else entry :: setEntries rest key value

theorem setEntries_keys (entries : List (κ × ν)) (key : κ) (value : ν) :
    (setEntries entries key value).map Prod.fst =
      if key ∈ entries.map Prod.fst then entries.map Prod.fst
      else entries.map Prod.fst ++ [key] := by
  induction entries with
  | nil => simp [setEntries]
  | cons entry rest induction =>
      by_cases same : entry.1 = key
      · simp [setEntries, same]
      · have different : ¬ key = entry.1 := fun equality => same equality.symm
        simp only [setEntries, same, if_false, List.map_cons, induction,
          List.mem_cons, different, false_or]
        split <;> simp

def set (map : InsertionMap κ ν) (key : κ) (value : ν) :
    InsertionMap κ ν where
  entries := setEntries map.entries key value
  nodupKeys := by
    rw [setEntries_keys]
    split
    · exact map.nodupKeys
    · rename_i absent
      exact List.nodup_append.mpr
        ⟨map.nodupKeys, List.nodup_singleton key, by
          intro left member right rightMember equality
          have atKey : left = key :=
            equality.trans (List.mem_singleton.mp rightMember)
          exact absent (atKey ▸ member)⟩

/-- Keep the entries that pass a test. -/
def filter (map : InsertionMap κ ν) (keep : κ → ν → Bool) :
    InsertionMap κ ν where
  entries := map.entries.filter fun entry => keep entry.1 entry.2
  nodupKeys := map.nodupKeys.sublist (List.filter_sublist.map Prod.fst)

def erase (map : InsertionMap κ ν) (key : κ) : InsertionMap κ ν where
  entries := map.entries.filter fun entry => entry.1 ≠ key
  nodupKeys := map.nodupKeys.sublist (List.filter_sublist.map Prod.fst)

/-! ## Lookups -/

@[simp] theorem get?_empty (key : κ) :
    (empty : InsertionMap κ ν).get? key = none := rfl

private theorem find?_setEntries
    (entries : List (κ × ν)) (key other : κ) (value : ν) :
    ((setEntries entries key value).find? fun entry => entry.1 = other).map
        Prod.snd =
      if other = key then some value
      else (entries.find? fun entry => entry.1 = other).map Prod.snd := by
  induction entries with
  | nil =>
      by_cases same : other = key
      · simp [setEntries, same]
      · have different : ¬ key = other := fun equality => same equality.symm
        simp [setEntries, same, different]
  | cons entry rest induction =>
      by_cases atEntry : entry.1 = key
      · by_cases same : other = key
        · simp [setEntries, atEntry, same]
        · have different : ¬ key = other := fun equality => same equality.symm
          simp [setEntries, atEntry, same, different]
      · by_cases found : entry.1 = other
        · have notKey : ¬ other = key := fun equality =>
            atEntry (found.trans equality)
          simp [setEntries, found, notKey]
        · simpa [setEntries, atEntry, found] using induction

theorem get?_set (map : InsertionMap κ ν) (key other : κ) (value : ν) :
    (map.set key value).get? other =
      if other = key then some value else map.get? other :=
  find?_setEntries map.entries key other value

@[simp] theorem get?_set_self (map : InsertionMap κ ν) (key : κ)
    (value : ν) : (map.set key value).get? key = some value := by
  simp [get?_set]

theorem get?_set_of_ne (map : InsertionMap κ ν) {key other : κ} (value : ν)
    (different : other ≠ key) :
    (map.set key value).get? other = map.get? other := by
  simp [get?_set, different]

theorem get?_erase (map : InsertionMap κ ν) (key other : κ) :
    (map.erase key).get? other =
      if other = key then none else map.get? other := by
  by_cases same : other = key
  · subst other
    simp [get?, erase, List.find?_eq_none]
  · have agree : ∀ entry : κ × ν,
        (entry.1 ≠ key ∧ entry.1 = other) ↔ entry.1 = other := by
      intro entry
      refine ⟨And.right, fun found => ⟨?_, found⟩⟩
      rw [found]
      exact same
    simp only [get?, erase, same, if_false, List.find?_filter,
      decide_eq_true_eq, agree]

@[simp] theorem get?_erase_self (map : InsertionMap κ ν) (key : κ) :
    (map.erase key).get? key = none := by
  simp [get?_erase]

theorem get?_erase_of_ne (map : InsertionMap κ ν) {key other : κ}
    (different : other ≠ key) :
    (map.erase key).get? other = map.get? other := by
  simp [get?_erase, different]

theorem mem_entries_iff (map : InsertionMap κ ν) {key : κ} {value : ν} :
    (key, value) ∈ map.entries ↔ map.get? key = some value := by
  obtain ⟨entries, nodup⟩ := map
  simp only [get?]
  induction entries with
  | nil => simp
  | cons entry rest induction =>
      obtain ⟨entryKey, entryValue⟩ := entry
      simp only [List.map_cons, List.nodup_cons] at nodup
      by_cases same : entryKey = key
      · subst key
        have absent : (entryKey, value) ∉ rest := fun member =>
          nodup.1 (List.mem_map.mpr ⟨_, member, rfl⟩)
        simp [absent, eq_comm]
      · have different : ¬ key = entryKey := fun equality => same equality.symm
        simpa [same, different] using induction nodup.2

theorem get?_filter (map : InsertionMap κ ν) (keep : κ → ν → Bool)
    (key : κ) :
    (map.filter keep).get? key = (map.get? key).filter (keep key) := by
  apply Option.ext
  intro value
  rw [← mem_entries_iff, Option.filter_eq_some_iff, ← mem_entries_iff]
  exact List.mem_filter

theorem mem_keys_iff (map : InsertionMap κ ν) {key : κ} :
    key ∈ map.keys ↔ (map.get? key).isSome := by
  simp only [keys, List.mem_map, Prod.exists, exists_and_right,
    exists_eq_right, Option.isSome_iff_exists]
  exact exists_congr fun value => mem_entries_iff map

theorem mem_values_iff (map : InsertionMap κ ν) {value : ν} :
    value ∈ map.values ↔ ∃ key, map.get? key = some value := by
  simp only [values, List.mem_map, Prod.exists, exists_eq_right]
  exact exists_congr fun key => mem_entries_iff map

theorem contains_iff (map : InsertionMap κ ν) {key : κ} :
    map.contains key = true ↔ ∃ value, map.get? key = some value := by
  simp [contains, Option.isSome_iff_exists]

/-- Setting an absent key appends its entry. -/
theorem set_entries_of_absent (map : InsertionMap κ ν) {key : κ} (value : ν)
    (absent : map.get? key = none) :
    (map.set key value).entries = map.entries ++ [(key, value)] := by
  have notKey : ∀ entry ∈ map.entries, entry.1 ≠ key := by
    intro entry member equality
    have present : map.get? key = some entry.2 :=
      (mem_entries_iff map).mp (equality ▸ member)
    simp [absent] at present
  change setEntries map.entries key value = _
  generalize map.entries = entries at notKey
  induction entries with
  | nil => rfl
  | cons entry rest induction =>
      simp only [List.forall_mem_cons] at notKey
      simp [setEntries, notKey.1, induction notKey.2]

/-- Erasing a present key removes exactly its entry. -/
theorem entries_perm_erase (map : InsertionMap κ ν) {key : κ} {value : ν}
    (present : map.get? key = some value) :
    map.entries.Perm ((key, value) :: (map.erase key).entries) := by
  have member : (key, value) ∈ map.entries := (mem_entries_iff map).mpr present
  obtain ⟨entries, nodup⟩ := map
  simp only [erase] at member ⊢
  clear present
  induction entries with
  | nil => simp at member
  | cons entry rest induction =>
      simp only [List.map_cons, List.nodup_cons] at nodup
      rcases List.mem_cons.mp member with here | later
      · subst entry
        have others : rest.filter (fun entry => entry.1 ≠ key) = rest := by
          refine List.filter_eq_self.mpr fun entry entryMember => ?_
          simp only [decide_eq_true_eq]
          intro equality
          exact nodup.1 (List.mem_map.mpr ⟨entry, entryMember, equality⟩)
        rw [List.filter_cons_of_neg (by simp), others]
      · have different : entry.1 ≠ key := by
          intro equality
          exact nodup.1 (List.mem_map.mpr ⟨_, later, equality.symm⟩)
        simp only [List.filter_cons, different, ne_eq, not_false_eq_true,
          decide_true, if_true]
        exact (List.Perm.cons entry (induction nodup.2 later)).trans
          (List.Perm.swap _ _ _)

theorem erase_of_absent (map : InsertionMap κ ν) {key : κ}
    (absent : map.get? key = none) : (map.erase key).entries = map.entries := by
  refine List.filter_eq_self.mpr fun entry member => ?_
  simp only [decide_eq_true_eq]
  rintro rfl
  simp [(mem_entries_iff map).mp member] at absent

theorem contains_of_filter {map : InsertionMap κ ν} {keep : κ → ν → Bool}
    {key : κ} (kept : (map.filter keep).contains key = true) :
    map.contains key = true := by
  rw [contains, get?_filter, Option.isSome_iff_exists] at kept
  obtain ⟨value, found⟩ := kept
  rw [contains, (Option.filter_eq_some_iff.mp found).1, Option.isSome_some]

theorem contains_set (map : InsertionMap κ ν) (key other : κ) (value : ν) :
    (map.set key value).contains other =
      (decide (other = key) || map.contains other) := by
  rw [contains, get?_set, contains]
  by_cases same : other = key <;> simp [same]

/-! ## Sizes -/

omit [DecidableEq κ] in
theorem size_filter_le (map : InsertionMap κ ν) (keep : κ → ν → Bool) :
    (map.filter keep).size ≤ map.size :=
  List.length_filter_le _ _

theorem size_set_le (map : InsertionMap κ ν) (key : κ) (value : ν) :
    (map.set key value).size ≤ map.size + 1 := by
  obtain ⟨entries, nodup⟩ := map
  change (setEntries entries key value).length ≤ entries.length + 1
  clear nodup
  induction entries with
  | nil => simp [setEntries]
  | cons entry rest induction =>
      unfold setEntries
      split
      · simp
      · simpa using induction

end InsertionMap

end Byteln.Library

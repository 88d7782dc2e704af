import Byteln.Library.InsertionMap
import Mathlib.Data.List.Perm.Basic

/-!
# Lists of keyed records

A list whose records carry their own key, read as a finite map: the first
record of a key is the one found.  Collecting such a list in an
insertion-ordered map keeps the last record of each key.  Two lists in strict
key order that find the same records are equal.
-/

namespace Byteln.Library.KeyedList

section

variable {α κ : Type*} (key : α → κ)

/-- No two records carry one key. -/
def Distinct (records : List α) : Prop :=
  (records.map key).Nodup

variable {key}

theorem Distinct.perm {records others : List α}
    (distinct : Distinct key records) (perm : records.Perm others) :
    Distinct key others :=
  (perm.map key).nodup_iff.mp distinct

theorem Distinct.filter {records : List α} (distinct : Distinct key records)
    (keep : α → Bool) : Distinct key (records.filter keep) :=
  distinct.sublist (List.filter_sublist.map key)

theorem distinct_of_ordered {lt : κ → κ → Prop} (irrefl : ∀ k, ¬ lt k k)
    {records : List α}
    (ordered : records.Pairwise fun a b => lt (key a) (key b)) :
    Distinct key records := by
  refine List.pairwise_map.mpr (ordered.imp ?_)
  intro a b less equal
  exact irrefl _ (equal ▸ less)

end

variable {α κ : Type*} [DecidableEq κ] (key : α → κ)

def lookup (records : List α) (k : κ) : Option α :=
  records.find? fun record => key record = k

/-- The records of an insertion-ordered map that a list fills in turn. -/
def latest (records : List α) : List α :=
  (records.foldl (fun map record => map.set (key record) record)
    InsertionMap.empty).values

variable {key}

@[simp] theorem lookup_nil (k : κ) : lookup key [] k = none :=
  rfl

theorem lookup_cons (record : α) (records : List α) (k : κ) :
    lookup key (record :: records) k =
      if key record = k then some record else lookup key records k := by
  by_cases here : key record = k <;> simp [lookup, here]

theorem lookup_some {records : List α} {k : κ} {record : α}
    (found : lookup key records k = some record) :
    record ∈ records ∧ key record = k := by
  refine ⟨List.mem_of_find?_eq_some found, ?_⟩
  simpa using List.find?_some found

theorem lookup_none_iff {records : List α} {k : κ} :
    lookup key records k = none ↔ ∀ record ∈ records, key record ≠ k := by
  simp [lookup]

theorem Distinct.lookup_iff {records : List α}
    (distinct : Distinct key records) {k : κ} {record : α} :
    lookup key records k = some record ↔
      record ∈ records ∧ key record = k := by
  constructor
  · exact lookup_some
  · rintro ⟨member, rfl⟩
    induction records with
    | nil => simp at member
    | cons first rest induction =>
        simp only [Distinct, List.map_cons, List.nodup_cons] at distinct
        rw [lookup_cons]
        rcases List.mem_cons.mp member with rfl | later
        · simp
        · have different : key first ≠ key record := by
            intro same
            exact distinct.1 (same ▸ List.mem_map_of_mem later)
          simpa [different] using induction distinct.2 later

theorem Distinct.lookup_perm {records others : List α}
    (distinct : Distinct key records) (perm : records.Perm others) (k : κ) :
    lookup key others k = lookup key records k := by
  apply Option.ext
  intro record
  rw [distinct.lookup_iff, (distinct.perm perm).lookup_iff, perm.mem_iff]

theorem lookup_filter_key (records : List α) (keep : κ → Bool) (k : κ) :
    lookup key (records.filter fun record => keep (key record)) k =
      if keep k then lookup key records k else none := by
  induction records with
  | nil => simp
  | cons record records induction =>
      by_cases here : key record = k
      · cases kept : keep k <;>
          simp_all [lookup_cons]
      · cases kept : keep (key record) <;>
          simp [lookup_cons, kept, here, induction]

/-- Lists in strict key order that find the same records are equal. -/
theorem ext_of_ordered {lt : κ → κ → Prop}
    (irrefl : ∀ k, ¬ lt k k) (asymm : ∀ a b, lt a b → ¬ lt b a)
    {records others : List α}
    (ordered : records.Pairwise fun a b => lt (key a) (key b))
    (othersOrdered : others.Pairwise fun a b => lt (key a) (key b))
    (same : ∀ k, lookup key records k = lookup key others k) :
    records = others := by
  have distinct := distinct_of_ordered irrefl ordered
  have othersDistinct := distinct_of_ordered irrefl othersOrdered
  have perm : records.Perm others := by
    refine (List.perm_ext_iff_of_nodup distinct.of_map
      othersDistinct.of_map).mpr fun record => ?_
    have found := same (key record)
    rw [Option.ext_iff] at found
    simpa [distinct.lookup_iff, othersDistinct.lookup_iff] using found record
  refine perm.eq_of_pairwise ?_ ordered othersOrdered
  intro a b _ _ less greater
  exact absurd greater (asymm _ _ less)

/-! ## The last record of each key -/

/-- Each record of the map is stored under its own key. -/
private def OwnKeys (key : α → κ) (map : InsertionMap κ α) : Prop :=
  ∀ k record, map.get? k = some record → key record = k

private theorem ownKeys_empty (key : α → κ) :
    OwnKeys key (.empty : InsertionMap κ α) := by
  intro k record found
  simp at found

private theorem OwnKeys.set {map : InsertionMap κ α}
    (own : OwnKeys key map) (record : α) :
    OwnKeys key (map.set (key record) record) := by
  intro k other found
  rw [InsertionMap.get?_set] at found
  split at found
  · rename_i here
    obtain rfl := Option.some.inj found
    exact here.symm
  · exact own k other found

private theorem OwnKeys.keys {map : InsertionMap κ α}
    (own : OwnKeys key map) : map.values.map key = map.keys := by
  simp only [InsertionMap.values, InsertionMap.keys, List.map_map]
  refine List.map_congr_left fun entry member => ?_
  exact own entry.1 entry.2 ((map.mem_entries_iff).mp member)

private theorem OwnKeys.lookup_values {map : InsertionMap κ α}
    (own : OwnKeys key map) (k : κ) :
    lookup key map.values k = map.get? k := by
  have distinct : Distinct key map.values := by
    unfold Distinct
    rw [own.keys]
    exact map.nodupKeys
  apply Option.ext
  intro record
  rw [distinct.lookup_iff, InsertionMap.mem_values_iff]
  constructor
  · rintro ⟨⟨stored, found⟩, rfl⟩
    rwa [own stored record found]
  · intro found
    exact ⟨⟨k, found⟩, own k record found⟩

private theorem fill_spec (records : List α) {map : InsertionMap κ α}
    (own : OwnKeys key map) :
    OwnKeys key (records.foldl
      (fun map record => map.set (key record) record) map) ∧
      ∀ k, (records.foldl
        (fun map record => map.set (key record) record) map).get? k =
          (lookup key records.reverse k).or (map.get? k) := by
  induction records generalizing map with
  | nil => exact ⟨own, fun k => by simp⟩
  | cons record records induction =>
      obtain ⟨ownFilled, found⟩ := induction (own.set record)
      refine ⟨ownFilled, fun k => ?_⟩
      rw [List.foldl_cons, found, InsertionMap.get?_set, List.reverse_cons]
      unfold lookup
      rw [List.find?_append]
      by_cases here : key record = k
      · simp [here]
      · simp [here, Ne.symm here]

theorem distinct_latest (records : List α) :
    Distinct key (latest key records) := by
  have own := (fill_spec records (ownKeys_empty key)).1
  unfold Distinct latest
  rw [own.keys]
  exact InsertionMap.nodupKeys _

/-- The record kept for a key is the last one. -/
theorem lookup_latest (records : List α) (k : κ) :
    lookup key (latest key records) k = lookup key records.reverse k := by
  have spec := fill_spec records (ownKeys_empty key)
  unfold latest
  rw [spec.1.lookup_values, spec.2]
  simp

theorem Distinct.lookup_latest {records : List α}
    (distinct : Distinct key records) (k : κ) :
    lookup key (latest key records) k = lookup key records k := by
  rw [KeyedList.lookup_latest,
    distinct.lookup_perm records.reverse_perm.symm]

end Byteln.Library.KeyedList

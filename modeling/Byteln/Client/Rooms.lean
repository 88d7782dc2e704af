import Byteln.Library.CodeUnits
import Byteln.Library.InsertionMap

/-!
# Transfers by room

The transfers of each room, as a map of maps in which no room is empty.  A
transfer is an object that outlives its entry, so entries are references.
-/

namespace Byteln.Client

open Byteln.Library

/-- A transfer in the heap. -/
abbrev Ref := Nat

/-- The transfers of each room, by id. -/
abbrev Rooms := InsertionMap JSString (InsertionMap JSString Ref)

namespace Rooms

def find (rooms : Rooms) (bucketId id : JSString) : Option Ref :=
  (rooms.get? bucketId).bind fun map => map.get? id

def refs (rooms : Rooms) (bucketId : JSString) : List Ref :=
  ((rooms.get? bucketId).map InsertionMap.values).getD []

def ids (rooms : Rooms) (bucketId : JSString) : List JSString :=
  ((rooms.get? bucketId).map InsertionMap.keys).getD []

def allRefs (rooms : Rooms) : List Ref :=
  rooms.values.flatMap InsertionMap.values

def put (rooms : Rooms) (bucketId id : JSString) (ref : Ref) : Rooms :=
  rooms.set bucketId (((rooms.get? bucketId).getD .empty).set id ref)

/-- Delete an entry, and its room with the last one. -/
def remove (rooms : Rooms) (bucketId id : JSString) : Rooms :=
  match rooms.get? bucketId with
  | none => rooms
  | some map =>
      let map := map.erase id
      if map.size = 0 then rooms.erase bucketId else rooms.set bucketId map

@[simp] theorem find_empty (bucketId id : JSString) :
    Rooms.find .empty bucketId id = none := by
  simp [find]

theorem find_put (rooms : Rooms) (bucketId id other otherId : JSString)
    (ref : Ref) :
    (rooms.put bucketId id ref).find other otherId =
      if other = bucketId ∧ otherId = id then some ref
      else rooms.find other otherId := by
  unfold put find
  rw [InsertionMap.get?_set]
  by_cases same : other = bucketId
  · subst same
    simp only [if_true, true_and, Option.bind_some, InsertionMap.get?_set]
    by_cases sameId : otherId = id
    · simp [sameId]
    · cases rooms.get? other <;> simp [sameId]
  · simp [same]

theorem find_remove (rooms : Rooms) (bucketId id other otherId : JSString) :
    (rooms.remove bucketId id).find other otherId =
      if other = bucketId ∧ otherId = id then none
      else rooms.find other otherId := by
  unfold remove find
  cases present : rooms.get? bucketId with
  | none =>
      by_cases same : other = bucketId
      · simp [same, present]
      · simp [same]
  | some map =>
      simp only
      by_cases same : other = bucketId
      · subst same
        have kept : ((rooms.set other (map.erase id)).get? other).bind
            (fun map => map.get? otherId) =
            if otherId = id then none else map.get? otherId := by
          simp [InsertionMap.get?_erase]
        simp only [true_and, present, Option.bind_some]
        split
        · rename_i vacant
          have gone : (map.erase id).get? otherId = none := by
            have noEntry : (map.erase id).entries = [] :=
              List.length_eq_zero_iff.mp vacant
            simp [InsertionMap.get?, noEntry]
          rw [InsertionMap.get?_erase] at gone
          simpa using gone.symm
        · exact kept
      · split <;> simp [same, InsertionMap.get?_erase, InsertionMap.get?_set]

@[simp] theorem find_remove_self (rooms : Rooms) (bucketId id : JSString) :
    (rooms.remove bucketId id).find bucketId id = none := by
  simp [find_remove]

theorem find_erase (rooms : Rooms) (bucketId other otherId : JSString) :
    Rooms.find (rooms.erase bucketId) other otherId =
      if other = bucketId then none else rooms.find other otherId := by
  unfold find
  rw [InsertionMap.get?_erase]
  split <;> rfl

theorem mem_ids_iff (rooms : Rooms) (bucketId id : JSString) :
    id ∈ rooms.ids bucketId ↔ (rooms.find bucketId id).isSome := by
  unfold ids find
  cases rooms.get? bucketId with
  | none => simp
  | some map => simp [InsertionMap.mem_keys_iff]

/-! ### All transfers of a room -/

/-- The ids of a room with their references. -/
def entries (rooms : Rooms) (bucketId : JSString) : List (JSString × Ref) :=
  ((rooms.get? bucketId).map InsertionMap.entries).getD []

theorem refs_eq_map (rooms : Rooms) (bucketId : JSString) :
    rooms.refs bucketId = (rooms.entries bucketId).map Prod.snd := by
  unfold refs entries
  cases rooms.get? bucketId <;> rfl

theorem mem_entries_iff (rooms : Rooms) (bucketId id : JSString)
    (ref : Ref) :
    (id, ref) ∈ rooms.entries bucketId ↔
      rooms.find bucketId id = some ref := by
  unfold entries find
  cases rooms.get? bucketId with
  | none => simp
  | some map => exact InsertionMap.mem_entries_iff map

theorem nodup_entries (rooms : Rooms) (bucketId : JSString) :
    (rooms.entries bucketId).Nodup := by
  unfold entries
  cases rooms.get? bucketId with
  | none => exact List.nodup_nil
  | some map => exact map.nodupKeys.of_map

theorem mem_refs_iff (rooms : Rooms) (bucketId : JSString) (ref : Ref) :
    ref ∈ rooms.refs bucketId ↔
      ∃ id, rooms.find bucketId id = some ref := by
  simp [refs_eq_map, mem_entries_iff]

/-- A room that has only lost entries. -/
theorem refs_subperm {rooms rooms' : Rooms} {bucketId : JSString}
    (fewer : ∀ id, rooms'.find bucketId id = rooms.find bucketId id ∨
      rooms'.find bucketId id = none) :
    (rooms'.refs bucketId).Subperm (rooms.refs bucketId) := by
  have subset : rooms'.entries bucketId ⊆ rooms.entries bucketId := by
    intro entry member
    obtain ⟨id, ref⟩ := entry
    have listed := (mem_entries_iff _ _ _ _).mp member
    rcases fewer id with same | gone
    · exact (mem_entries_iff _ _ _ _).mpr (same ▸ listed)
    · rw [gone] at listed
      cases listed
  obtain ⟨kept, perm, sublist⟩ :=
    List.subperm_of_subset (rooms'.nodup_entries bucketId) subset
  rw [refs_eq_map, refs_eq_map]
  exact ⟨kept.map Prod.snd, perm.map _, sublist.map _⟩

/-- A new entry comes last. -/
theorem refs_put (rooms : Rooms) {bucketId id : JSString} (ref : Ref)
    (absent : rooms.find bucketId id = none) (other : JSString) :
    (rooms.put bucketId id ref).refs other =
      if other = bucketId then rooms.refs bucketId ++ [ref]
      else rooms.refs other := by
  unfold refs put
  rw [InsertionMap.get?_set]
  split
  · unfold find at absent
    cases room : rooms.get? bucketId with
    | none =>
        simp only [Option.getD_none, Option.map_some, Option.getD_some,
          Option.map_none, List.nil_append]
        rfl
    | some map =>
        rw [room, Option.bind_some] at absent
        simp only [Option.getD_some, Option.map_some, InsertionMap.values,
          InsertionMap.set_entries_of_absent map ref absent, List.map_append,
          List.map_cons, List.map_nil]
  · rfl

end Rooms

end Byteln.Client

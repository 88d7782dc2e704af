import Byteln.Client.Attachments
import Byteln.Library.KeyedList

/-!
# The message store

The rows of IndexedDB, each under its room and message id, and the order in
which a room's messages are listed.  A row's key is the id of its message, so
a room never holds two messages with one id.
-/

namespace Byteln.Client

open Byteln.Library

variable {ν : Type}

def StoredMessage.ts (msg : StoredMessage ν) : ν :=
  match msg.content with
  | .text text => text.ts
  | .image image => image.ts
  | .file file => file.ts

/-- The list is in the order of ids, and no id occurs twice. -/
def Ordered (msgs : List (StoredMessage ν)) : Prop :=
  msgs.Pairwise fun a b => a.id < b.id

theorem Ordered.distinct {msgs : List (StoredMessage ν)}
    (ordered : Ordered msgs) : KeyedList.Distinct StoredMessage.id msgs :=
  KeyedList.distinct_of_ordered List.lt_irrefl ordered

/-- Ordered lists that hold the same message for each id are equal. -/
theorem Ordered.ext {msgs others : List (StoredMessage ν)}
    (ordered : Ordered msgs) (othersOrdered : Ordered others)
    (same : ∀ id, KeyedList.lookup StoredMessage.id msgs id =
      KeyedList.lookup StoredMessage.id others id) : msgs = others :=
  KeyedList.ext_of_ordered List.lt_irrefl (fun _ _ => List.lt_asymm)
    ordered othersOrdered same

section Sorting

variable [LinearOrder ν]

/-- By id, and by time for one id. -/
def compareMessages (a b : StoredMessage ν) : Ordering :=
  if a.id < b.id then .lt
  else if b.id < a.id then .gt
  else compare a.ts b.ts

/-- A stable sort. -/
def sortMessages (msgs : List (StoredMessage ν)) : List (StoredMessage ν) :=
  msgs.insertionSort fun a b => (compareMessages a b).isLE = true

theorem compareMessages_isLE (a b : StoredMessage ν) :
    (compareMessages a b).isLE = true ↔
      a.id < b.id ∨ a.id = b.id ∧ a.ts ≤ b.ts := by
  unfold compareMessages
  by_cases less : a.id < b.id
  · simp [less]
  · by_cases greater : b.id < a.id
    · have different : a.id ≠ b.id := fun same =>
        List.lt_irrefl _ (same ▸ greater)
      simp [less, greater, different]
    · have same : a.id = b.id :=
        List.le_antisymm (List.not_lt.mp greater) (List.not_lt.mp less)
      simp [same, List.lt_irrefl, Ordering.isLE_iff_ne_gt, compare_le_iff_le]

private theorem compareMessages_total (a b : StoredMessage ν) :
    (compareMessages a b).isLE = true ∨ (compareMessages b a).isLE = true := by
  rw [compareMessages_isLE, compareMessages_isLE]
  by_cases same : a.id = b.id
  · rcases le_total a.ts b.ts with le | ge
    · exact .inl (.inr ⟨same, le⟩)
    · exact .inr (.inr ⟨same.symm, ge⟩)
  · by_cases less : a.id < b.id
    · exact .inl (.inl less)
    · refine .inr (.inl ?_)
      by_contra notGreater
      exact same (List.le_antisymm (List.not_lt.mp notGreater)
        (List.not_lt.mp less))

private theorem compareMessages_trans (a b c : StoredMessage ν)
    (first : (compareMessages a b).isLE = true)
    (second : (compareMessages b c).isLE = true) :
    (compareMessages a c).isLE = true := by
  rw [compareMessages_isLE] at first second ⊢
  rcases first with less | ⟨same, le⟩
  · rcases second with less' | ⟨same', -⟩
    · exact .inl (List.lt_trans less less')
    · exact .inl (same' ▸ less)
  · rcases second with less' | ⟨same', le'⟩
    · exact .inl (same ▸ less')
    · exact .inr ⟨same.trans same', le.trans le'⟩

/-- Sorting messages with distinct ids puts them in the order of ids. -/
theorem sortMessages_ordered {msgs : List (StoredMessage ν)}
    (distinct : KeyedList.Distinct StoredMessage.id msgs) :
    Ordered (sortMessages msgs) := by
  have total : Std.Total fun a b : StoredMessage ν =>
      (compareMessages a b).isLE = true := ⟨compareMessages_total⟩
  have trans : IsTrans (StoredMessage ν)
      fun a b => (compareMessages a b).isLE = true := ⟨compareMessages_trans⟩
  have sorted := List.pairwise_insertionSort
    (fun a b => (compareMessages a b).isLE = true) msgs
  have distinct' := distinct.perm (List.perm_insertionSort
    (fun a b => (compareMessages a b).isLE = true) msgs).symm
  refine (sorted.and (List.pairwise_map.mp distinct')).imp ?_
  intro a b both
  rcases (compareMessages_isLE a b).mp both.1 with less | ⟨same, -⟩
  · exact less
  · exact absurd same both.2

theorem lookup_sortMessages {msgs : List (StoredMessage ν)}
    (distinct : KeyedList.Distinct StoredMessage.id msgs) (id : JSString) :
    KeyedList.lookup StoredMessage.id (sortMessages msgs) id =
      KeyedList.lookup StoredMessage.id msgs id :=
  distinct.lookup_perm (List.perm_insertionSort _ msgs).symm id

end Sorting

/-! ## Rows -/

def ReplyRef.normal (reply : ReplyRef) : Bool :=
  reply.id ≠ []

/-- What is read back from a row. -/
def normalizeStored (nfc : JSString → JSString)
    (row : StoredMessage ν) : StoredMessage ν :=
  { row with
    content :=
      match row.content with
      | .text text =>
          .text { text with
            id := some row.id, replyTo := text.replyTo.filter ReplyRef.normal }
      | .image image =>
          .image { image with
            id := some row.id, replyTo := image.replyTo.filter ReplyRef.normal }
      | .file file =>
          .file { file with
            id := some row.id
            replyTo := file.replyTo.filter ReplyRef.normal
            name := sanitizeFileName nfc file.name
            mime :=
              if isValidMime file.mime then file.mime
              else js "application/octet-stream" } }

/-- The rows of the messages store, by room and message id. -/
structure MessageRows (ν : Type) where
  rows : InsertionMap (JSString × JSString) (StoredMessage ν)
  ownKey : ∀ key row, rows.get? key = some row → row.id = key.2

namespace MessageRows

def empty : MessageRows ν where
  rows := .empty
  ownKey := by simp

def get? (store : MessageRows ν) (bucketId id : JSString) :
    Option (StoredMessage ν) :=
  store.rows.get? (bucketId, id)

def addMessage (store : MessageRows ν) (bucketId : JSString)
    (msg : StoredMessage ν) : MessageRows ν where
  rows := store.rows.set (bucketId, msg.id) msg
  ownKey := by
    intro key row found
    rw [InsertionMap.get?_set] at found
    split at found
    · rename_i here
      rw [here, Option.some.inj found]
    · exact store.ownKey key row found

/-- Delete the rows of a room with the given ids. -/
def deleteMessages (store : MessageRows ν) (bucketId : JSString)
    (ids : List JSString) : MessageRows ν where
  rows := store.rows.filter fun key _ => !(key.1 = bucketId && key.2 ∈ ids)
  ownKey := by
    intro key row found
    rw [InsertionMap.get?_filter] at found
    obtain ⟨found, -⟩ := Option.filter_eq_some_iff.mp found
    exact store.ownKey key row found

def deleteMessage (store : MessageRows ν) (bucketId id : JSString) :
    MessageRows ν :=
  store.deleteMessages bucketId [id]

/-- The messages of a room, as they are read back. -/
def listMessages [LinearOrder ν] (nfc : JSString → JSString)
    (store : MessageRows ν) (bucketId : JSString) : List (StoredMessage ν) :=
  sortMessages <|
    (store.rows.entries.filter fun entry => entry.1.1 = bucketId).map
      fun entry => normalizeStored nfc entry.2

theorem get?_addMessage (store : MessageRows ν) (bucketId : JSString)
    (msg : StoredMessage ν) (other id : JSString) :
    (store.addMessage bucketId msg).get? other id =
      if other = bucketId ∧ id = msg.id then some msg
      else store.get? other id := by
  unfold get? addMessage
  rw [InsertionMap.get?_set]
  simp

theorem get?_deleteMessages (store : MessageRows ν) (bucketId : JSString)
    (ids : List JSString) (other id : JSString) :
    (store.deleteMessages bucketId ids).get? other id =
      if other = bucketId ∧ id ∈ ids then none else store.get? other id := by
  unfold get? deleteMessages
  rw [InsertionMap.get?_filter]
  cases store.rows.get? (other, id) with
  | none => simp
  | some row =>
      by_cases gone : other = bucketId ∧ id ∈ ids
      · simp [gone]
      · simp [gone, not_and_or.mp gone]

theorem get?_deleteMessage (store : MessageRows ν) (bucketId id : JSString)
    (other otherId : JSString) :
    (store.deleteMessage bucketId id).get? other otherId =
      if other = bucketId ∧ otherId = id then none
      else store.get? other otherId := by
  simp [deleteMessage, get?_deleteMessages]

section Listing

variable (nfc : JSString → JSString) (store : MessageRows ν)
  (bucketId : JSString)

private theorem listed_ids :
    ((store.rows.entries.filter fun entry => entry.1.1 = bucketId).map
      fun entry => normalizeStored nfc entry.2).map StoredMessage.id =
      (store.rows.entries.filter fun entry => entry.1.1 = bucketId).map
        fun entry => entry.1.2 := by
  rw [List.map_map]
  refine List.map_congr_left fun entry member => ?_
  have stored := List.mem_of_mem_filter member
  exact store.ownKey entry.1 entry.2 (store.rows.mem_entries_iff.mp stored)

private theorem listed_distinct :
    KeyedList.Distinct StoredMessage.id
      ((store.rows.entries.filter fun entry => entry.1.1 = bucketId).map
        fun entry => normalizeStored nfc entry.2) := by
  unfold KeyedList.Distinct
  rw [listed_ids]
  have keys := store.rows.nodupKeys.sublist
    ((List.filter_sublist (p := fun entry : (JSString × JSString) × _ =>
      entry.1.1 = bucketId)).map Prod.fst)
  refine List.pairwise_map.mpr ((List.pairwise_map.mp keys).imp_of_mem ?_)
  intro a b memberA memberB different same
  apply different
  have inA := (List.mem_filter.mp memberA).2
  have inB := (List.mem_filter.mp memberB).2
  rw [decide_eq_true_eq] at inA inB
  exact Prod.ext (inA.trans inB.symm) same

variable [LinearOrder ν]

theorem listMessages_ordered :
    Ordered (store.listMessages nfc bucketId) :=
  sortMessages_ordered (listed_distinct nfc store bucketId)

/-- Listing finds exactly the room's rows. -/
theorem lookup_listMessages (id : JSString) :
    KeyedList.lookup StoredMessage.id (store.listMessages nfc bucketId) id =
      (store.get? bucketId id).map (normalizeStored nfc) := by
  have distinct := listed_distinct nfc store bucketId
  unfold listMessages
  rw [lookup_sortMessages distinct]
  apply Option.ext
  intro msg
  rw [distinct.lookup_iff, Option.map_eq_some_iff]
  unfold get?
  constructor
  · rintro ⟨member, rfl⟩
    obtain ⟨⟨key, row⟩, stored, rfl⟩ := List.mem_map.mp member
    obtain ⟨entry, inRoom⟩ := List.mem_filter.mp stored
    have found := store.rows.mem_entries_iff.mp entry
    rw [decide_eq_true_eq] at inRoom
    refine ⟨row, ?_, rfl⟩
    rw [← inRoom]
    have own : (normalizeStored nfc row).id = key.2 :=
      store.ownKey key row found
    rw [own]
    exact found
  · rintro ⟨row, found, rfl⟩
    refine ⟨List.mem_map.mpr ⟨⟨(bucketId, id), row⟩, ?_, rfl⟩,
      store.ownKey _ row found⟩
    exact List.mem_filter.mpr
      ⟨store.rows.mem_entries_iff.mpr found, by simp⟩

end Listing

end MessageRows

end Byteln.Client

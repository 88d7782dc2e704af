import Byteln.Client.Deletion

/-!
# Memory and rows

Texts and deletes change the memory first and the rows after, transfers the
other way round, and merges and wipes replace the whole memory by a list made
earlier.  `Undisturbed` says when these do not get in each other's way; then
an open room on which no such work is in progress shows exactly its rows.
-/

namespace Byteln.Client

open Byteln.Library

variable {ν : Type}

/-- Memory is ahead of the row of the id: it is about to be written, or
deleted. -/
def Activation.Pends (b id : JSString) : Activation ν → Prop
  | .addMessage b' m => b' = b ∧ m.id = id
  | .deleteMessage b' id' => b' = b ∧ id' = id
  | _ => False

/-- The activation belongs to a merge or a wipe, which ends by replacing the
memory of the room. -/
def Activation.Refreshes (b : JSString) : Activation ν → Prop
  | .mergeMessages b' _ _ _ | .showMerged b' _ _
  | .deleteMessagesForBucket b' true | .deleteRows b' _ true
  | .showWiped b' => b' = b
  | _ => False

/-- The room is being opened or forgotten. -/
def Activation.Reopens (b : JSString) : Activation ν → Prop
  | .showOpened b' _ | .deleteMessagesForBucket b' false
  | .deleteRows b' _ false => b' = b
  | _ => False

/-- Work on the room's messages is in progress. -/
def Activation.Busy (b : JSString) (act : Activation ν) : Prop :=
  (∃ id, act.Pends b id) ∨ (∃ m, act = .appendMessage b m) ∨ act.Refreshes b

/-- The activation does nothing to the history of the room. -/
def Activation.Idle (uuid b : JSString) : Activation ν → Prop
  | .onBinary b' plain => b' = b →
      plain.stored? uuid = none ∧ ∀ ts id, plain ≠ .delete ts id
  | .addMessage b' _ | .deliverIncoming b' _ | .startOutgoing b' _
  | .appendMessage b' _ | .sendText b' _ _ | .deleteSend b' _ _
  | .deleteMessage b' _ | .mergeMessages b' _ _ _ | .showMerged b' _ _
  | .deleteMessagesForBucket b' _ | .deleteRows b' _ _ | .showWiped b'
  | .showOpened b' _ | .openRoom b' | .closeRoom b' | .forgetRoom b' => b' ≠ b
  | _ => True

/-- The message is read back from its row as it was written. -/
def Normal (nfc : JSString → JSString) (m : StoredMessage ν) : Prop :=
  normalizeStored nfc m = m

/-- The message of the id that the room's listing holds. -/
def Device.listed (nfc : JSString → JSString) (device : Device ν)
    (b id : JSString) : Option (StoredMessage ν) :=
  (device.store.get? b id).map (normalizeStored nfc)

/-- A message shown, or not shown, for the id agrees with its row, or it is
not shown yet and about to be. -/
def Settles (nfc : JSString → JSString) (device : Device ν)
    (acts : List (Activation ν)) (b id : JSString)
    (shown : Option (StoredMessage ν)) : Prop :=
  shown = device.listed nfc b id ∨
    shown = none ∧ ∃ m, m.id = id ∧ .appendMessage b m ∈ acts

/-- A list that is about to replace the memory of the room, while the other
activations are in progress: it holds what is about to be written and nothing
that is about to be deleted, and unless another merge or wipe follows, it
agrees with the rows. -/
structure Agrees (nfc : JSString → JSString) (device : Device ν)
    (others : List (Activation ν)) (b : JSString)
    (all : List (StoredMessage ν)) : Prop where
  writing : ∀ m, .addMessage b m ∈ others →
    KeyedList.lookup StoredMessage.id all.reverse m.id = some m
  deleting : ∀ id, .deleteMessage b id ∈ others →
    KeyedList.lookup StoredMessage.id all.reverse id = none
  settled : (∀ act ∈ others, ¬ act.Refreshes b) →
    ∀ id, (∀ act ∈ others, ¬ act.Pends b id) →
      Settles nfc device others b id
        (KeyedList.lookup StoredMessage.id all.reverse id)

/-- No write and no deletion of the id's row is pending. -/
def Free (pool : Device.Pool ν) (b id : JSString) : Prop :=
  ∀ act ∈ pool.acts, ¬ act.Pends b id

def Refreshing (pool : Device.Pool ν) (b : JSString) : Prop :=
  ∃ act ∈ pool.acts, act.Refreshes b

/-- The condition on the steps of an open room.  Texts and deletes of one id
do not overlap; a text is read back from its row as it was written; a transfer
stores a message only if no other one of its id is shown, and shows it only if
its row is there and is read back unchanged; and a list that replaces the
memory agrees with the rows. -/
def Undisturbed (nfc : JSString → JSString) (b : JSString) :
    Device.Pool ν → PoolLabel (Activation ν) (Outside ν) → Prop
  | pool, .run act outside =>
      match act with
      | .onBinary b' plain => b' = b →
          (∀ m, plain.stored? outside.uuid = some m →
            pool.shared.shown b m.id = none → Free pool b m.id) ∧
          ∀ ts id, plain = .delete ts id → Free pool b id
      | .sendText b' id _ => b' = b →
          pool.shared.shown b id = none ∧ Free pool b id
      | .deleteSend b' id _ => b' = b → Free pool b id
      | .addMessage b' m => b' = b → Normal nfc m
      | .deliverIncoming b' m | .startOutgoing b' m => b' = b →
          pool.shared.shown b m.id = none ∨
            pool.shared.shown b m.id = some (normalizeStored nfc m) ∨
            ¬ Free pool b m.id ∨ Refreshing pool b
      | .appendMessage b' m => b' = b → pool.shared.shown b m.id = none →
          .deleteMessage b m.id ∉ pool.acts ∧
            (pool.shared.listed nfc b m.id = some m ∨ Refreshing pool b)
      | .showMerged b' _ all => b' = b → ∀ others,
          pool.acts.Perm (act :: others) → Agrees nfc pool.shared others b all
      | .showWiped b' => b' = b → ∀ others,
          pool.acts.Perm (act :: others) → Agrees nfc pool.shared others b []
      | .openRoom b' | .closeRoom b' | .forgetRoom b' => b' ≠ b
      | _ => True
  | _, .spawn _ => True

/-- What holds between the steps of an open room. -/
structure Mirror (nfc : JSString → JSString) (b : JSString)
    (device : Device ν) (acts : List (Activation ν)) : Prop where
  writing : ∀ m, .addMessage b m ∈ acts → device.shown b m.id = some m
  deleting : ∀ id, .deleteMessage b id ∈ acts → device.shown b id = none
  settled : (∀ act ∈ acts, ¬ act.Refreshes b) →
    ∀ id, (∀ act ∈ acts, ¬ act.Pends b id) →
      Settles nfc device acts b id (device.shown b id)
  isOpen : ∀ act ∈ acts, ¬ act.Reopens b

theorem Mirror.perm {nfc : JSString → JSString} {b : JSString}
    {device : Device ν} {acts acts' : List (Activation ν)}
    (mirror : Mirror nfc b device acts) (perm : acts.Perm acts') :
    Mirror nfc b device acts' where
  writing := fun m member => mirror.writing m (perm.mem_iff.mpr member)
  deleting := fun id member => mirror.deleting id (perm.mem_iff.mpr member)
  settled := by
    intro noRefresh id free
    refine (mirror.settled
      (fun act member => noRefresh act (perm.mem_iff.mp member)) id
      fun act member => free act (perm.mem_iff.mp member)).imp_right ?_
    rintro ⟨hidden, m, same, waiting⟩
    exact ⟨hidden, m, same, perm.mem_iff.mp waiting⟩
  isOpen := fun act member => mirror.isOpen act (perm.mem_iff.mpr member)

section Listed

variable {nfc : JSString → JSString} {b id : JSString}
  {device device' : Device ν}

theorem listed_congr (store : device'.store = device.store) :
    device'.listed nfc b id = device.listed nfc b id := by
  unfold Device.listed
  rw [store]

theorem listed_addMessage {m : StoredMessage ν}
    (store : device'.store = device.store.addMessage b m) :
    device'.listed nfc b id =
      if id = m.id then some (normalizeStored nfc m)
      else device.listed nfc b id := by
  unfold Device.listed
  rw [store, MessageRows.get?_addMessage]
  by_cases same : id = m.id
  · simp [same]
  · simp [same]

theorem listed_deleteMessage {gone : JSString}
    (store : device'.store = device.store.deleteMessage b gone) :
    device'.listed nfc b id =
      if id = gone then none else device.listed nfc b id := by
  unfold Device.listed
  rw [store, MessageRows.get?_deleteMessage]
  by_cases same : id = gone
  · simp [same]
  · simp [same]

end Listed

/-! ## Steps -/

/-- The step of the activation has nothing to do with the id. -/
structure Unaffected (nfc : JSString → JSString) (act : Activation ν)
    (device device' : Device ν) (b id : JSString) : Prop where
  shown : device'.shown b id = device.shown b id
  listed : device'.listed nfc b id = device.listed nfc b id
  pends : ¬ act.Pends b id
  refreshes : ¬ act.Refreshes b
  appends : ∀ m, act = .appendMessage b m → m.id = id →
    device.shown b id ≠ none

section Steps

variable {nfc : JSString → JSString} {b : JSString}
  {device device' : Device ν} {act : Activation ν}
  {new others : List (Activation ν)}

theorem Unaffected.settles {id : JSString}
    (unaffected : Unaffected nfc act device device' b id)
    (settles : Settles nfc device (act :: others) b id (device.shown b id)) :
    Settles nfc device' (new ++ others) b id (device'.shown b id) := by
  unfold Settles at settles ⊢
  rw [unaffected.shown, unaffected.listed]
  refine settles.imp_right ?_
  rintro ⟨hidden, m, same, waiting⟩
  refine ⟨hidden, m, same, List.mem_append_right _ ?_⟩
  rcases List.mem_cons.mp waiting with now | later
  · exact absurd hidden (unaffected.appends m now.symm same)
  · exact later

/-- What a step must do for the mirror to be kept. -/
theorem Mirror.of_effects
    (mirror : Mirror nfc b device (act :: others))
    (isOpen : ∀ act' ∈ new, ¬ act'.Reopens b)
    (writing : ∀ m, .addMessage b m ∈ new → device'.shown b m.id = some m)
    (deleting : ∀ id, .deleteMessage b id ∈ new → device'.shown b id = none)
    (keepsWriting : ∀ m, .addMessage b m ∈ others →
      device'.shown b m.id = device.shown b m.id ∨
        device'.shown b m.id = some m)
    (keepsDeleting : ∀ id, .deleteMessage b id ∈ others →
      device'.shown b id = device.shown b id ∨ device'.shown b id = none)
    (settled : (∀ act' ∈ new ++ others, ¬ act'.Refreshes b) →
      ∀ id, (∀ act' ∈ new ++ others, ¬ act'.Pends b id) →
        Unaffected nfc act device device' b id ∨
          Settles nfc device' (new ++ others) b id (device'.shown b id)) :
    Mirror nfc b device' (new ++ others) where
  writing := by
    intro m member
    rcases List.mem_append.mp member with started | waiting
    · exact writing m started
    · rcases keepsWriting m waiting with same | shown
      · rw [same]
        exact mirror.writing m (List.mem_cons_of_mem _ waiting)
      · exact shown
  deleting := by
    intro id member
    rcases List.mem_append.mp member with started | waiting
    · exact deleting id started
    · rcases keepsDeleting id waiting with same | hidden
      · rw [same]
        exact mirror.deleting id (List.mem_cons_of_mem _ waiting)
      · exact hidden
  settled := by
    intro noRefresh id free
    rcases settled noRefresh id free with unaffected | settles
    · refine unaffected.settles (mirror.settled ?_ id ?_)
      · intro act' member
        rcases List.mem_cons.mp member with rfl | later
        · exact unaffected.refreshes
        · exact noRefresh act' (List.mem_append_right _ later)
      · intro act' member
        rcases List.mem_cons.mp member with rfl | later
        · exact unaffected.pends
        · exact free act' (List.mem_append_right _ later)
    · exact settles
  isOpen := by
    intro act' member
    rcases List.mem_append.mp member with started | waiting
    · exact isOpen act' started
    · exact mirror.isOpen act' (List.mem_cons_of_mem _ waiting)

end Steps

section Idle

variable [LinearOrder ν] {codec : HistoryCodec ν} {nfc : JSString → JSString}
  {outside : Outside ν} {b : JSString} {device : Device ν}
  {act : Activation ν} {others : List (Activation ν)}

theorem idle_shown (tidy : device.Tidy) (idle : act.Idle outside.uuid b)
    (id : JSString) :
    (act.next codec nfc outside device).1.shown b id =
      device.shown b id := by
  have step := (Device.next_memory codec nfc outside act tidy).2
  generalize (act.next codec nfc outside device).1 = device' at step
  cases step with
  | kept _ same => exact Device.shown_congr same b id
  | frame found _ shown =>
      rw [shown, if_neg]
      rintro ⟨here, -⟩
      rw [(idle here.symm).1] at found
      cases found
  | peerDelete shown =>
      rw [shown, if_neg]
      exact fun here => (idle here.1.symm).2 _ _ rfl
  | sent _ shown | append _ shown | delete shown =>
      rw [shown, if_neg]
      exact fun here => idle here.1.symm
  | merged shown | wiped shown | opened shown | closed shown
  | forgotten shown =>
      rw [shown, if_neg]
      exact fun here => idle here.symm

theorem idle_listed (idle : act.Idle outside.uuid b) (id : JSString) :
    (act.next codec nfc outside device).1.listed nfc b id =
      device.listed nfc b id := by
  apply congrArg (Option.map (normalizeStored nfc))
  have step := Device.next_store codec nfc outside device act
  generalize (act.next codec nfc outside device).1 = device' at step
  cases step with
  | kept _ same => rw [same]
  | stored store | delivered store | outgoing store | merged _ store =>
      rw [store, MessageRows.get?_addMessage, if_neg]
      exact fun here => idle here.1.symm
  | deleted store =>
      rw [store, MessageRows.get?_deleteMessage, if_neg]
      exact fun here => idle here.1.symm
  | rowsDeleted store =>
      rw [store, MessageRows.get?_deleteMessages, if_neg]
      exact fun here => idle here.1.symm

theorem idle_starts {act' : Activation ν} (idle : act.Idle outside.uuid b)
    (started : act' ∈ (act.next codec nfc outside device).2) :
    (∀ id, ¬ act'.Pends b id) ∧ ¬ act'.Reopens b := by
  cases Device.next_starts started with
  | shown frame _ =>
      refine ⟨fun id pends => ?_, False.elim⟩
      rw [(idle pends.1).1] at frame
      cases frame
  | peerDeletes => exact ⟨fun id pends => (idle pends.1).2 _ _ rfl, False.elim⟩
  | sentText | sentDelete =>
      exact ⟨fun id pends => idle pends.1, False.elim⟩
  | deleteRows b' wiping =>
      refine ⟨fun id => False.elim, ?_⟩
      cases wiping with
      | false => exact idle
      | true => exact False.elim
  | opened | forgetRows => exact ⟨fun id => False.elim, idle⟩
  | _ => exact ⟨fun id => False.elim, False.elim⟩

omit [LinearOrder ν] in
theorem idle_not_pends {id : JSString} (idle : act.Idle outside.uuid b) :
    ¬ act.Pends b id := by
  intro pends
  cases act with
  | addMessage | deleteMessage => exact idle pends.1
  | _ => exact pends

omit [LinearOrder ν] in
theorem idle_not_refreshes (idle : act.Idle outside.uuid b) :
    ¬ act.Refreshes b := by
  intro refreshes
  cases act with
  | mergeMessages | showMerged | showWiped => exact idle refreshes
  | deleteMessagesForBucket b' wiping =>
      cases wiping with
      | false => exact refreshes
      | true => exact idle refreshes
  | deleteRows b' ids wiping =>
      cases wiping with
      | false => exact refreshes
      | true => exact idle refreshes
  | _ => exact refreshes

theorem Mirror.idle (mirror : Mirror nfc b device (act :: others))
    (tidy : device.Tidy) (idle : act.Idle outside.uuid b) :
    Mirror nfc b (act.next codec nfc outside device).1
      ((act.next codec nfc outside device).2 ++ others) := by
  apply mirror.of_effects
  · exact fun act' started => (idle_starts idle started).2
  · exact fun m started =>
      absurd ⟨rfl, rfl⟩ ((idle_starts idle started).1 m.id)
  · exact fun id started =>
      absurd ⟨rfl, rfl⟩ ((idle_starts idle started).1 id)
  · exact fun m _ => .inl (idle_shown tidy idle m.id)
  · exact fun id _ => .inl (idle_shown tidy idle id)
  · intro _ id _
    left
    refine ⟨idle_shown tidy idle id, idle_listed idle id,
      idle_not_pends idle, idle_not_refreshes idle, ?_⟩
    rintro m rfl _
    exact absurd rfl idle

end Idle

section Kinds

variable {nfc : JSString → JSString} {b id : JSString}
  {device device' : Device ν} {act : Activation ν}
  {new others : List (Activation ν)}

/-- An activation that changes nothing drops out. -/
private theorem Mirror.drop (mirror : Mirror nfc b device (act :: others))
    (pends : ∀ id, ¬ act.Pends b id) (refreshes : ¬ act.Refreshes b)
    (appends : ∀ m, act = .appendMessage b m → device.shown b m.id ≠ none) :
    Mirror nfc b device others := by
  change Mirror nfc b device ([] ++ others)
  apply mirror.of_effects
  · exact fun act' member => absurd member (by simp)
  · exact fun m member => absurd member (by simp)
  · exact fun id member => absurd member (by simp)
  · exact fun m _ => .inl rfl
  · exact fun id _ => .inl rfl
  · intro _ id _
    refine .inl ⟨rfl, rfl, pends id, refreshes, ?_⟩
    rintro m same rfl
    exact appends m same

/-- A message of an id that was not shown is shown and about to be stored. -/
private theorem Mirror.storing {m : StoredMessage ν}
    (mirror : Mirror nfc b device (act :: others))
    (absent : device.shown b m.id = none)
    (free : ∀ act' ∈ others, ¬ act'.Pends b m.id)
    (pends : ∀ id, ¬ act.Pends b id) (refreshes : ¬ act.Refreshes b)
    (appends : ∀ m', act ≠ .appendMessage b m')
    (shown : ∀ id, device'.shown b id =
      if id = m.id then some m else device.shown b id)
    (store : device'.store = device.store)
    (starts : .addMessage b m ∈ new)
    (only : ∀ act' ∈ new, act' = .addMessage b m ∨
      (∀ id, ¬ act'.Pends b id) ∧ ¬ act'.Reopens b) :
    Mirror nfc b device' (new ++ others) := by
  apply mirror.of_effects
  · intro act' member
    rcases only act' member with rfl | quiet
    · exact False.elim
    · exact quiet.2
  · intro m' member
    rcases only _ member with same | quiet
    · obtain ⟨-, rfl⟩ := Activation.addMessage.inj same
      rw [shown, if_pos rfl]
    · exact absurd ⟨rfl, rfl⟩ (quiet.1 m'.id)
  · intro id member
    rcases only _ member with same | quiet
    · cases same
    · exact absurd ⟨rfl, rfl⟩ (quiet.1 id)
  · intro m' member
    left
    rw [shown, if_neg]
    intro same
    have before := mirror.writing m' (List.mem_cons_of_mem _ member)
    rw [same, absent] at before
    cases before
  · intro id member
    left
    rw [shown, if_neg]
    rintro rfl
    exact free _ member ⟨rfl, rfl⟩
  · intro _ id idFree
    left
    have different : id ≠ m.id := by
      rintro rfl
      exact idFree _ (List.mem_append_left _ starts) ⟨rfl, rfl⟩
    refine ⟨?_, listed_congr store, pends id, refreshes, ?_⟩
    · rw [shown, if_neg different]
    · exact fun m' same => absurd same (appends m')

/-- A message is taken from memory and about to be deleted. -/
private theorem Mirror.removing
    (mirror : Mirror nfc b device (act :: others))
    (free : ∀ act' ∈ others, ¬ act'.Pends b id)
    (pends : ∀ id, ¬ act.Pends b id) (refreshes : ¬ act.Refreshes b)
    (appends : ∀ m, act ≠ .appendMessage b m)
    (shown : ∀ id', device'.shown b id' =
      if id' = id then none else device.shown b id')
    (store : device'.store = device.store)
    (starts : new = [.deleteMessage b id]) :
    Mirror nfc b device' (new ++ others) := by
  subst starts
  apply mirror.of_effects
  · intro act' member
    obtain rfl := List.mem_singleton.mp member
    exact False.elim
  · intro m member
    cases List.mem_singleton.mp member
  · intro id' member
    obtain ⟨-, rfl⟩ :=
      Activation.deleteMessage.inj (List.mem_singleton.mp member)
    rw [shown, if_pos rfl]
  · intro m member
    left
    rw [shown, if_neg]
    rintro rfl
    exact free _ member ⟨rfl, rfl⟩
  · intro id' _
    rw [shown]
    split
    · exact .inr rfl
    · exact .inl rfl
  · intro _ id' idFree
    left
    have different : id' ≠ id := by
      rintro rfl
      exact idFree (.deleteMessage b id') (by simp) ⟨rfl, rfl⟩
    refine ⟨?_, listed_congr store, pends id', refreshes, ?_⟩
    · rw [shown, if_neg different]
    · exact fun m same => absurd same (appends m)

/-- A row is written before its message is shown. -/
private theorem Mirror.delivering {m : StoredMessage ν}
    (mirror : Mirror nfc b device (act :: others))
    (pends : ∀ id, ¬ act.Pends b id) (refreshes : ¬ act.Refreshes b)
    (appends : ∀ m', act ≠ .appendMessage b m')
    (messages : device'.messagesByBucket = device.messagesByBucket)
    (store : device'.store = device.store.addMessage b m)
    (apart : device.shown b m.id = none ∨
      device.shown b m.id = some (normalizeStored nfc m) ∨
      (∃ act' ∈ others, act'.Pends b m.id) ∨
      ∃ act' ∈ others, act'.Refreshes b) :
    Mirror nfc b device' ([.appendMessage b m] ++ others) := by
  have shown : ∀ id, device'.shown b id = device.shown b id :=
    Device.shown_congr messages b
  apply mirror.of_effects
  · intro act' member
    obtain rfl := List.mem_singleton.mp member
    exact False.elim
  · intro m' member
    cases List.mem_singleton.mp member
  · intro id member
    cases List.mem_singleton.mp member
  · exact fun m' _ => .inl (shown m'.id)
  · exact fun id _ => .inl (shown id)
  · intro noRefresh id free
    by_cases same : id = m.id
    · subst same
      right
      unfold Settles
      rw [shown, listed_addMessage store, if_pos rfl]
      rcases apart with
        hidden | showing | ⟨act', member, busy⟩ | ⟨act', member, busy⟩
      · exact .inr ⟨hidden, m, rfl, by simp⟩
      · exact .inl showing
      · exact absurd busy (free act' (List.mem_append_right _ member))
      · exact absurd busy (noRefresh act' (List.mem_append_right _ member))
    · left
      refine ⟨shown id, ?_, pends id, refreshes, ?_⟩
      · rw [listed_addMessage store, if_neg same]
      · exact fun m' same => absurd same (appends m')

/-- A list of messages takes the place of the memory. -/
private theorem Mirror.replacing {all : List (StoredMessage ν)}
    (mirror : Mirror nfc b device (act :: others))
    (agrees : Agrees nfc device others b all)
    (shown : ∀ id, device'.shown b id =
      KeyedList.lookup StoredMessage.id all.reverse id)
    (store : device'.store = device.store)
    (only : ∀ act' ∈ new, ∃ fp, act' = .setLastPeerDeviceFp b fp) :
    Mirror nfc b device' (new ++ others) := by
  have idle : ∀ act' ∈ new, ¬ act'.Reopens b := by
    intro act' member
    obtain ⟨fp, rfl⟩ := only act' member
    exact False.elim
  apply mirror.of_effects
  · exact idle
  · intro m member
    obtain ⟨fp, same⟩ := only _ member
    cases same
  · intro id member
    obtain ⟨fp, same⟩ := only _ member
    cases same
  · intro m member
    right
    rw [shown]
    exact agrees.writing m member
  · intro id member
    right
    rw [shown]
    exact agrees.deleting id member
  · intro noRefresh id free
    right
    have settles := agrees.settled
      (fun act' member => noRefresh act' (List.mem_append_right _ member)) id
      fun act' member => free act' (List.mem_append_right _ member)
    unfold Settles at settles ⊢
    rw [shown, listed_congr store]
    refine settles.imp_right ?_
    rintro ⟨hidden, m, same, waiting⟩
    exact ⟨hidden, m, same, List.mem_append_right _ waiting⟩

/-- A step of a merge or a wipe before its list is shown. -/
private theorem Mirror.refreshing {act' : Activation ν}
    (mirror : Mirror nfc b device (act :: others))
    (messages : device'.messagesByBucket = device.messagesByBucket)
    (refreshes : act'.Refreshes b) :
    Mirror nfc b device' ([act'] ++ others) := by
  have shown : ∀ id, device'.shown b id = device.shown b id :=
    Device.shown_congr messages b
  apply mirror.of_effects
  · intro other member
    obtain rfl := List.mem_singleton.mp member
    intro reopens
    cases other with
    | deleteMessagesForBucket b' wiping | deleteRows b' ids wiping =>
        cases wiping <;> first | exact refreshes | exact reopens
    | _ => first | exact refreshes | exact reopens
  · intro m member
    obtain rfl := List.mem_singleton.mp member
    exact refreshes.elim
  · intro id member
    obtain rfl := List.mem_singleton.mp member
    exact refreshes.elim
  · exact fun m _ => .inl (shown m.id)
  · exact fun id _ => .inl (shown id)
  · intro noRefresh
    exact absurd refreshes (noRefresh act' (by simp))

private theorem Mirror.addMessage {m : StoredMessage ν}
    (mirror : Mirror nfc b device (.addMessage b m :: others))
    (normal : Normal nfc m)
    (messages : device'.messagesByBucket = device.messagesByBucket)
    (store : device'.store = device.store.addMessage b m) :
    Mirror nfc b device' ([] ++ others) := by
  have shown : ∀ id, device'.shown b id = device.shown b id :=
    Device.shown_congr messages b
  apply mirror.of_effects
  · exact fun act' member => absurd member (by simp)
  · exact fun m' member => absurd member (by simp)
  · exact fun id member => absurd member (by simp)
  · exact fun m' _ => .inl (shown m'.id)
  · exact fun id _ => .inl (shown id)
  · intro _ id _
    by_cases same : id = m.id
    · subst same
      right
      left
      rw [shown, mirror.writing m (by simp), listed_addMessage store,
        if_pos rfl, normal]
    · left
      refine ⟨shown id, ?_, ?_, False.elim, ?_⟩
      · rw [listed_addMessage store, if_neg same]
      · exact fun pends => same pends.2.symm
      · exact fun _ isAppend => by cases isAppend

private theorem Mirror.deleteMessage {id : JSString}
    (mirror : Mirror nfc b device (.deleteMessage b id :: others))
    (messages : device'.messagesByBucket = device.messagesByBucket)
    (store : device'.store = device.store.deleteMessage b id) :
    Mirror nfc b device' ([] ++ others) := by
  have shown : ∀ id, device'.shown b id = device.shown b id :=
    Device.shown_congr messages b
  apply mirror.of_effects
  · exact fun act' member => absurd member (by simp)
  · exact fun m' member => absurd member (by simp)
  · exact fun id member => absurd member (by simp)
  · exact fun m' _ => .inl (shown m'.id)
  · exact fun id _ => .inl (shown id)
  · intro _ id' _
    by_cases same : id' = id
    · subst same
      right
      left
      rw [shown, mirror.deleting id' (by simp), listed_deleteMessage store,
        if_pos rfl]
    · left
      refine ⟨shown id', ?_, ?_, False.elim, ?_⟩
      · rw [listed_deleteMessage store, if_neg same]
      · exact fun pends => same pends.2.symm
      · exact fun _ isAppend => by cases isAppend

end Kinds

section Next

variable [LinearOrder ν] {codec : HistoryCodec ν} {nfc : JSString → JSString}
  {outside : Outside ν} {b : JSString} {pool : Device.Pool ν}
  {device device' : Device ν} {act : Activation ν}
  {others : List (Activation ν)}

omit [LinearOrder ν] in
private theorem free_beside {id : JSString} (free : Free pool b id)
    (perm : pool.acts.Perm (act :: others)) :
    ∀ act' ∈ others, ¬ act'.Pends b id :=
  fun act' member => free act' (perm.mem_iff.mpr (List.mem_cons_of_mem _ member))

omit [LinearOrder ν] in
/-- What is in progress beside an activation. -/
private theorem beside {property : Activation ν → Prop}
    (perm : pool.acts.Perm (act :: others)) (not : ¬ property act)
    (some : ∃ act' ∈ pool.acts, property act') :
    ∃ act' ∈ others, property act' := by
  obtain ⟨act', member, holds⟩ := some
  rcases List.mem_cons.mp (perm.mem_iff.mp member) with rfl | later
  · exact absurd holds not
  · exact ⟨act', later, holds⟩

private theorem Mirror.onBinary {plain : PlainMessage ν}
    (mirror : Mirror nfc b pool.shared (.onBinary b plain :: others))
    (tidy : pool.shared.Tidy)
    (perm : pool.acts.Perm (.onBinary b plain :: others))
    (undisturbed : Undisturbed nfc b pool (.run (.onBinary b plain) outside)) :
    Mirror nfc b
      (Activation.next codec nfc outside pool.shared (.onBinary b plain)).1
      ((Activation.next codec nfc outside pool.shared (.onBinary b plain)).2 ++
        others) := by
  obtain ⟨texts, deletes⟩ := undisturbed rfl
  have kept : Mirror nfc b pool.shared ([] ++ others) :=
    mirror.drop (fun _ => id) id (fun _ same => by cases same)
  cases frame : plain.stored? outside.uuid with
  | some stored =>
      dsimp only [Activation.next]
      rcases Device.onBinary_text frame with dropped | ⟨absent, appended⟩
      · rw [dropped]
        exact kept
      · rw [appended]
        apply mirror.storing absent (free_beside (texts stored frame absent) perm)
        · exact fun _ => id
        · exact id
        · exact fun _ same => by cases same
        · intro id
          rw [Device.shown_append tidy absent]
          simp
        · rfl
        · simp
        · intro act' member
          have either : act' = .addMessage b stored ∨
              act' = .trustFirstPeerDeviceFp b := by
            simpa using member
          refine either.imp_right ?_
          rintro rfl
          exact ⟨fun _ => id, id⟩
  | none =>
      by_cases isDelete : ∃ ts id, plain = .delete ts id
      · obtain ⟨ts, id, rfl⟩ := isDelete
        dsimp only [Activation.next]
        rcases Device.onBinary_delete ts id with dropped | applied
        · rw [dropped]
          exact kept
        · rw [applied]
          have free := free_beside (deletes ts id rfl) perm
          apply mirror.removing free
          · exact fun _ => False.elim
          · exact False.elim
          · exact fun _ same => by cases same
          · intro id'
            rw [Device.shown_applyDelete tidy]
            simp
          · dsimp only [Device.applyDelete]
            split <;> rfl
          · rfl
      · refine mirror.idle tidy ?_
        exact fun _ => ⟨frame, fun ts id same => isDelete ⟨ts, id, same⟩⟩

private theorem Mirror.sendText {id : JSString} {plain : TextPlainMessage ν}
    (mirror : Mirror nfc b pool.shared (.sendText b id plain :: others))
    (tidy : pool.shared.Tidy)
    (perm : pool.acts.Perm (.sendText b id plain :: others))
    (undisturbed :
      Undisturbed nfc b pool (.run (.sendText b id plain) outside)) :
    Mirror nfc b (pool.shared.sendText b id plain).1
      ((pool.shared.sendText b id plain).2 ++ others) := by
  obtain ⟨absent, free⟩ := undisturbed rfl
  let stored : StoredMessage ν := ⟨.text plain, id, .self⟩
  have emitted : (pool.shared.emit b (.text plain)).Tidy := tidy
  have hidden : (pool.shared.emit b (.text plain)).shown b stored.id = none :=
    absent
  rcases Device.appendMessage_cases (pool.shared.emit b (.text plain)) b stored
    with ⟨present, -⟩ | ⟨-, appended⟩
  · exact absurd absent present
  · apply mirror.storing (m := stored) absent (free_beside free perm)
    · exact fun _ => False.elim
    · exact False.elim
    · exact fun _ same => by cases same
    · intro id'
      dsimp only [Device.sendText]
      rw [appended, Device.shown_append emitted hidden]
      simp only [true_and]
      rfl
    · dsimp only [Device.sendText]
      rw [appended]
      rfl
    · exact List.mem_singleton_self _
    · exact fun act' member => .inl (List.mem_singleton.mp member)

private theorem Mirror.deleteSend {id : JSString} {ts : ν}
    (mirror : Mirror nfc b pool.shared (.deleteSend b id ts :: others))
    (tidy : pool.shared.Tidy)
    (perm : pool.acts.Perm (.deleteSend b id ts :: others))
    (undisturbed :
      Undisturbed nfc b pool (.run (.deleteSend b id ts) outside)) :
    Mirror nfc b
      ((pool.shared.emit b (.delete ts id)).applyDelete b id).1
      (((pool.shared.emit b (.delete ts id)).applyDelete b id).2 ++
        others) := by
  have emitted : (pool.shared.emit b (.delete ts id)).Tidy := tidy
  have free := free_beside (undisturbed rfl) perm
  apply mirror.removing free
  · exact fun _ => False.elim
  · exact False.elim
  · exact fun _ same => by cases same
  · intro id'
    rw [Device.shown_applyDelete emitted]
    simp only [true_and]
    rfl
  · dsimp only [Device.applyDelete]
    split <;> rfl
  · rfl

private theorem Mirror.appendMessage {m : StoredMessage ν}
    (mirror : Mirror nfc b pool.shared (.appendMessage b m :: others))
    (tidy : pool.shared.Tidy)
    (perm : pool.acts.Perm (.appendMessage b m :: others))
    (undisturbed :
      Undisturbed nfc b pool (.run (.appendMessage b m) outside)) :
    Mirror nfc b (pool.shared.appendMessage b m).1 ([] ++ others) := by
  rcases Device.appendMessage_cases pool.shared b m with
    ⟨present, kept⟩ | ⟨absent, appended⟩
  · rw [kept]
    apply mirror.drop
    · exact fun _ => False.elim
    · exact False.elim
    · intro m' same
      obtain ⟨-, rfl⟩ := Activation.appendMessage.inj same
      exact present
  · rw [appended]
    obtain ⟨undeleted, stored⟩ := undisturbed rfl absent
    have shown := Device.shown_append tidy absent b
    apply mirror.of_effects
    · exact fun act' member => absurd member (by simp)
    · exact fun m' member => absurd member (by simp)
    · exact fun id member => absurd member (by simp)
    · intro m' member
      left
      rw [shown, if_neg]
      rintro ⟨-, same⟩
      have before := mirror.writing m' (List.mem_cons_of_mem _ member)
      rw [same, absent] at before
      cases before
    · intro id member
      left
      rw [shown, if_neg]
      rintro ⟨-, rfl⟩
      exact undeleted (perm.mem_iff.mpr (List.mem_cons_of_mem _ member))
    · intro noRefresh id _
      by_cases same : id = m.id
      · subst same
        right
        left
        rw [shown, if_pos ⟨rfl, rfl⟩]
        rcases stored with row | refreshing
        · exact row.symm
        · obtain ⟨act', member, refreshes⟩ := beside perm id refreshing
          exact absurd refreshes (noRefresh act' member)
      · left
        refine ⟨?_, rfl, False.elim, False.elim, ?_⟩
        · rw [shown, if_neg (fun here => same here.2)]
        · intro m' isAppend sameId
          obtain ⟨-, rfl⟩ := Activation.appendMessage.inj isAppend
          exact absurd sameId.symm same

omit [LinearOrder ν] in
/-- A transfer's row is written, its message is not shown yet. -/
private theorem Mirror.arriving {m : StoredMessage ν}
    (mirror : Mirror nfc b pool.shared (act :: others))
    (perm : pool.acts.Perm (act :: others))
    (pends : ∀ id, ¬ act.Pends b id) (refreshes : ¬ act.Refreshes b)
    (appends : ∀ m', act ≠ .appendMessage b m')
    (apart : pool.shared.shown b m.id = none ∨
      pool.shared.shown b m.id = some (normalizeStored nfc m) ∨
      ¬ Free pool b m.id ∨ Refreshing pool b) :
    Mirror nfc b
      { pool.shared with store := pool.shared.store.addMessage b m }
      ([.appendMessage b m] ++ others) := by
  have busy : ¬ Free pool b m.id → ∃ act' ∈ others, act'.Pends b m.id := by
    intro notFree
    apply beside perm (pends m.id)
    simpa [Free] using notFree
  refine mirror.delivering pends refreshes appends ?_ ?_ ?_
  · rfl
  · rfl
  · exact apart.imp_right (Or.imp_right (Or.imp busy (beside perm refreshes)))

/-- What one undisturbed step does to an open room. -/
theorem Mirror.next (mirror : Mirror nfc b pool.shared (act :: others))
    (tidy : pool.shared.Tidy) (perm : pool.acts.Perm (act :: others))
    (undisturbed : Undisturbed nfc b pool (.run act outside)) :
    Mirror nfc b (act.next codec nfc outside pool.shared).1
      ((act.next codec nfc outside pool.shared).2 ++ others) := by
  by_cases idle : act.Idle outside.uuid b
  · exact mirror.idle tidy idle
  · cases act with
    | onBinary b' plain =>
        obtain ⟨rfl, -⟩ := Classical.not_imp.mp idle
        exact mirror.onBinary tidy perm undisturbed
    | addMessage b' m =>
        obtain rfl := not_not.mp idle
        exact mirror.addMessage (undisturbed rfl) rfl rfl
    | deleteMessage b' id =>
        obtain rfl := not_not.mp idle
        exact mirror.deleteMessage rfl rfl
    | deliverIncoming b' m =>
        obtain rfl := not_not.mp idle
        exact mirror.arriving perm (fun _ => id) id
          (fun _ same => by cases same) (undisturbed rfl)
    | startOutgoing b' m =>
        obtain rfl := not_not.mp idle
        dsimp only [Activation.next]
        split
        · exact mirror.drop (fun _ => id) id (fun _ same => by cases same)
        · exact mirror.arriving perm (fun _ => id) id
            (fun _ same => by cases same) (undisturbed rfl)
        · exact mirror.arriving perm (fun _ => id) id
            (fun _ same => by cases same) (undisturbed rfl)
    | appendMessage b' m =>
        obtain rfl := not_not.mp idle
        exact mirror.appendMessage tidy perm undisturbed
    | sendText b' id plain =>
        obtain rfl := not_not.mp idle
        exact mirror.sendText tidy perm undisturbed
    | deleteSend b' id ts =>
        obtain rfl := not_not.mp idle
        exact mirror.deleteSend tidy perm undisturbed
    | mergeMessages b' r seen msgs =>
        obtain rfl := not_not.mp idle
        cases msgs with
        | nil => exact mirror.refreshing rfl rfl
        | cons m msgs =>
            dsimp only [Activation.next, Device.mergeMessages]
            split
            · exact mirror.refreshing rfl rfl
            · exact mirror.refreshing rfl rfl
    | showMerged b' r all =>
        obtain rfl := not_not.mp idle
        apply mirror.replacing (undisturbed rfl others perm)
        · intro id
          have shown :=
            (pool.shared.shown_syncMessages all b' id).trans (if_pos rfl)
          exact (Device.shown_congr Device.finishResyncIfDone_history.1
            b' id).trans shown
        · exact Device.finishResyncIfDone_history.2
        · exact fun act' member => Device.finishResyncIfDone_starts member
    | deleteMessagesForBucket b' wiping =>
        obtain rfl := not_not.mp idle
        cases wiping with
        | false => exact (mirror.isOpen _ List.mem_cons_self rfl).elim
        | true => exact mirror.refreshing rfl rfl
    | deleteRows b' ids wiping =>
        obtain rfl := not_not.mp idle
        cases wiping with
        | false => exact (mirror.isOpen _ List.mem_cons_self rfl).elim
        | true => exact mirror.refreshing rfl rfl
    | showWiped b' =>
        obtain rfl := not_not.mp idle
        apply mirror.replacing (undisturbed rfl others perm)
        · intro id
          have shown :=
            (pool.shared.shown_syncMessages [] b' id).trans (if_pos rfl)
          exact shown
        · rfl
        · exact fun act' member => ⟨none, List.mem_singleton.mp member⟩
    | showOpened b' messages =>
        obtain rfl := not_not.mp idle
        exact (mirror.isOpen _ List.mem_cons_self rfl).elim
    | openRoom b' | closeRoom b' | forgetRoom b' => exact absurd undisturbed idle
    | _ => exact absurd trivial idle

end Next

section Runs

variable [LinearOrder ν] {codec : HistoryCodec ν} {nfc : JSString → JSString}
  {start pool : Device.Pool ν} {trace : Device.Trace ν} {b : JSString}

omit [LinearOrder ν] in
/-- Nothing that starts from outside is work on the messages yet. -/
private theorem Activation.Entry.quiet {act : Activation ν}
    (entry : act.Entry) :
    (∀ id, ¬ act.Pends b id) ∧ ¬ act.Refreshes b ∧ ¬ act.Reopens b := by
  cases entry <;> exact ⟨fun _ => id, id, id⟩

omit [LinearOrder ν] in
private theorem Mirror.spawned {device : Device ν}
    {acts : List (Activation ν)} {act : Activation ν}
    (mirror : Mirror nfc b device acts) (entry : act.Entry) :
    Mirror nfc b device (act :: acts) where
  writing := by
    intro m member
    rcases List.mem_cons.mp member with rfl | earlier
    · cases entry
    · exact mirror.writing m earlier
  deleting := by
    intro id member
    rcases List.mem_cons.mp member with rfl | earlier
    · cases entry
    · exact mirror.deleting id earlier
  settled := by
    intro noRefresh id free
    refine (mirror.settled
      (fun other member => noRefresh other (List.mem_cons_of_mem _ member)) id
      fun other member =>
        free other (List.mem_cons_of_mem _ member)).imp_right ?_
    rintro ⟨hidden, m, same, waiting⟩
    exact ⟨hidden, m, same, List.mem_cons_of_mem _ waiting⟩
  isOpen := by
    intro other member
    rcases List.mem_cons.mp member with rfl | earlier
    · exact entry.quiet.2.2
    · exact mirror.isOpen other earlier

theorem mirror_of_run (tidy : start.shared.Tidy)
    (mirror : Mirror nfc b start.shared start.acts)
    (run : ((deviceSystem codec nfc).restrict (Undisturbed nfc b)).Run start
      trace pool) :
    pool.shared.Tidy ∧ Mirror nfc b pool.shared pool.acts := by
  refine Program.run_invariant (manager codec nfc)
    (fun _ device acts => device.Tidy ∧ Mirror nfc b device acts)
    ?_ ?_ ?_ ⟨tidy, mirror⟩ run
  · rintro _ device acts acts' perm ⟨tidy, mirror⟩
    exact ⟨tidy, mirror.perm perm⟩
  · rintro _ pool act entry _ ⟨tidy, mirror⟩
    exact ⟨tidy, mirror.spawned entry⟩
  · rintro _ pool act outside device' acts others perm ⟨tidy, mirror⟩ next
      undisturbed
    obtain ⟨rfl, rfl⟩ := Prod.mk.inj (Option.some.inj next)
    exact ⟨(Device.next_memory codec nfc outside act tidy).1,
      mirror.next tidy perm undisturbed⟩

/-- What is shown for each id decides what is shown. -/
theorem getMessages_eq_listMessages {device : Device ν}
    (tidy : device.Tidy)
    (same : ∀ id, device.shown b id = device.listed nfc b id) :
    device.getMessages b = device.store.listMessages nfc b := by
  apply (tidy b).ext (device.store.listMessages_ordered nfc b)
  intro id
  rw [MessageRows.lookup_listMessages]
  exact same id

theorem shown_of_getMessages {device : Device ν}
    (opened : device.getMessages b = device.store.listMessages nfc b)
    (id : JSString) : device.shown b id = device.listed nfc b id := by
  unfold Device.shown
  rw [opened]
  exact device.store.lookup_listMessages nfc b id

end Runs

/-- A room that has been opened shows exactly its rows, in every state of an
undisturbed run in which no work on its messages is in progress. -/
theorem open_room_shows_rows [LinearOrder ν] {codec : HistoryCodec ν}
    {nfc : JSString → JSString} {loaded start pool : Device.Pool ν}
    {before trace : Device.Trace ν} {b : JSString}
    (fresh : loaded.shared.Loaded)
    (load : (deviceSystem codec nfc).Run loaded before start)
    (opened : start.shared.getMessages b =
      start.shared.store.listMessages nfc b)
    (calm : ∀ act ∈ start.acts, ¬ act.Busy b ∧ ¬ act.Reopens b)
    (run : ((deviceSystem codec nfc).restrict (Undisturbed nfc b)).Run start
      trace pool)
    (idle : ∀ act ∈ pool.acts, ¬ act.Busy b) :
    pool.shared.getMessages b = pool.shared.store.listMessages nfc b := by
  have unrestricted :
      ((deviceSystem codec nfc).restrict fun _ _ => True).Run loaded before
        start :=
    Lts.run_restrict_iff.mpr ⟨load, fun _ _ => trivial⟩
  have tidy := tidy_of_run fresh.tidy unrestricted
  have mirror : Mirror nfc b start.shared start.acts := by
    refine ⟨?_, ?_, ?_, fun act member => (calm act member).2⟩
    · intro m member
      exact absurd (.inl ⟨m.id, rfl, rfl⟩) (calm _ member).1
    · intro id member
      exact absurd (.inl ⟨id, rfl, rfl⟩) (calm _ member).1
    · exact fun _ id _ => .inl (shown_of_getMessages opened id)
  obtain ⟨tidyLast, mirrorLast⟩ := mirror_of_run tidy mirror run
  apply getMessages_eq_listMessages tidyLast
  intro id
  have settles := mirrorLast.settled
    (fun act member refreshes => idle act member (.inr (.inr refreshes))) id
    fun act member pends => idle act member (.inl ⟨id, pends⟩)
  rcases settles with same | ⟨-, m, -, waiting⟩
  · exact same
  · exact absurd (.inr (.inl ⟨m, rfl⟩)) (idle _ waiting)

private def lateText : TextPlainMessage Nat :=
  ⟨0, js "hi", some (js "m1"), none⟩

private def lateRow : StoredMessage Nat := ⟨.text lateText, js "m1", .peer⟩

/-- The user opens the room. -/
private def openingMoves :
    List (Program.Move (Activation Nat) (Outside Nat)) :=
  [.spawn (.openRoom sampleRoom), .run 0 (calm []), .run 0 (calm [])]

private theorem opening_run {before : Device.Trace Nat}
    {start : Device.Pool Nat}
    (played : (manager idCodec id).play ⟨.blank, []⟩ openingMoves =
      some (before, start)) :
    (deviceSystem idCodec id).Run ⟨.blank, []⟩ before start := by
  refine Program.play_run ?_ played
  intro act member
  obtain rfl : act = .openRoom sampleRoom := by
    simpa [openingMoves] using member
  constructor

/-- The text arrives while nothing else happens in the room. -/
theorem open_room_shows_rows_text :
    ∃ pool : Device.Pool Nat,
      pool.shared.shown sampleRoom (js "m1") = some lateRow ∧
        pool.shared.getMessages sampleRoom =
          pool.shared.store.listMessages id sampleRoom := by
  obtain ⟨before, start, opening, opened, clear, trace, pool, played, labels,
    done, present⟩ : ∃ before start,
      (manager idCodec id).play ⟨.blank, []⟩ openingMoves =
        some (before, start) ∧
      start.shared.getMessages sampleRoom =
        start.shared.store.listMessages id sampleRoom ∧
      start.acts = [] ∧ ∃ trace pool,
      (manager idCodec id).play start
        [.spawn (.onBinary sampleRoom (.text lateText)), .run 1 (calm []),
          .run 1 (calm []), .run 1 (calm [])] = some (trace, pool) ∧
      trace.map (fun entry => (entry.1.acts, entry.2)) =
        [([], .spawn (.onBinary sampleRoom (.text lateText))),
          ([.onBinary sampleRoom (.text lateText)],
            .run (.onBinary sampleRoom (.text lateText)) (calm [])),
          ([.addMessage sampleRoom lateRow,
              .trustFirstPeerDeviceFp sampleRoom],
            .run (.addMessage sampleRoom lateRow) (calm [])),
          ([.trustFirstPeerDeviceFp sampleRoom],
            .run (.trustFirstPeerDeviceFp sampleRoom) (calm []))] ∧
      pool.acts = [] ∧
      pool.shared.shown sampleRoom (js "m1") = some lateRow :=
    ⟨_, _, rfl, rfl, rfl, _, _, rfl, rfl, rfl, rfl⟩
  have undisturbed : ((deviceSystem idCodec id).restrict
      (Undisturbed id sampleRoom)).Run start trace pool := by
    refine Lts.run_restrict_iff.mpr ⟨?_, ?_⟩
    · refine Program.play_run ?_ played
      intro act member
      obtain rfl : act = .onBinary sampleRoom (.text lateText) := by
        simpa using member
      constructor
    · rintro ⟨pool', label⟩ member
      have listed := List.mem_map_of_mem
        (f := fun entry => (Pool.acts entry.1, entry.2)) member
      rw [labels] at listed
      simp only [List.mem_cons, Prod.mk.injEq, List.not_mem_nil, or_false]
        at listed
      rcases listed with ⟨-, rfl⟩ | ⟨acts, rfl⟩ | ⟨-, rfl⟩ | ⟨-, rfl⟩
      · trivial
      · refine fun _ => ⟨fun m _ _ act pending => ?_, ?_⟩
        · rw [acts] at pending
          obtain rfl := List.mem_singleton.mp pending
          exact False.elim
        · intro ts id same
          cases same
      · exact fun _ => rfl
      · trivial
  refine ⟨pool, present, ?_⟩
  apply open_room_shows_rows ⟨rfl, rfl, rfl, rfl, rfl⟩ (opening_run opening)
    opened ?_ undisturbed
  · intro act member
    rw [done] at member
    cases member
  · intro act member
    rw [clear] at member
    cases member

/-- A resync the user has accepted: the bundle is stored, and the room is
listed for its memory. -/
private def listingMoves :
    List (Program.Move (Activation Nat) (Outside Nat)) :=
  [.spawn (.onBinary sampleRoom (.resyncRequest 0 (js "r") none)),
    .run 1 (calm []), .run 1 (calm []),
    .spawn (.respondResync sampleRoom true), .run 2 (calm []),
    .run 2 (calm []), .spawn (.onBinary sampleRoom (.historyChunk
      ⟨js "r:requester", 0, 1, [7], some 1⟩)),
    .run 3 (calm []), .run 3 (calm []), .run 3 (calm []), .run 3 (calm [])]

/-- A text that arrives between the listing of a merge and the moment the list
is shown is stored, but disappears from the open room. -/
theorem merged_room_loses_text :
    ∃ (before trace : Device.Trace Nat) (start pool : Device.Pool Nat),
      (deviceSystem idCodec id).Run ⟨.blank, []⟩ before start ∧
      start.acts = [] ∧
      start.shared.getMessages sampleRoom =
        start.shared.store.listMessages id sampleRoom ∧
      (deviceSystem idCodec id).Run start trace pool ∧ pool.acts = [] ∧
      (∃ entry ∈ trace,
        entry.1.shared.shown sampleRoom (js "m1") = some lateRow) ∧
      pool.shared.shown sampleRoom (js "m1") = none ∧
      pool.shared.store.get? sampleRoom (js "m1") = some lateRow ∧
      pool.shared.getMessages sampleRoom ≠
        pool.shared.store.listMessages id sampleRoom := by
  obtain ⟨before, start, opening, opened, clear, trace, pool, played, done,
    seen, hidden, stored, differs⟩ : ∃ before start,
      (manager idCodec id).play ⟨.blank, []⟩ openingMoves =
        some (before, start) ∧
      start.shared.getMessages sampleRoom =
        start.shared.store.listMessages id sampleRoom ∧
      start.acts = [] ∧ ∃ trace pool,
      (manager idCodec id).play start
        (listingMoves ++ [.spawn (.onBinary sampleRoom (.text lateText)),
          .run 4 (calm []), .run 4 (calm []), .run 4 (calm []),
          .run 3 (calm [])]) = some (trace, pool) ∧
      pool.acts = [] ∧
      (∃ entry ∈ trace,
        entry.1.shared.shown sampleRoom (js "m1") = some lateRow) ∧
      pool.shared.shown sampleRoom (js "m1") = none ∧
      pool.shared.store.get? sampleRoom (js "m1") = some lateRow ∧
      (pool.shared.getMessages sampleRoom).length = 1 ∧
      (pool.shared.store.listMessages id sampleRoom).length = 2 := by
    refine ⟨_, _, rfl, rfl, rfl, _, _, rfl, rfl, ?_, rfl, rfl, rfl, rfl⟩
    exact ⟨_, List.mem_of_getElem? (i := 15) rfl, rfl⟩
  refine ⟨before, trace, start, pool, opening_run opening, clear, opened, ?_,
    done, seen, hidden, stored, ?_⟩
  · refine Program.play_run ?_ played
    intro act member
    have one : act = .onBinary sampleRoom (.resyncRequest 0 (js "r") none) ∨
        act = .respondResync sampleRoom true ∨
        act = .onBinary sampleRoom (.historyChunk
          ⟨js "r:requester", 0, 1, [7], some 1⟩) ∨
        act = .onBinary sampleRoom (.text lateText) := by
      simpa [listingMoves] using member
    rcases one with rfl | rfl | rfl | rfl <;> constructor
  · intro same
    rw [← same, differs.1] at differs
    cases differs.2

end Byteln.Client

import Byteln.Client.Approval

/-!
# Deleted messages

A delete takes a message out of memory and out of the rows, and leaves no
trace.  The message stays away as long as nothing brings it back: no work in
progress carries it when it is deleted, no frame, transfer or bundle hands it
in again, and the room is not listed before its row is gone.
-/

namespace Byteln.Client

open Byteln.Library

variable {ν : Type}

/-- The activation holds a message of the id that it will show or store. -/
def Activation.Carries (b id : JSString) : Activation ν → Prop
  | .appendMessage b' m => b' = b ∧ m.id = id
  | .sendText b' id' _ => b' = b ∧ id' = id
  | .mergeMessages b' _ seen msgs =>
      b' = b ∧ id ∉ seen ∧ ∃ m ∈ msgs, m.id = id
  | .showMerged b' _ all | .showOpened b' all => b' = b ∧ ∃ m ∈ all, m.id = id
  | _ => False

/-- The activation writes the row of a message that is already shown. -/
def Activation.Writes (b id : JSString) : Activation ν → Prop
  | .addMessage b' m => b' = b ∧ m.id = id
  | _ => False

/-- The delete of a message is applied in this step: the peer's delete frame
arrives, or the user's own has been sent. -/
def Deletes (b id : JSString) : PoolLabel (Activation ν) (Outside ν) → Prop
  | .run (.onBinary b' (.delete _ id')) outside =>
      b' = b ∧ id' = id ∧ outside.roomOpen = true
  | .run (.deleteSend b' id' _) _ => b' = b ∧ id' = id
  | _ => False

/-- The condition on the steps after a delete.  No text frame, transfer, new
text or bundle hands the message in; the room is listed only once the row is
gone; and the row is deleted only after the writes begun before. -/
def SparesDeleted (codec : HistoryCodec ν) (b id : JSString) :
    Device.Pool ν → PoolLabel (Activation ν) (Outside ν) → Prop
  | pool, .run act outside =>
      match act with
      | .onBinary b' plain =>
          b' = b → ∀ m, plain.stored? outside.uuid = some m → m.id ≠ id
      | .deliverIncoming b' m | .startOutgoing b' m => b' = b → m.id ≠ id
      | .send b' _ _ => b' = b → outside.uuid ≠ id
      | .unpackHistory b' _ assembled =>
          b' = b → pool.shared.store.get? b id = none → ∀ msgs,
            codec.unpackMessagesFromSync assembled = some msgs →
            ∀ m ∈ msgs, m.id ≠ id
      | .mergeMessages b' _ _ [] | .openRoom b' =>
          b' = b → pool.shared.store.get? b id = none
      | .deleteMessage b' id' =>
          b' = b → id' = id → ∀ act ∈ pool.acts, ¬ act.Writes b id
      | _ => True
  | _, .spawn _ => True

/-- The message is not shown, nothing carries it, and its row is gone or about
to be deleted. -/
structure Gone (b id : JSString) (device : Device ν)
    (acts : List (Activation ν)) : Prop where
  hidden : device.shown b id = none
  quiet : ∀ act ∈ acts, ¬ act.Carries b id
  removed : device.store.get? b id = none ∧
      (∀ act ∈ acts, ¬ act.Writes b id) ∨
    .deleteMessage b id ∈ acts

section Steps

variable [LinearOrder ν] {codec : HistoryCodec ν} {nfc : JSString → JSString}
  {outside : Outside ν} {device : Device ν} {b id : JSString}
  {act act' : Activation ν} {pool : Device.Pool ν}

theorem id_of_mem_listMessages {store : MessageRows ν} {m : StoredMessage ν}
    (member : m ∈ store.listMessages nfc b) :
    store.get? b m.id ≠ none := by
  have distinct := (store.listMessages_ordered nfc b).distinct
  have found := distinct.lookup_iff.mpr ⟨member, rfl⟩
  rw [MessageRows.lookup_listMessages] at found
  intro absent
  rw [absent] at found
  cases found

theorem mem_ids_listMessages {store : MessageRows ν}
    (present : store.get? b id ≠ none) :
    id ∈ (store.listMessages nfc b).map StoredMessage.id := by
  obtain ⟨row, found⟩ := Option.ne_none_iff_exists'.mp present
  have listed := store.lookup_listMessages nfc b id
  rw [found] at listed
  obtain ⟨member, same⟩ := KeyedList.lookup_some listed
  exact List.mem_map.mpr ⟨_, member, same⟩

/-- Only what already carries the message starts an activation that carries
it. -/
theorem quiet_next
    (spares : SparesDeleted codec b id pool (.run act outside))
    (quiet : ¬ act.Carries b id)
    (started : act' ∈ (act.next codec nfc outside pool.shared).2) :
    ¬ act'.Carries b id := by
  intro carries
  cases Device.next_starts started with
  | delivered | outgoing => exact spares carries.1 carries.2
  | sendText => exact spares carries.1 carries.2
  | @merge b' r assembled msgs unpacked =>
      obtain ⟨rfl, unseen, m, member, same⟩ := carries
      by_cases present : pool.shared.store.get? b' id = none
      · exact spares rfl present msgs unpacked m member same
      · exact unseen (mem_ids_listMessages present)
  | mergeSeen known =>
      obtain ⟨rfl, unseen, m, member, same⟩ := carries
      exact quiet ⟨rfl, unseen, m, List.mem_cons_of_mem _ member, same⟩
  | merged new =>
      obtain ⟨rfl, unseen, m, member, same⟩ := carries
      exact quiet ⟨rfl, fun seen => unseen (List.mem_cons_of_mem _ seen), m,
        List.mem_cons_of_mem _ member, same⟩
  | showMerged | opened =>
      obtain ⟨rfl, m, member, rfl⟩ := carries
      exact id_of_mem_listMessages member (spares rfl)
  | _ => exact carries

/-- No write of the message is started. -/
theorem unwritten_next
    (spares : SparesDeleted codec b id pool (.run act outside))
    (quiet : ¬ act.Carries b id)
    (started : act' ∈ (act.next codec nfc outside pool.shared).2) :
    ¬ act'.Writes b id := by
  intro writes
  cases Device.next_starts started with
  | shown frame absent => exact spares writes.1 _ frame writes.2
  | sentText => exact quiet writes
  | _ => exact writes

/-- The message stays out of memory. -/
theorem hidden_next (tidy : pool.shared.Tidy)
    (spares : SparesDeleted codec b id pool (.run act outside))
    (quiet : ¬ act.Carries b id) (hidden : pool.shared.shown b id = none) :
    (act.next codec nfc outside pool.shared).1.shown b id = none := by
  have step := (Device.next_memory codec nfc outside act tidy).2
  generalize (act.next codec nfc outside pool.shared).1 = device' at step
  cases step with
  | kept _ same => rw [Device.shown_congr same, hidden]
  | frame found _ shown =>
      rw [shown]
      split
      · rename_i here
        exact absurd here.2.symm (spares here.1.symm _ found)
      · exact hidden
  | sent _ shown | append _ shown =>
      rw [shown]
      split
      · rename_i here
        exact absurd ⟨here.1.symm, here.2.symm⟩ quiet
      · exact hidden
  | peerDelete shown | delete shown | wiped shown | closed shown
  | forgotten shown =>
      rw [shown]
      split
      · rfl
      · exact hidden
  | merged shown | opened shown =>
      rw [shown]
      split
      · rename_i here
        refine KeyedList.lookup_none_iff.mpr fun m member same => ?_
        exact quiet ⟨here.symm, m, List.mem_reverse.mp member, same⟩
      · exact hidden

/-- A row that is gone stays gone. -/
theorem removed_next
    (spares : SparesDeleted codec b id pool (.run act outside))
    (quiet : ¬ act.Carries b id) (unwritten : ¬ act.Writes b id)
    (removed : pool.shared.store.get? b id = none) :
    (act.next codec nfc outside pool.shared).1.store.get? b id = none := by
  have step := Device.next_store codec nfc outside pool.shared act
  generalize (act.next codec nfc outside pool.shared).1 = device' at step
  cases step with
  | kept _ same => rw [same, removed]
  | stored store =>
      rw [store, MessageRows.get?_addMessage, removed, if_neg]
      exact fun here => unwritten ⟨here.1.symm, here.2.symm⟩
  | delivered store | outgoing store =>
      rw [store, MessageRows.get?_addMessage, removed, if_neg]
      exact fun here => spares here.1.symm here.2.symm
  | merged new store =>
      rw [store, MessageRows.get?_addMessage, removed, if_neg]
      rintro ⟨rfl, rfl⟩
      exact quiet ⟨rfl, new, _, List.mem_cons_self, rfl⟩
  | deleted store =>
      rw [store, MessageRows.get?_deleteMessage, removed, ite_self]
  | rowsDeleted store =>
      rw [store, MessageRows.get?_deleteMessages, removed, ite_self]

variable (codec nfc) in
/-- The step that applies the delete hides the message and is about to delete
its row. -/
theorem deletes_next (tidy : device.Tidy)
    (deletes : Deletes b id (.run act outside)) :
    (act.next codec nfc outside device).1.shown b id = none ∧
      (act.next codec nfc outside device).2 = [.deleteMessage b id] := by
  unfold Deletes at deletes
  split at deletes
  · rename_i ran
    cases ran
    obtain ⟨rfl, rfl, isOpen⟩ := deletes
    dsimp only [Activation.next, Device.onBinary]
    rw [isOpen]
    refine ⟨?_, rfl⟩
    exact (Device.shown_applyDelete tidy _ _ _).trans (if_pos ⟨rfl, rfl⟩)
  · rename_i b' id' ts _ ran
    cases ran
    obtain ⟨rfl, rfl⟩ := deletes
    refine ⟨?_, rfl⟩
    have emitted : (device.emit b' (.delete ts id')).Tidy := tidy
    exact (Device.shown_applyDelete emitted _ _ _).trans (if_pos ⟨rfl, rfl⟩)
  · exact deletes.elim

theorem Gone.next {others : List (Activation ν)}
    (gone : Gone b id pool.shared (act :: others)) (tidy : pool.shared.Tidy)
    (perm : pool.acts.Perm (act :: others))
    (spares : SparesDeleted codec b id pool (.run act outside)) :
    Gone b id (act.next codec nfc outside pool.shared).1
      ((act.next codec nfc outside pool.shared).2 ++ others) where
  hidden := hidden_next tidy spares (gone.quiet act (by simp)) gone.hidden
  quiet := by
    intro other member
    rcases List.mem_append.mp member with new | old
    · exact quiet_next spares (gone.quiet act (by simp)) new
    · exact gone.quiet other (List.mem_cons_of_mem _ old)
  removed := by
    have quiet := gone.quiet act (by simp)
    have unwritten : (∀ act' ∈ others, ¬ act'.Writes b id) →
        ∀ act' ∈ (act.next codec nfc outside pool.shared).2 ++ others,
          ¬ act'.Writes b id := by
      intro othersUnwritten other member
      rcases List.mem_append.mp member with new | old
      · exact unwritten_next spares quiet new
      · exact othersUnwritten other old
    rcases gone.removed with ⟨absent, noWrite⟩ | deleting
    · left
      refine ⟨removed_next spares quiet (noWrite act (by simp)) absent, ?_⟩
      exact unwritten fun other old =>
        noWrite other (List.mem_cons_of_mem _ old)
    · rcases List.mem_cons.mp deleting with rfl | waiting
      · left
        have noWrite := spares rfl rfl
        refine ⟨?_, unwritten fun other old => ?_⟩
        · exact (MessageRows.get?_deleteMessage _ _ _ _ _).trans
            (if_pos ⟨rfl, rfl⟩)
        · exact noWrite other
            (perm.mem_iff.mpr (List.mem_cons_of_mem _ old))
      · exact .inr (List.mem_append_right _ waiting)

end Steps

section Runs

variable [LinearOrder ν] {codec : HistoryCodec ν} {nfc : JSString → JSString}
  {start pool : Device.Pool ν} {trace : Device.Trace ν}

theorem tidy_of_run
    {condition : Device.Pool ν → PoolLabel (Activation ν) (Outside ν) → Prop}
    (tidy : start.shared.Tidy)
    (run : ((deviceSystem codec nfc).restrict condition).Run start trace
      pool) : pool.shared.Tidy := by
  refine Program.run_invariant (manager codec nfc)
    (fun _ device _ => device.Tidy) ?_ ?_ ?_ tidy run
  · intro _ device acts acts' _ tidy
    exact tidy
  · intro _ pool act _ _ tidy
    exact tidy
  · intro _ pool act outside device' acts others _ tidy next _
    obtain ⟨rfl, rfl⟩ := Prod.mk.inj (Option.some.inj next)
    exact (Device.next_memory codec nfc outside act tidy).1

omit [LinearOrder ν] in
theorem Device.Loaded.tidy {device : Device ν} (loaded : device.Loaded) :
    device.Tidy := by
  intro b
  unfold Device.getMessages
  rw [loaded.messagesByBucket]
  exact List.Pairwise.nil

theorem gone_of_run {b id : JSString} (tidy : start.shared.Tidy)
    (gone : Gone b id start.shared start.acts)
    (run : ((deviceSystem codec nfc).restrict (SparesDeleted codec b id)).Run
      start trace pool) : Gone b id pool.shared pool.acts := by
  refine (Program.run_invariant (manager codec nfc)
    (fun _ device acts => device.Tidy ∧ Gone b id device acts)
    ?_ ?_ ?_ ⟨tidy, gone⟩ run).2
  · rintro _ device acts acts' perm ⟨tidy, gone⟩
    refine ⟨tidy, gone.hidden, ?_, ?_⟩
    · exact fun act member => gone.quiet act (perm.mem_iff.mpr member)
    · exact gone.removed.imp
        (fun removed => ⟨removed.1, fun act member =>
          removed.2 act (perm.mem_iff.mpr member)⟩)
        perm.mem_iff.mp
  · rintro _ pool act entry _ ⟨tidy, gone⟩
    refine ⟨tidy, gone.hidden, ?_, ?_⟩
    · intro other member
      rcases List.mem_cons.mp member with rfl | earlier
      · cases entry <;> exact False.elim
      · exact gone.quiet other earlier
    · refine gone.removed.imp (fun removed => ⟨removed.1, ?_⟩)
        (List.mem_cons_of_mem _)
      intro other member
      rcases List.mem_cons.mp member with rfl | earlier
      · cases entry <;> exact False.elim
      · exact removed.2 other earlier
  · rintro _ pool act outside device' acts others perm ⟨tidy, gone⟩ next spares
    obtain ⟨rfl, rfl⟩ := Prod.mk.inj (Option.some.inj next)
    refine ⟨(Device.next_memory codec nfc outside act tidy).1, ?_⟩
    exact gone.next tidy perm spares

end Runs

/-- A message whose delete is applied while no work in progress carries it,
and which nothing hands in again, is never shown again, and is not stored
once its row has been deleted. -/
theorem deleted_message_stays_away [LinearOrder ν] {codec : HistoryCodec ν}
    {nfc : JSString → JSString} {start pool pool' last : Device.Pool ν}
    {before after : Device.Trace ν}
    {label : PoolLabel (Activation ν) (Outside ν)} {b id : JSString}
    (loaded : start.shared.Loaded)
    (run : (deviceSystem codec nfc).Run start before pool)
    (deletes : Deletes b id label)
    (step : (deviceSystem codec nfc).step pool label pool')
    (clear : ∀ act ∈ pool.acts, ¬ act.Carries b id)
    (later : ((deviceSystem codec nfc).restrict (SparesDeleted codec b id)).Run
      pool' after last) :
    last.shared.shown b id = none ∧
      (.deleteMessage b id ∉ last.acts →
        last.shared.store.get? b id = none) := by
  have unrestricted :
      ((deviceSystem codec nfc).restrict fun _ _ => True).Run start before
        pool :=
    Lts.run_restrict_iff.mpr ⟨run, fun _ _ => trivial⟩
  have tidy := tidy_of_run loaded.tidy unrestricted
  cases label with
  | spawn act => exact deletes.elim
  | run act outside =>
      obtain ⟨sharedEq, others, acting, acted⟩ := manager_run_inv step
      obtain ⟨hidden, deleting⟩ := deletes_next codec nfc tidy deletes
      rw [deleting] at acted
      have gone : Gone b id pool'.shared pool'.acts := by
        refine ⟨sharedEq ▸ hidden, ?_, ?_⟩
        · intro other member
          rcases List.mem_append.mp (acted.mem_iff.mp member) with new | old
          · obtain rfl := List.mem_singleton.mp new
            exact False.elim
          · exact clear other
              (acting.mem_iff.mpr (List.mem_cons_of_mem _ old))
        · exact .inr (acted.mem_iff.mpr (by simp))
      have tidy' : pool'.shared.Tidy :=
        sharedEq ▸ (Device.next_memory codec nfc outside act tidy).1
      have goneLast := gone_of_run tidy' gone later
      refine ⟨goneLast.hidden, fun deleted => ?_⟩
      exact (goneLast.removed.resolve_right deleted).1

private def greetingId : JSString := js "m1"

private def greeting : PlainMessage Nat :=
  .text ⟨0, js "hi", some greetingId, none⟩

private def greetingRow : StoredMessage Nat :=
  ⟨.text ⟨0, js "hi", some greetingId, none⟩, greetingId, .peer⟩

/-- A text arrives and is stored, then its delete arrives. -/
private def greetedMoves :
    List (Program.Move (Activation Nat) (Outside Nat)) :=
  [.spawn (.onBinary sampleRoom greeting), .run 0 (calm []), .run 0 (calm []),
    .run 0 (calm []), .spawn (.onBinary sampleRoom (.delete 0 greetingId))]

private theorem greeted_run {before : Device.Trace Nat}
    {pool : Device.Pool Nat}
    (played : (manager idCodec id).play ⟨.blank, []⟩ greetedMoves =
      some (before, pool)) :
    (deviceSystem idCodec id).Run ⟨.blank, []⟩ before pool := by
  refine Program.play_run ?_ played
  intro act member
  have either : act = .onBinary sampleRoom greeting ∨
      act = .onBinary sampleRoom (.delete 0 greetingId) := by
    simpa [greetedMoves] using member
  rcases either with rfl | rfl <;> constructor

private theorem delete_step {pool pool' : Device.Pool Nat}
    (found : pool.threads[1]? =
      some [.onBinary sampleRoom (.delete 0 greetingId)])
    (stepped : (manager idCodec id).exec pool (1, calm []) = some pool') :
    (deviceSystem idCodec id).step pool
      (.run (.onBinary sampleRoom (.delete 0 greetingId)) (calm [])) pool' := by
  obtain ⟨act, rest, found', step⟩ := Program.exec_step stepped
  obtain ⟨rfl, -⟩ := List.cons.inj (Option.some.inj (found'.symm.trans found))
  exact step

/-- The text is deleted and stays away while nothing happens. -/
theorem deleted_message_stays_away_quiet :
    ∃ last : Device.Pool Nat, last.acts = [] ∧
      last.shared.shown sampleRoom greetingId = none ∧
      (.deleteMessage sampleRoom greetingId ∉ last.acts →
        last.shared.store.get? sampleRoom greetingId = none) := by
  obtain ⟨before, pool, played, pool', stepped, found, clear, after, last,
    playedAfter, labels, done⟩ : ∃ before pool,
      (manager idCodec id).play ⟨.blank, []⟩ greetedMoves =
        some (before, pool) ∧ ∃ pool',
      (manager idCodec id).exec pool (1, calm []) = some pool' ∧
      pool.threads[1]? =
        some [.onBinary sampleRoom (.delete 0 greetingId)] ∧
      pool.acts = [.onBinary sampleRoom (.delete 0 greetingId)] ∧
      ∃ after last,
      (manager idCodec id).play pool' [.run 1 (calm [])] =
        some (after, last) ∧
      after = [(pool', .run (.deleteMessage sampleRoom greetingId)
        (calm []))] ∧ last.acts = [] ∧
      pool'.acts = [.deleteMessage sampleRoom greetingId] := by
    refine ⟨_, _, rfl, _, rfl, rfl, rfl, _, _, rfl, rfl, rfl, rfl⟩
  obtain ⟨done, waiting⟩ := done
  have spared : ((deviceSystem idCodec id).restrict
      (SparesDeleted idCodec sampleRoom greetingId)).Run pool' after last := by
    refine Lts.run_restrict_iff.mpr ⟨?_, ?_⟩
    · exact Program.play_run (by simp) playedAfter
    · intro entry member
      rw [labels] at member
      obtain rfl := List.mem_singleton.mp member
      intro _ _ act pending
      rw [waiting] at pending
      obtain rfl := List.mem_singleton.mp pending
      exact False.elim
  refine ⟨last, done, ?_⟩
  have deletes : Deletes sampleRoom greetingId
      (.run (.onBinary sampleRoom (.delete 0 greetingId)) (calm [])) :=
    ⟨rfl, rfl, rfl⟩
  refine deleted_message_stays_away ⟨rfl, rfl, rfl, rfl, rfl⟩
    (greeted_run played) deletes (delete_step found stepped) ?_ spared
  intro act member
  rw [clear] at member
  obtain rfl := List.mem_singleton.mp member
  exact False.elim

/-- The text frame arrives a second time after its delete has been applied:
the message is shown and stored again. -/
theorem deleted_message_returns :
    ∃ (before after : Device.Trace Nat) (pool pool' last : Device.Pool Nat),
      (deviceSystem idCodec id).Run ⟨.blank, []⟩ before pool ∧
      (deviceSystem idCodec id).step pool
        (.run (.onBinary sampleRoom (.delete 0 greetingId)) (calm [])) pool' ∧
      (∀ act ∈ pool.acts, ¬ act.Carries sampleRoom greetingId) ∧
      (deviceSystem idCodec id).Run pool' after last ∧ last.acts = [] ∧
      (∃ entry ∈ after,
        entry.1.shared.shown sampleRoom greetingId = none ∧
        entry.1.shared.store.get? sampleRoom greetingId = none) ∧
      last.shared.shown sampleRoom greetingId = some greetingRow ∧
      last.shared.store.get? sampleRoom greetingId = some greetingRow := by
  obtain ⟨before, pool, played, pool', stepped, found, clear, after, last,
    playedAfter, done, absent, shown, stored⟩ : ∃ before pool,
      (manager idCodec id).play ⟨.blank, []⟩ greetedMoves =
        some (before, pool) ∧ ∃ pool',
      (manager idCodec id).exec pool (1, calm []) = some pool' ∧
      pool.threads[1]? =
        some [.onBinary sampleRoom (.delete 0 greetingId)] ∧
      pool.acts = [.onBinary sampleRoom (.delete 0 greetingId)] ∧
      ∃ after last,
      (manager idCodec id).play pool' [.run 1 (calm []),
        .spawn (.onBinary sampleRoom greeting), .run 2 (calm []),
        .run 2 (calm []), .run 2 (calm [])] = some (after, last) ∧
      last.acts = [] ∧
      (∃ entry ∈ after,
        entry.1.shared.shown sampleRoom greetingId = none ∧
        entry.1.shared.store.get? sampleRoom greetingId = none) ∧
      last.shared.shown sampleRoom greetingId = some greetingRow ∧
      last.shared.store.get? sampleRoom greetingId = some greetingRow := by
    refine ⟨_, _, rfl, _, rfl, rfl, rfl, _, _, rfl, rfl, ?_, rfl, rfl⟩
    exact ⟨_, List.mem_cons_of_mem _ List.mem_cons_self, rfl, rfl⟩
  refine ⟨before, after, pool, pool', last, greeted_run played,
    delete_step found stepped, ?_, ?_, done, absent, shown, stored⟩
  · intro act member
    rw [clear] at member
    obtain rfl := List.mem_singleton.mp member
    exact False.elim
  · refine Program.play_run ?_ playedAfter
    intro act member
    obtain rfl : act = .onBinary sampleRoom greeting := by
      simpa using member
    constructor

end Byteln.Client

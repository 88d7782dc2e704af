import Byteln.Client.Assembly
import Byteln.Client.Manager

/-!
# What the activations of the manager start

An activation starts few others.  `Starts` lists them with what is known of
them where they start; the invariants of the runs of a device are proved by
cases on it.
-/

namespace Byteln.Client

open Byteln.Library

variable {ν : Type}

/-- The message a text or image frame is stored as. -/
def PlainMessage.stored? (uuid : JSString) :
    PlainMessage ν → Option (StoredMessage ν)
  | .text msg =>
      let id := msg.id.getD uuid
      some ⟨.text { msg with id := some id }, id, .peer⟩
  | .image msg =>
      let id := msg.id.getD uuid
      some ⟨.image { msg with id := some id }, id, .peer⟩
  | _ => none

namespace Device

/-- The message of this id that the interface shows. -/
def shown (device : Device ν) (bucketId id : JSString) :
    Option (StoredMessage ν) :=
  KeyedList.lookup StoredMessage.id (device.getMessages bucketId) id

/-- The chunk is the last one its bundle waits for. -/
def Completes (device : Device ν) (chunk : HistoryChunkPlainMessage) : Prop :=
  match device.pendingHistory.get? chunk.id with
  | none => chunk.index = 0 ∧ chunk.total ≤ 1
  | some pending =>
      ∀ index, index ≠ chunk.index → pending.parts[index]? ≠ some none

/-- The room's session is for the request. -/
def Active (device : Device ν) (bucketId requestId : JSString) : Prop :=
  ∃ session, device.resyncSessions.get? bucketId = some session ∧
    session.requestId = requestId

variable [LinearOrder ν]

inductive Starts (codec : HistoryCodec ν) (nfc : JSString → JSString)
    (outside : Outside ν) (device : Device ν) :
    Activation ν → Activation ν → Prop where
  | shown {b plain} {stored : StoredMessage ν} :
      plain.stored? outside.uuid = some stored →
      device.shown b stored.id = none →
      Starts codec nfc outside device (.onBinary b plain)
        (.addMessage b stored)
  | trustFirst (b plain) :
      Starts codec nfc outside device (.onBinary b plain)
        (.trustFirstPeerDeviceFp b)
  | trust (act b fp) :
      Starts codec nfc outside device act (.setLastPeerDeviceFp b fp)
  | peerDeletes (b ts id) :
      Starts codec nfc outside device (.onBinary b (.delete ts id))
        (.deleteMessage b id)
  | prompt (b id ts deviceFp fp) :
      Starts codec nfc outside device
        (.onBinary b (.resyncRequest ts id deviceFp)) (.showPrompt b id ts fp)
  | peerWipes (b ts id) :
      Starts codec nfc outside device (.onBinary b (.wipeHistory ts id))
        (.wipeLocalHistory b)
  | peerWiped (b ts id) :
      Starts codec nfc outside device (.onBinary b (.wipeHistory ts id))
        (.showPartnerWiped b)
  | peerAccepts {b id} (ts ids) :
      device.Active b id →
      Starts codec nfc outside device (.onBinary b (.resyncAccept ts id ids))
        (.idsSend b id (device.getMessages b) ids)
  | peerLists {b id} (ts ids role expecting) :
      device.Active b id →
      Starts codec nfc outside device (.onBinary b (.resyncIds ts id ids))
        (.pushPack b id role (filterMessagesByIds (device.getMessages b)
          (idsOnlyInA ((device.getMessages b).map StoredMessage.id) ids))
          expecting)
  | unpack {b chunk} (assembled) :
      device.Completes chunk →
      Starts codec nfc outside device (.onBinary b (.historyChunk chunk))
        (.unpackHistory b (bundleRequestId chunk.id) assembled)
  | delivered (b) (stored : StoredMessage ν) :
      Starts codec nfc outside device (.deliverIncoming b stored)
        (.appendMessage b stored)
  | outgoing (b) (stored : StoredMessage ν) :
      Starts codec nfc outside device (.startOutgoing b stored)
        (.appendMessage b stored)
  | sendText (b body replyTo) :
      Starts codec nfc outside device (.send b body replyTo)
        (.sendText b outside.uuid
          ⟨outside.ts, body, some outside.uuid, replyTo⟩)
  | sentText (b id) (plain : TextPlainMessage ν) :
      Starts codec nfc outside device (.sendText b id plain)
        (.addMessage b ⟨.text plain, id, .self⟩)
  | sendDelete (b id ts) :
      Starts codec nfc outside device (.sendDelete b id) (.deleteSend b id ts)
  | sentDelete (b id ts) :
      Starts codec nfc outside device (.deleteSend b id ts)
        (.deleteMessage b id)
  | request (b fp) :
      Starts codec nfc outside device (.requestResync b)
        (.requestSend b outside.uuid fp)
  | reject {b prompt} :
      device.resyncPrompts.get? b = some prompt →
      Starts codec nfc outside device (.respondResync b false)
        (.rejectSend b prompt.requestId)
  | acceptIds {b prompt} :
      device.resyncPrompts.get? b = some prompt →
      Starts codec nfc outside device (.respondResync b true)
        (.acceptIds b prompt.requestId)
  | accept {b prompt} :
      device.resyncPrompts.get? b = some prompt →
      Starts codec nfc outside device (.respondResync b true)
        (.acceptSend b prompt.requestId (device.myIds b))
  | accepted (b id) :
      Starts codec nfc outside device (.acceptIds b id)
        (.acceptSend b id (device.myIds b))
  | pushPack (b id msgs ids role expecting) :
      Starts codec nfc outside device (.idsSend b id msgs ids)
        (.pushPack b id role (filterMessagesByIds msgs
          (idsOnlyInA (msgs.map StoredMessage.id) ids)) expecting)
  | packed (b id role msgs expecting chunk rest) :
      Starts codec nfc outside device (.pushPack b id role msgs expecting)
        (.pushChunk b id chunk rest expecting)
  | pushed (b id chunk rest expecting) :
      Starts codec nfc outside device (.pushChunk b id chunk rest expecting)
        (.pushSent b id rest expecting)
  | pushNext (b id chunk rest expecting) :
      Starts codec nfc outside device
        (.pushSent b id (chunk :: rest) expecting)
        (.pushChunk b id chunk rest expecting)
  | merge {b id assembled msgs} :
      codec.unpackMessagesFromSync assembled = some msgs →
      Starts codec nfc outside device (.unpackHistory b id assembled)
        (.mergeMessages b id
          ((device.store.listMessages nfc b).map StoredMessage.id) msgs)
  | mergeSeen {b id seen msgs} {m : StoredMessage ν} :
      m.id ∈ seen →
      Starts codec nfc outside device (.mergeMessages b id seen (m :: msgs))
        (.mergeMessages b id seen msgs)
  | merged {b id seen msgs} {m : StoredMessage ν} :
      m.id ∉ seen →
      Starts codec nfc outside device (.mergeMessages b id seen (m :: msgs))
        (.mergeMessages b id (m.id :: seen) msgs)
  | showMerged (b id seen) :
      Starts codec nfc outside device (.mergeMessages b id seen [])
        (.showMerged b id (device.store.listMessages nfc b))
  | deleteRows (b wiping) :
      Starts codec nfc outside device (.deleteMessagesForBucket b wiping)
        (.deleteRows b
          ((device.store.listMessages nfc b).map StoredMessage.id) wiping)
  | wipeRows (b) :
      Starts codec nfc outside device (.wipeLocalHistory b)
        (.deleteMessagesForBucket b true)
  | showWiped (b ids) :
      Starts codec nfc outside device (.deleteRows b ids true) (.showWiped b)
  | wipeOwn (b) :
      Starts codec nfc outside device (.wipeBothHistories b)
        (.wipeLocalHistory b)
  | wipeSend (b) :
      Starts codec nfc outside device (.wipeBothHistories b)
        (.wipeSend b outside.uuid)
  | wipeSent (b id) :
      Starts codec nfc outside device (.wipeSend b id) (.wipeLocalHistory b)
  | opened (b) :
      Starts codec nfc outside device (.openRoom b)
        (.showOpened b (device.store.listMessages nfc b))
  | forgetRecord (b) :
      Starts codec nfc outside device (.forgetRoom b) (.removeRoom b)
  | forgetRows (b) :
      Starts codec nfc outside device (.forgetRoom b)
        (.deleteMessagesForBucket b false)

/-! ## The functions of the manager -/

section Functions

variable {codec : HistoryCodec ν} {nfc : JSString → JSString}
  {outside : Outside ν} {device : Device ν} {b r : JSString}
  {act : Activation ν}

omit [LinearOrder ν] in
theorem shown_none_iff {id : JSString} :
    device.shown b id = none ↔
      ((device.getMessages b).any fun m => m.id = id) = false := by
  simp [shown, KeyedList.lookup_none_iff]

theorem appendMessage_cases (device : Device ν) (b : JSString)
    (stored : StoredMessage ν) :
    device.shown b stored.id ≠ none ∧
        device.appendMessage b stored = (device, false) ∨
      device.shown b stored.id = none ∧ device.appendMessage b stored =
        (device.syncMessages b (device.getMessages b ++ [stored]), true) := by
  unfold appendMessage
  dsimp only
  split
  · rename_i present
    refine .inl ⟨?_, rfl⟩
    rw [ne_eq, shown_none_iff, present]
    exact Bool.noConfusion
  · rename_i absent
    refine .inr ⟨?_, rfl⟩
    rw [shown_none_iff]
    exact Bool.eq_false_iff.mpr absent

/-- Assembling succeeds only when every part is there. -/
theorem completes_of_filled {parts : List (Option Bytes)} {size index : Nat}
    {data assembled : Bytes} {offset : Nat}
    (filled : assemble size (parts.set index (some data)) [] =
      .filled assembled offset) :
    ∀ other, other ≠ index → parts[other]? ≠ some none := by
  obtain ⟨held, equal, -⟩ := assemble_filled filled
  intro other different missing
  have stored : (parts.set index (some data))[other]? = some none := by
    rw [List.getElem?_set_ne (Ne.symm different)]
    exact missing
  rw [equal] at stored
  simp at stored

theorem appendMessage_store (device : Device ν) (b : JSString)
    (stored : StoredMessage ν) :
    (device.appendMessage b stored).1.store = device.store := by
  unfold appendMessage
  dsimp only
  split <;> rfl

theorem storeText_store (device : Device ν) (b : JSString)
    (stored : StoredMessage ν) :
    (device.storeText b stored).1.store = device.store := by
  have kept := appendMessage_store device b stored
  unfold storeText
  split <;> rename_i appended <;> rwa [appended] at kept

omit [LinearOrder ν] in
theorem receivePart_starts {chunk : HistoryChunkPlainMessage}
    {pending : PendingHistory}
    (started : act ∈ (device.receivePart b chunk pending).2) :
    chunk.index < pending.total ∧
      (∀ index, index ≠ chunk.index → pending.parts[index]? ≠ some none) ∧
      ∃ assembled,
        act = .unpackHistory b (bundleRequestId chunk.id) assembled := by
  unfold receivePart at started
  split at started
  · cases started
  · rename_i inBounds
    split at started
    · cases started
    · dsimp only at started
      split at started
      · cases started
      · cases started
      · rename_i assembled _ filled
        exact ⟨Nat.not_le.mp inBounds, completes_of_filled filled, assembled,
          List.mem_singleton.mp started⟩

omit [LinearOrder ν] in
/-- Only the last chunk of a bundle starts its merge. -/
theorem handleHistoryChunk_starts {chunk : HistoryChunkPlainMessage}
    (started : act ∈ (device.handleHistoryChunk b chunk).2) :
    device.Completes chunk ∧ ∃ assembled,
      act = .unpackHistory b (bundleRequestId chunk.id) assembled := by
  unfold handleHistoryChunk at started
  split at started
  · rename_i absent
    rw [Completes, absent]
    split at started
    · cases started
    · rename_i first
      split at started
      · cases started
      · obtain ⟨inBounds, complete, unpack⟩ := receivePart_starts started
        dsimp only at inBounds complete
        refine ⟨⟨Decidable.not_not.mp first, ?_⟩, unpack⟩
        by_contra more
        have notFirst : (1 : Nat) ≠ chunk.index := by
          rw [Decidable.not_not.mp first]
          exact Nat.one_ne_zero
        apply complete 1 notFirst
        simp [Nat.not_le.mp more]
  · rename_i pending found
    rw [Completes, found]
    split at started
    · cases started
    · obtain ⟨-, complete, unpack⟩ := receivePart_starts started
      exact ⟨complete, unpack⟩

omit [LinearOrder ν] in
theorem finishResyncIfDone_starts
    (started : act ∈ (device.finishResyncIfDone b r).2) :
    ∃ fp, act = .setLastPeerDeviceFp b fp := by
  unfold finishResyncIfDone at started
  split at started
  · cases started
  · dsimp only [trustPeerDeviceFp] at started
    split at started
    · exact ⟨_, List.mem_singleton.mp started⟩
    · cases started

omit [LinearOrder ν] in
theorem pushNext_starts {expecting : Bool}
    {chunks : List HistoryChunkPlainMessage}
    (started : act ∈ (device.pushNext outside b r expecting chunks).2) :
    (∃ fp, act = .setLastPeerDeviceFp b fp) ∨
      ∃ chunk rest, chunks = chunk :: rest ∧
        act = .pushChunk b r chunk rest expecting := by
  cases chunks with
  | nil =>
      dsimp only [pushNext] at started
      split at started
      · cases started
      · exact .inl (finishResyncIfDone_starts started)
  | cons chunk rest =>
      dsimp only [pushNext] at started
      split at started
      · cases started
      · exact .inr ⟨chunk, rest, rfl, List.mem_singleton.mp started⟩

omit [LinearOrder ν] in
theorem runDifferentialPush_starts {msgs : List (StoredMessage ν)}
    {ids : List JSString}
    (started : act ∈ (device.runDifferentialPush outside b r msgs ids).2) :
    ∃ role expecting, act = .pushPack b r role (filterMessagesByIds msgs
      (idsOnlyInA (msgs.map StoredMessage.id) ids)) expecting := by
  unfold runDifferentialPush at started
  split at started
  · cases started
  · exact ⟨_, _, List.mem_singleton.mp started⟩

theorem storeText_starts {stored : StoredMessage ν}
    (started : act ∈ (device.storeText b stored).2) :
    device.shown b stored.id = none ∧
      (act = .addMessage b stored ∨ act = .trustFirstPeerDeviceFp b) := by
  unfold storeText at started
  rcases appendMessage_cases device b stored with
    ⟨-, kept⟩ | ⟨absent, appended⟩
  · rw [kept] at started
    cases started
  · rw [appended] at started
    exact ⟨absent, by simpa using started⟩

theorem onBinary_starts {plain : PlainMessage ν}
    (started : act ∈ (device.onBinary outside b plain).2) :
    device.Starts codec nfc outside (.onBinary b plain) act := by
  unfold onBinary at started
  split at started
  · cases started
  · cases plain with
    | text msg =>
        obtain ⟨absent, rfl | rfl⟩ := storeText_starts started
        · exact .shown rfl absent
        · exact .trustFirst _ _
    | image msg =>
        obtain ⟨absent, rfl | rfl⟩ := storeText_starts started
        · exact .shown rfl absent
        · exact .trustFirst _ _
    | delete ts id =>
        obtain rfl := List.mem_singleton.mp started
        exact .peerDeletes _ _ _
    | resyncRequest ts id deviceFp =>
        obtain rfl := List.mem_singleton.mp started
        exact .prompt _ _ _ _ _
    | wipeHistory ts id =>
        have either : act = .wipeLocalHistory b ∨ act = .showPartnerWiped b := by
          simpa using started
        rcases either with rfl | rfl
        · exact .peerWipes _ _ _
        · exact .peerWiped _ _ _
    | resyncAccept ts id ids =>
        dsimp only [onResyncAccept] at started
        split at started
        · cases started
        · rename_i session found
          split at started
          · cases started
          · rename_i checked
            obtain rfl := List.mem_singleton.mp started
            simp only [Bool.or_eq_true, decide_eq_true_eq, not_or, not_not]
              at checked
            exact .peerAccepts _ _ ⟨session, found, checked.1.2⟩
    | resyncIds ts id ids =>
        dsimp only [onResyncIds] at started
        split at started
        · cases started
        · rename_i session found
          split at started
          · cases started
          · rename_i checked
            obtain ⟨role, expecting, rfl⟩ := runDifferentialPush_starts started
            simp only [Bool.or_eq_true, decide_eq_true_eq, not_or, not_not]
              at checked
            exact .peerLists _ _ _ _ ⟨session, found, checked.1⟩
    | historyChunk chunk =>
        obtain ⟨complete, assembled, rfl⟩ := handleHistoryChunk_starts started
        exact .unpack _ complete
    | historyDigest | resyncReject | file | xferChunk | xferAck | xferQuery
    | xferCancel | imageChunk => cases started

/-- What a step starts. -/
theorem next_starts {act' : Activation ν}
    (started : act' ∈ (act.next codec nfc outside device).2) :
    device.Starts codec nfc outside act act' := by
  cases act with
  | onBinary b plain => exact onBinary_starts started
  | trustFirstPeerDeviceFp b =>
      dsimp only [Activation.next, trustFirstPeerDeviceFp] at started
      split at started
      · split at started
        · obtain rfl := List.mem_singleton.mp started
          exact .trust _ _ _
        · cases started
      · cases started
  | deliverIncoming b stored =>
      obtain rfl := List.mem_singleton.mp started
      exact .delivered _ _
  | startOutgoing b stored =>
      dsimp only [Activation.next] at started
      split at started
      · cases started
      · obtain rfl := List.mem_singleton.mp started
        exact .outgoing _ _
      · obtain rfl := List.mem_singleton.mp started
        exact .outgoing _ _
  | send b body replyTo =>
      dsimp only [Activation.next] at started
      split at started
      · cases started
      · obtain rfl := List.mem_singleton.mp started
        exact .sendText _ _ _
  | sendText b id plain =>
      obtain rfl := List.mem_singleton.mp started
      exact .sentText _ _ _
  | sendDelete b id =>
      dsimp only [Activation.next] at started
      split at started
      · cases started
      · obtain rfl := List.mem_singleton.mp started
        exact .sendDelete _ _ _
  | deleteSend b id ts =>
      obtain rfl := List.mem_singleton.mp started
      exact .sentDelete _ _ _
  | requestResync b =>
      dsimp only [Activation.next, requestResync] at started
      split at started
      · cases started
      · split at started
        · split at started
          · cases started
          · obtain rfl := List.mem_singleton.mp started
            exact .request _ _
        · obtain rfl := List.mem_singleton.mp started
          exact .request _ _
  | respondResync b accept =>
      dsimp only [Activation.next, respondResync] at started
      split at started
      · cases started
      · rename_i prompt pending
        split at started
        · cases started
        · cases accept with
          | false =>
              obtain rfl := List.mem_singleton.mp started
              exact .reject pending
          | true =>
              simp only [Bool.not_true, Bool.false_eq_true, if_false]
                at started
              split at started
              · rename_i fp _
                have either : act' = .setLastPeerDeviceFp b (some fp) ∨
                    act' = .acceptIds b prompt.requestId := by
                  simpa using started
                rcases either with rfl | rfl
                · exact .trust _ _ _
                · exact .acceptIds pending
              · obtain rfl := List.mem_singleton.mp started
                exact .accept pending
  | acceptIds b id =>
      obtain rfl := List.mem_singleton.mp started
      exact .accepted _ _
  | idsSend b id msgs ids =>
      obtain ⟨role, expecting, rfl⟩ := runDifferentialPush_starts started
      exact .pushPack _ _ _ _ _ _
  | pushPack b id role toSend expecting =>
      dsimp only [Activation.next, pushPack] at started
      split at started
      · cases started
      · rcases pushNext_starts started with ⟨fp, rfl⟩ | ⟨chunk, rest, -, rfl⟩
        · exact .trust _ _ _
        · exact .packed _ _ _ _ _ _ _
  | pushChunk b id chunk rest expecting =>
      dsimp only [Activation.next, pushChunk] at started
      split at started
      · cases started
      · obtain rfl := List.mem_singleton.mp started
        exact .pushed _ _ _ _ _
  | pushSent b id rest expecting =>
      dsimp only [Activation.next, pushSent] at started
      split at started
      · cases started
      · rcases pushNext_starts started with ⟨fp, rfl⟩ | ⟨chunk, rest, rfl, rfl⟩
        · exact .trust _ _ _
        · exact .pushNext _ _ _ _ _
  | unpackHistory b id assembled =>
      dsimp only [Activation.next, unpackHistory] at started
      split at started
      · cases started
      · rename_i unpacked
        obtain rfl := List.mem_singleton.mp started
        exact .merge unpacked
  | mergeMessages b id seen msgs =>
      cases msgs with
      | nil =>
          obtain rfl := List.mem_singleton.mp started
          exact .showMerged _ _ _
      | cons m msgs =>
          dsimp only [Activation.next, mergeMessages] at started
          split at started
          · rename_i known
            obtain rfl := List.mem_singleton.mp started
            exact .mergeSeen known
          · rename_i new
            obtain rfl := List.mem_singleton.mp started
            exact .merged new
  | showMerged b id all =>
      obtain ⟨fp, rfl⟩ := finishResyncIfDone_starts started
      exact .trust _ _ _
  | deleteMessagesForBucket b wiping =>
      obtain rfl := List.mem_singleton.mp started
      exact .deleteRows _ _
  | deleteRows b ids wiping =>
      cases wiping with
      | false => cases started
      | true =>
          obtain rfl := List.mem_singleton.mp started
          exact .showWiped _ _
  | wipeLocalHistory b =>
      obtain rfl := List.mem_singleton.mp started
      exact .wipeRows _
  | showWiped b =>
      obtain rfl := List.mem_singleton.mp started
      exact .trust _ _ _
  | wipeBothHistories b =>
      dsimp only [Activation.next] at started
      split at started
      · obtain rfl := List.mem_singleton.mp started
        exact .wipeOwn _
      · obtain rfl := List.mem_singleton.mp started
        exact .wipeSend _
  | wipeSend b id =>
      obtain rfl := List.mem_singleton.mp started
      exact .wipeSent _ _
  | openRoom b =>
      obtain rfl := List.mem_singleton.mp started
      exact .opened _
  | forgetRoom b =>
      have either : act' = .removeRoom b ∨
          act' = .deleteMessagesForBucket b false := by
        simpa [Activation.next] using started
      rcases either with rfl | rfl
      · exact .forgetRecord _
      · exact .forgetRows _
  | addMessage | setLastPeerDeviceFp | appendMessage | deleteMessage
  | requestSend | rejectSend | acceptSend | showPrompt
  | showPartnerWiped | showOpened | closeRoom | removeRoom
  | releaseSeatForSwitch => cases started

end Functions

/-! ## Memory and rows -/

/-- Every room shows its messages in order, each id once. -/
def Tidy (device : Device ν) : Prop :=
  ∀ b, Ordered (device.getMessages b)

/-- What a step does to the messages in memory. -/
inductive MemoryStep (outside : Outside ν) (device device' : Device ν) :
    Activation ν → Prop where
  | kept (act) :
      device'.messagesByBucket = device.messagesByBucket →
      MemoryStep outside device device' act
  | frame {b plain} {stored : StoredMessage ν} :
      plain.stored? outside.uuid = some stored →
      device.shown b stored.id = none →
      (∀ b' id, device'.shown b' id =
        if b' = b ∧ id = stored.id then some stored
        else device.shown b' id) →
      MemoryStep outside device device' (.onBinary b plain)
  | sent {b id} {plain : TextPlainMessage ν} :
      device.shown b id = none →
      (∀ b' id', device'.shown b' id' =
        if b' = b ∧ id' = id then some ⟨.text plain, id, .self⟩
        else device.shown b' id') →
      MemoryStep outside device device' (.sendText b id plain)
  | append {b} {stored : StoredMessage ν} :
      device.shown b stored.id = none →
      (∀ b' id, device'.shown b' id =
        if b' = b ∧ id = stored.id then some stored
        else device.shown b' id) →
      MemoryStep outside device device' (.appendMessage b stored)
  | peerDelete {b ts id} :
      (∀ b' id', device'.shown b' id' =
        if b' = b ∧ id' = id then none else device.shown b' id') →
      MemoryStep outside device device' (.onBinary b (.delete ts id))
  | delete {b id ts} :
      (∀ b' id', device'.shown b' id' =
        if b' = b ∧ id' = id then none else device.shown b' id') →
      MemoryStep outside device device' (.deleteSend b id ts)
  | merged {b r} {all : List (StoredMessage ν)} :
      (∀ b' id, device'.shown b' id =
        if b' = b then KeyedList.lookup StoredMessage.id all.reverse id
        else device.shown b' id) →
      MemoryStep outside device device' (.showMerged b r all)
  | wiped {b} :
      (∀ b' id, device'.shown b' id =
        if b' = b then none else device.shown b' id) →
      MemoryStep outside device device' (.showWiped b)
  | opened {b} {all : List (StoredMessage ν)} :
      (∀ b' id, device'.shown b' id =
        if b' = b then KeyedList.lookup StoredMessage.id all.reverse id
        else device.shown b' id) →
      MemoryStep outside device device' (.showOpened b all)
  | closed {b} :
      (∀ b' id, device'.shown b' id =
        if b' = b then none else device.shown b' id) →
      MemoryStep outside device device' (.closeRoom b)
  | forgotten {b} :
      (∀ b' id, device'.shown b' id =
        if b' = b then none else device.shown b' id) →
      MemoryStep outside device device' (.forgetRoom b)

/-- What a step does to the rows. -/
inductive StoreStep (device device' : Device ν) : Activation ν → Prop where
  | kept (act) : device'.store = device.store → StoreStep device device' act
  | stored {b} {m : StoredMessage ν} :
      device'.store = device.store.addMessage b m →
      StoreStep device device' (.addMessage b m)
  | delivered {b} {m : StoredMessage ν} :
      device'.store = device.store.addMessage b m →
      StoreStep device device' (.deliverIncoming b m)
  | outgoing {b} {m : StoredMessage ν} :
      device'.store = device.store.addMessage b m →
      StoreStep device device' (.startOutgoing b m)
  | merged {b r seen msgs} {m : StoredMessage ν} :
      m.id ∉ seen →
      device'.store = device.store.addMessage b m →
      StoreStep device device' (.mergeMessages b r seen (m :: msgs))
  | deleted {b id} :
      device'.store = device.store.deleteMessage b id →
      StoreStep device device' (.deleteMessage b id)
  | rowsDeleted {b ids wiping} :
      device'.store = device.store.deleteMessages b ids →
      StoreStep device device' (.deleteRows b ids wiping)

section Effects

variable {codec : HistoryCodec ν} {nfc : JSString → JSString}
  {outside : Outside ν} {device device' : Device ν} {b r : JSString}
  {act : Activation ν}

theorem getMessages_syncMessages (msgs : List (StoredMessage ν))
    (b' : JSString) :
    (device.syncMessages b msgs).getMessages b' =
      if b' = b then
        sortMessages (KeyedList.latest StoredMessage.id msgs)
      else device.getMessages b' := by
  unfold getMessages syncMessages
  rw [InsertionMap.get?_set]
  split <;> rfl

theorem shown_syncMessages (msgs : List (StoredMessage ν))
    (b' id : JSString) :
    (device.syncMessages b msgs).shown b' id =
      if b' = b then KeyedList.lookup StoredMessage.id msgs.reverse id
      else device.shown b' id := by
  unfold shown
  rw [getMessages_syncMessages]
  split
  · rw [lookup_sortMessages (KeyedList.distinct_latest _),
      KeyedList.lookup_latest]
  · rfl

theorem Tidy.syncMessages (tidy : device.Tidy)
    (msgs : List (StoredMessage ν)) : (device.syncMessages b msgs).Tidy := by
  intro b'
  rw [getMessages_syncMessages]
  split
  · exact sortMessages_ordered (KeyedList.distinct_latest _)
  · exact tidy b'

omit [LinearOrder ν] in
theorem Tidy.congr (tidy : device.Tidy)
    (messages : device'.messagesByBucket = device.messagesByBucket) :
    device'.Tidy := by
  intro b
  have ordered := tidy b
  unfold getMessages at ordered ⊢
  rwa [messages]

omit [LinearOrder ν] in
theorem shown_congr
    (messages : device'.messagesByBucket = device.messagesByBucket)
    (b id : JSString) : device'.shown b id = device.shown b id := by
  unfold shown getMessages
  rw [messages]

theorem shown_append (tidy : device.Tidy) {stored : StoredMessage ν}
    (absent : device.shown b stored.id = none) (b' id : JSString) :
    (device.syncMessages b (device.getMessages b ++ [stored])).shown b' id =
      if b' = b ∧ id = stored.id then some stored
      else device.shown b' id := by
  rw [shown_syncMessages]
  by_cases here : b' = b
  · subst here
    have distinct := (tidy b').distinct
    rw [if_pos rfl, List.reverse_append, List.reverse_singleton,
      List.singleton_append, KeyedList.lookup_cons,
      distinct.lookup_perm (List.reverse_perm _).symm]
    by_cases same : stored.id = id
    · simp [same]
    · simp [same, Ne.symm same, shown]
  · simp [here]

theorem shown_filter (tidy : device.Tidy) (id : JSString) (b' id' : JSString) :
    (device.syncMessages b ((device.getMessages b).filter
        fun m => m.id ≠ id)).shown b' id' =
      if b' = b ∧ id' = id then none else device.shown b' id' := by
  rw [shown_syncMessages]
  by_cases here : b' = b
  · subst here
    have distinct := (tidy b').distinct.filter fun m => m.id ≠ id
    rw [if_pos rfl, distinct.lookup_perm (List.reverse_perm _).symm,
      KeyedList.lookup_filter_key _ fun k => decide (k ≠ id)]
    by_cases same : id' = id
    · simp [same]
    · simp [same, shown]
  · simp [here]

theorem shown_applyDelete (tidy : device.Tidy) (id b' id' : JSString) :
    (device.applyDelete b id).1.shown b' id' =
      if b' = b ∧ id' = id then none else device.shown b' id' := by
  unfold applyDelete
  dsimp only
  split
  · exact shown_filter tidy id b' id'
  · rename_i allKept
    by_cases here : b' = b ∧ id' = id
    · obtain ⟨rfl, rfl⟩ := here
      rw [if_pos ⟨rfl, rfl⟩]
      refine KeyedList.lookup_none_iff.mpr fun m member => ?_
      have kept := List.filter_eq_self.mp
        (List.filter_sublist.eq_of_length (Decidable.not_not.mp allKept))
      simpa using kept m member
    · rw [if_neg here]

theorem Tidy.applyDelete (tidy : device.Tidy) (id : JSString) :
    (device.applyDelete b id).1.Tidy := by
  unfold Device.applyDelete
  dsimp only
  split
  · exact tidy.syncMessages _
  · exact tidy

omit [LinearOrder ν] in
theorem Tidy.erase (tidy : device.Tidy)
    (messages : device'.messagesByBucket = device.messagesByBucket.erase b) :
    device'.Tidy := by
  intro b'
  have ordered := tidy b'
  unfold getMessages at ordered ⊢
  rw [messages, InsertionMap.get?_erase]
  split
  · exact List.Pairwise.nil
  · exact ordered

omit [LinearOrder ν] in
theorem shown_erase
    (messages : device'.messagesByBucket = device.messagesByBucket.erase b)
    (b' id : JSString) :
    device'.shown b' id = if b' = b then none else device.shown b' id := by
  unfold shown getMessages
  rw [messages, InsertionMap.get?_erase]
  split <;> rfl

/-- Neither the memory nor the rows changed. -/
def SameHistory (device device' : Device ν) : Prop :=
  device'.messagesByBucket = device.messagesByBucket ∧
    device'.store = device.store

omit [LinearOrder ν] in
theorem finishResyncIfDone_history :
    device.SameHistory (device.finishResyncIfDone b r).1 := by
  unfold finishResyncIfDone
  split
  · exact ⟨rfl, rfl⟩
  · exact ⟨rfl, rfl⟩

omit [LinearOrder ν] in
theorem pushNext_history {expecting : Bool}
    {chunks : List HistoryChunkPlainMessage} :
    device.SameHistory
      (device.pushNext outside b r expecting chunks).1 := by
  cases chunks with
  | nil =>
      dsimp only [pushNext]
      split
      · exact ⟨rfl, rfl⟩
      · exact finishResyncIfDone_history
  | cons chunk rest =>
      dsimp only [pushNext]
      split
      · exact ⟨rfl, rfl⟩
      · exact ⟨rfl, rfl⟩

omit [LinearOrder ν] in
theorem runDifferentialPush_history {msgs : List (StoredMessage ν)}
    {ids : List JSString} :
    device.SameHistory
      (device.runDifferentialPush outside b r msgs ids).1 := by
  unfold runDifferentialPush
  split
  · exact ⟨rfl, rfl⟩
  · exact ⟨rfl, rfl⟩

omit [LinearOrder ν] in
theorem receivePart_history {chunk : HistoryChunkPlainMessage}
    {pending : PendingHistory} :
    device.SameHistory (device.receivePart b chunk pending).1 := by
  unfold receivePart
  split
  · exact ⟨rfl, rfl⟩
  · split
    · exact ⟨rfl, rfl⟩
    · dsimp only
      split <;> exact ⟨rfl, rfl⟩

omit [LinearOrder ν] in
theorem handleHistoryChunk_history {chunk : HistoryChunkPlainMessage} :
    device.SameHistory (device.handleHistoryChunk b chunk).1 := by
  unfold handleHistoryChunk
  split
  · split
    · exact ⟨rfl, rfl⟩
    · split
      · exact ⟨rfl, rfl⟩
      · exact receivePart_history
  · split
    · exact ⟨rfl, rfl⟩
    · exact receivePart_history

omit [LinearOrder ν] in
theorem clearTransfersForBucket_history :
    device.SameHistory (device.clearTransfersForBucket b) := by
  unfold clearTransfersForBucket
  split <;> exact ⟨rfl, rfl⟩

/-- Frames other than texts, images and deletes leave the history alone. -/
theorem onBinary_history {plain : PlainMessage ν}
    (noMessage : plain.stored? outside.uuid = none)
    (noDelete : ∀ ts id, plain ≠ .delete ts id) :
    device.SameHistory (device.onBinary outside b plain).1 := by
  unfold onBinary
  split
  · exact ⟨rfl, rfl⟩
  · cases plain with
    | text | image => cases noMessage
    | delete ts id => exact absurd rfl (noDelete ts id)
    | historyDigest digest =>
        dsimp only
        split <;> exact ⟨rfl, rfl⟩
    | resyncReject ts id reason =>
        dsimp only [onResyncReject]
        split
        · exact ⟨rfl, rfl⟩
        · split <;> exact ⟨rfl, rfl⟩
    | resyncAccept ts id ids =>
        dsimp only [onResyncAccept]
        split
        · exact ⟨rfl, rfl⟩
        · split <;> exact ⟨rfl, rfl⟩
    | resyncIds ts id ids =>
        dsimp only [onResyncIds]
        split
        · exact ⟨rfl, rfl⟩
        · split
          · exact ⟨rfl, rfl⟩
          · exact runDifferentialPush_history
    | historyChunk chunk => exact handleHistoryChunk_history
    | file | imageChunk | xferChunk | xferAck | xferQuery | xferCancel
    | resyncRequest | wipeHistory => exact ⟨rfl, rfl⟩

omit [LinearOrder ν] in
theorem closeRoom_messages (device : Device ν) (b : JSString) :
    (device.closeRoom b).messagesByBucket =
      device.messagesByBucket.erase b := by
  dsimp only [closeRoom]
  rw [clearTransfersForBucket_history.1]

omit [LinearOrder ν] in
private theorem keeps (tidy : device.Tidy)
    (messages : device'.messagesByBucket = device.messagesByBucket) :
    device'.Tidy ∧ MemoryStep outside device device' act :=
  ⟨tidy.congr messages, .kept _ messages⟩

/-- A text or image frame is dropped, or shown and about to be stored. -/
theorem onBinary_text {plain : PlainMessage ν} {stored : StoredMessage ν}
    (frame : plain.stored? outside.uuid = some stored) :
    device.onBinary outside b plain = (device, []) ∨
      device.shown b stored.id = none ∧
        device.onBinary outside b plain =
          (device.syncMessages b (device.getMessages b ++ [stored]),
            [.addMessage b stored, .trustFirstPeerDeviceFp b]) := by
  have stores : device.onBinary outside b plain = (device, []) ∨
      device.onBinary outside b plain = device.storeText b stored := by
    cases plain with
    | text msg | image msg =>
        unfold onBinary
        split
        · exact .inl rfl
        · exact .inr (by rw [← Option.some.inj frame])
    | _ => cases frame
  rcases stores with closed | stores
  · exact .inl closed
  · rw [stores]
    unfold storeText
    rcases appendMessage_cases device b stored with
      ⟨-, kept⟩ | ⟨absent, appended⟩
    · exact .inl (by rw [kept])
    · exact .inr ⟨absent, by rw [appended]⟩

theorem onBinary_delete (ts : ν) (id : JSString) :
    device.onBinary outside b (.delete ts id) = (device, []) ∨
      device.onBinary outside b (.delete ts id) = device.applyDelete b id := by
  unfold onBinary
  split
  · exact .inl rfl
  · exact .inr rfl

theorem onBinary_memory (tidy : device.Tidy) (plain : PlainMessage ν) :
    (device.onBinary outside b plain).1.Tidy ∧
      MemoryStep outside device (device.onBinary outside b plain).1
        (.onBinary b plain) := by
  cases frame : plain.stored? outside.uuid with
  | none =>
      by_cases deletes : ∃ ts id, plain = .delete ts id
      · obtain ⟨ts, id, rfl⟩ := deletes
        unfold onBinary
        split
        · exact keeps tidy rfl
        · exact ⟨tidy.applyDelete id, .peerDelete (shown_applyDelete tidy id)⟩
      · have noDelete : ∀ ts id, plain ≠ .delete ts id :=
          fun ts id same => deletes ⟨ts, id, same⟩
        exact keeps tidy (onBinary_history frame noDelete).1
  | some stored =>
      rcases onBinary_text frame with kept | ⟨absent, appended⟩
      · rw [kept]
        exact keeps tidy rfl
      · rw [appended]
        exact ⟨tidy.syncMessages _,
          .frame frame absent (shown_append tidy absent)⟩

variable (codec nfc outside act) in
theorem next_memory (tidy : device.Tidy) :
    (act.next codec nfc outside device).1.Tidy ∧
      MemoryStep outside device (act.next codec nfc outside device).1 act := by
  cases act with
  | onBinary b plain => exact onBinary_memory tidy plain
  | sendText b id plain =>
      have emitted : (device.emit b (.text plain)).Tidy := tidy
      dsimp only [Activation.next, sendText]
      rcases appendMessage_cases (device.emit b (.text plain))
        b ⟨.text plain, id, .self⟩ with ⟨-, kept⟩ | ⟨absent, appended⟩
      · rw [kept]
        exact keeps tidy rfl
      · rw [appended]
        exact ⟨emitted.syncMessages _,
          .sent absent (shown_append emitted absent)⟩
  | appendMessage b stored =>
      dsimp only [Activation.next]
      rcases appendMessage_cases device b stored with
        ⟨-, kept⟩ | ⟨absent, appended⟩
      · rw [kept]
        exact keeps tidy rfl
      · rw [appended]
        exact ⟨tidy.syncMessages _, .append absent (shown_append tidy absent)⟩
  | deleteSend b id ts =>
      have emitted : (device.emit b (.delete ts id)).Tidy := tidy
      exact ⟨emitted.applyDelete id, .delete (shown_applyDelete emitted id)⟩
  | showMerged b r all =>
      have same : (device.showMerged b r all).1.messagesByBucket =
          (device.syncMessages b all).messagesByBucket :=
        finishResyncIfDone_history.1
      refine ⟨(tidy.syncMessages all).congr same, .merged fun b' id => ?_⟩
      exact (shown_congr same b' id).trans (shown_syncMessages all b' id)
  | showWiped b =>
      have same : (device.showWiped b).messagesByBucket =
          (device.syncMessages b []).messagesByBucket := rfl
      refine ⟨(tidy.syncMessages []).congr same, .wiped fun b' id => ?_⟩
      exact (shown_congr same b' id).trans (shown_syncMessages [] b' id)
  | showOpened b all =>
      exact ⟨tidy.syncMessages all, .opened (shown_syncMessages all)⟩
  | closeRoom b =>
      have erased := closeRoom_messages device b
      exact ⟨tidy.erase erased, .closed (shown_erase erased)⟩
  | forgetRoom b =>
      have erased := closeRoom_messages device b
      exact ⟨tidy.erase erased, .forgotten (shown_erase erased)⟩
  | setLastPeerDeviceFp b fp =>
      refine keeps tidy ?_
      dsimp only [Activation.next, setLastPeerDeviceFp]
      split <;> rfl
  | startOutgoing b stored =>
      refine keeps tidy ?_
      dsimp only [Activation.next]
      split <;> rfl
  | send | sendDelete | wipeBothHistories =>
      refine keeps tidy ?_
      dsimp only [Activation.next]
      split <;> rfl
  | respondResync b accept =>
      refine keeps tidy ?_
      dsimp only [Activation.next, respondResync]
      split
      · rfl
      · split
        · rfl
        · cases accept with
          | false => rfl
          | true =>
              simp only [Bool.not_true, Bool.false_eq_true, if_false]
              split <;> rfl
  | idsSend b r msgs ids => exact keeps tidy runDifferentialPush_history.1
  | pushPack b r role toSend expecting =>
      refine keeps tidy ?_
      dsimp only [Activation.next, pushPack]
      split
      · rfl
      · exact pushNext_history.1
  | pushChunk b r chunk rest expecting =>
      refine keeps tidy ?_
      dsimp only [Activation.next, pushChunk]
      split <;> rfl
  | pushSent b r rest expecting =>
      refine keeps tidy ?_
      dsimp only [Activation.next, pushSent]
      split
      · rfl
      · exact pushNext_history.1
  | unpackHistory b r assembled =>
      refine keeps tidy ?_
      dsimp only [Activation.next, unpackHistory]
      split <;> rfl
  | mergeMessages b r seen msgs =>
      refine keeps tidy ?_
      cases msgs with
      | nil => rfl
      | cons m msgs =>
          dsimp only [Activation.next, mergeMessages]
          split <;> rfl
  | releaseSeatForSwitch b => exact keeps tidy clearTransfersForBucket_history.1
  | _ => exact keeps tidy rfl

variable (codec nfc outside device act) in
theorem next_store :
    StoreStep device (act.next codec nfc outside device).1 act := by
  cases act with
  | onBinary b plain =>
      refine .kept _ ?_
      cases frame : plain.stored? outside.uuid with
      | none =>
          by_cases deletes : ∃ ts id, plain = .delete ts id
          · obtain ⟨ts, id, rfl⟩ := deletes
            dsimp only [Activation.next, onBinary]
            split
            · rfl
            · dsimp only [applyDelete]
              split <;> rfl
          · have noDelete : ∀ ts id, plain ≠ .delete ts id :=
              fun ts id same => deletes ⟨ts, id, same⟩
            exact (onBinary_history frame noDelete).2
      | some stored =>
          cases plain with
          | text msg | image msg =>
              dsimp only [Activation.next, onBinary]
              split
              · rfl
              · exact storeText_store device b _
          | _ => cases frame
  | addMessage b m => exact .stored rfl
  | deliverIncoming b m => exact .delivered rfl
  | startOutgoing b m =>
      dsimp only [Activation.next]
      split
      · exact .kept _ rfl
      · exact .outgoing rfl
      · exact .outgoing rfl
  | sendText b id plain =>
      exact .kept _ (appendMessage_store (device.emit b (.text plain)) b _)
  | appendMessage b stored =>
      exact .kept _ (appendMessage_store device b stored)
  | deleteSend b id ts =>
      refine .kept _ ?_
      dsimp only [Activation.next, applyDelete]
      split <;> rfl
  | deleteMessage b id => exact .deleted rfl
  | deleteRows b ids wiping => exact .rowsDeleted rfl
  | mergeMessages b r seen msgs =>
      cases msgs with
      | nil => exact .kept _ rfl
      | cons m msgs =>
          dsimp only [Activation.next, mergeMessages]
          split
          · exact .kept _ rfl
          · rename_i new
            exact .merged new rfl
  | showMerged b r all => exact .kept _ finishResyncIfDone_history.2
  | closeRoom b | forgetRoom b =>
      exact .kept _ clearTransfersForBucket_history.2
  | setLastPeerDeviceFp b fp =>
      refine .kept _ ?_
      dsimp only [Activation.next, setLastPeerDeviceFp]
      split <;> rfl
  | send | sendDelete | wipeBothHistories =>
      refine .kept _ ?_
      dsimp only [Activation.next]
      split <;> rfl
  | respondResync b accept =>
      refine .kept _ ?_
      dsimp only [Activation.next, respondResync]
      split
      · rfl
      · split
        · rfl
        · cases accept with
          | false => rfl
          | true =>
              simp only [Bool.not_true, Bool.false_eq_true, if_false]
              split <;> rfl
  | idsSend b r msgs ids => exact .kept _ runDifferentialPush_history.2
  | pushPack b r role toSend expecting =>
      refine .kept _ ?_
      dsimp only [Activation.next, pushPack]
      split
      · rfl
      · exact pushNext_history.2
  | pushChunk b r chunk rest expecting =>
      refine .kept _ ?_
      dsimp only [Activation.next, pushChunk]
      split <;> rfl
  | pushSent b r rest expecting =>
      refine .kept _ ?_
      dsimp only [Activation.next, pushSent]
      split
      · rfl
      · exact pushNext_history.2
  | unpackHistory b r assembled =>
      refine .kept _ ?_
      dsimp only [Activation.next, unpackHistory]
      split <;> rfl
  | releaseSeatForSwitch b => exact .kept _ clearTransfersForBucket_history.2
  | _ => exact .kept _ rfl

end Effects

end Device

end Byteln.Client

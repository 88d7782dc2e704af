import Byteln.Client.Manager

/-!
# Consent to a resync

The ids and the contents of a room's messages leave the device in three kinds
of frames.  Whatever frames the peer sends and however the handlers
interleave, the device sends them only for a request of its own user or for
one its user has accepted while it was the pending prompt.
-/

namespace Byteln.Client

open Byteln.Library

variable {ν : Type}

/-- The chunk is one of a bundle pushed for the request. -/
def HistoryChunkPlainMessage.BelongsTo (requestId : JSString)
    (chunk : HistoryChunkPlainMessage) : Prop :=
  ∃ role : ResyncRole, chunk.id = requestId ++ js ":" ++ role.text

/-- The frame tells the peer ids or contents of messages, for the request. -/
inductive PlainMessage.Discloses (requestId : JSString) :
    PlainMessage ν → Prop where
  | accept (ts : ν) (ids : List JSString) :
      Discloses requestId (.resyncAccept ts requestId ids)
  | ids (ts : ν) (ids : List JSString) :
      Discloses requestId (.resyncIds ts requestId ids)
  | chunk {chunk : HistoryChunkPlainMessage} :
      chunk.BelongsTo requestId → Discloses requestId (.historyChunk chunk)

/-- The kinds of frames that tell the peer ids or contents of messages. -/
def PlainMessage.isDisclosure : PlainMessage ν → Bool
  | .resyncAccept .. | .resyncIds .. | .historyChunk _ => true
  | _ => false

theorem splitHistoryChunks_belong {requestId : JSString} {role : ResyncRole}
    {compressed : Bytes} :
    ∀ chunk ∈ splitHistoryChunks (requestId ++ js ":" ++ role.text) compressed,
      chunk.BelongsTo requestId := by
  intro chunk member
  obtain ⟨index, -, rfl⟩ := List.mem_map.mp member
  exact ⟨role, rfl⟩

/-- The activation acts for requests that are granted only. -/
def Activation.Within (granted : JSString → JSString → Prop) :
    Activation ν → Prop
  | .requestSend b r _ | .acceptIds b r | .acceptSend b r _
  | .idsSend b r _ _ | .pushPack b r _ _ _ => granted b r
  | .pushChunk b r chunk rest _ =>
      granted b r ∧ ∀ c ∈ chunk :: rest, c.BelongsTo r
  | .pushSent b r rest _ => granted b r ∧ ∀ c ∈ rest, c.BelongsTo r
  | _ => True

theorem Activation.Within.mono {granted granted' : JSString → JSString → Prop}
    (wider : ∀ b r, granted b r → granted' b r) {act : Activation ν}
    (within : act.Within granted) : act.Within granted' := by
  cases act with
  | requestSend | acceptIds | acceptSend | idsSend | pushPack =>
      exact wider _ _ within
  | pushChunk | pushSent => exact ⟨wider _ _ within.1, within.2⟩
  | _ => trivial

/-- Every session of the device, and every disclosure it has sent, is for a
granted request. -/
structure Device.Within (granted : JSString → JSString → Prop)
    (device : Device ν) : Prop where
  sessions : ∀ b session, device.resyncSessions.get? b = some session →
    granted b session.requestId
  disclosed : ∀ b plain, (b, plain) ∈ device.sent →
    plain.isDisclosure = true → ∃ r, granted b r ∧ plain.Discloses r

/-- What a step leaves is for granted requests. -/
structure Outcome.Within (granted : JSString → JSString → Prop)
    (outcome : Device ν × List (Activation ν)) : Prop where
  device : outcome.1.Within granted
  acts : ∀ act ∈ outcome.2, act.Within granted

/-! ## What each function keeps -/

section Functions

variable {granted : JSString → JSString → Prop} {device device' : Device ν}
  {outside : Outside ν} {b r : JSString}

theorem Device.Within.mono {granted' : JSString → JSString → Prop}
    (wider : ∀ b r, granted b r → granted' b r)
    (within : device.Within granted) : device.Within granted' where
  sessions := fun b session found => wider _ _ (within.sessions b session found)
  disclosed := by
    intro b plain member discloses
    obtain ⟨r, allowed, belongs⟩ := within.disclosed b plain member discloses
    exact ⟨r, wider b r allowed, belongs⟩

theorem Device.Within.frame (within : device.Within granted)
    (sessions : device'.resyncSessions = device.resyncSessions)
    (sent : device'.sent = device.sent) : device'.Within granted where
  sessions := sessions ▸ within.sessions
  disclosed := sent ▸ within.disclosed

theorem Device.Within.erase (within : device.Within granted)
    (sessions : device'.resyncSessions = device.resyncSessions.erase b)
    (sent : device'.sent = device.sent) : device'.Within granted where
  sessions := by
    intro other session found
    rw [sessions, InsertionMap.get?_erase] at found
    split at found
    · cases found
    · exact within.sessions other session found
  disclosed := sent ▸ within.disclosed

theorem Device.Within.set (within : device.Within granted)
    {session : ResyncSession}
    (sessions : device'.resyncSessions = device.resyncSessions.set b session)
    (sent : device'.sent = device.sent)
    (allowed : granted b session.requestId) : device'.Within granted where
  sessions := by
    intro other session' found
    rw [sessions, InsertionMap.get?_set] at found
    split at found
    · rename_i same
      rw [same, ← Option.some.inj found]
      exact allowed
    · exact within.sessions other session' found
  disclosed := sent ▸ within.disclosed

theorem Device.Within.emit (within : device.Within granted)
    {plain : PlainMessage ν}
    (allowed : plain.isDisclosure = true →
      ∃ r, granted b r ∧ plain.Discloses r) :
    (device.emit b plain).Within granted where
  sessions := within.sessions
  disclosed := by
    intro other plain' member discloses
    rcases List.mem_append.mp member with earlier | last
    · exact within.disclosed other plain' earlier discloses
    · obtain ⟨rfl, rfl⟩ := Prod.mk.inj (List.mem_singleton.mp last)
      exact allowed discloses

theorem Outcome.Within.idle (within : device.Within granted) :
    Outcome.Within granted (device, []) :=
  ⟨within, by simp⟩

theorem Outcome.Within.single (within : device.Within granted)
    {act : Activation ν} (actWithin : act.Within granted) :
    Outcome.Within granted (device, [act]) :=
  ⟨within, by simpa using actWithin⟩

theorem within_respondResync (within : device.Within granted) {accept : Bool}
    (allowed : accept = true → ∀ prompt, device.resyncPrompts.get? b =
      some prompt → granted b prompt.requestId) :
    Outcome.Within granted (device.respondResync outside b accept) := by
  unfold Device.respondResync
  split
  · exact .idle within
  · rename_i prompt pending
    split
    · exact .idle within
    · have within' : { device with
          resyncPrompts := device.resyncPrompts.erase b }.Within granted :=
        within.frame rfl rfl
      cases accept with
      | false => exact .single within' trivial
      | true =>
          have grant := allowed rfl prompt pending
          simp only [Bool.not_true, Bool.false_eq_true, if_false]
          split
          · exact ⟨within', by simp [Activation.Within, grant]⟩
          · exact .single within' grant

theorem within_finishResyncIfDone (within : device.Within granted) :
    Outcome.Within granted (device.finishResyncIfDone b r) := by
  unfold Device.finishResyncIfDone
  split
  · exact .idle within
  · refine ⟨within.erase rfl rfl, ?_⟩
    intro act member
    dsimp only [Device.trustPeerDeviceFp] at member
    split at member
    · obtain rfl := List.mem_singleton.mp member
      trivial
    · cases member

theorem within_failPush (within : device.Within granted) :
    (device.failPush b r).Within granted :=
  within.erase rfl rfl

theorem within_pushNext (within : device.Within granted)
    (allowed : granted b r) {expecting : Bool}
    {chunks : List HistoryChunkPlainMessage}
    (belong : ∀ c ∈ chunks, c.BelongsTo r) :
    Outcome.Within granted
      (device.pushNext outside b r expecting chunks) := by
  cases chunks with
  | nil =>
      dsimp only [Device.pushNext]
      split
      · exact .idle within
      · exact within_finishResyncIfDone within
  | cons chunk rest =>
      dsimp only [Device.pushNext]
      split
      · exact .idle (within_failPush within)
      · refine .single within ?_
        exact ⟨allowed, belong⟩

theorem within_runDifferentialPush (within : device.Within granted)
    (allowed : granted b r) (msgs : List (StoredMessage ν))
    (ids : List JSString) :
    Outcome.Within granted
      (device.runDifferentialPush outside b r msgs ids) := by
  unfold Device.runDifferentialPush
  split
  · exact .idle (within.frame rfl rfl)
  · refine .single ?_ ?_
    · exact within.frame rfl rfl
    · exact allowed

theorem within_touchSession (within : device.Within granted)
    {session : ResyncSession} (allowed : granted b session.requestId) :
    (device.touchSession b session outside.now).Within granted := by
  have stored : (device.touchSession b session outside.now).resyncSessions =
      device.resyncSessions.set b { session with updatedAt := outside.now } :=
    rfl
  exact within.set stored rfl allowed

theorem within_onResyncAccept (within : device.Within granted)
    (ids : List JSString) :
    Outcome.Within granted (device.onResyncAccept outside b r ids) := by
  unfold Device.onResyncAccept
  split
  · exact .idle within
  · rename_i session found
    have allowed := within.sessions b session found
    split
    · exact .idle within
    · rename_i checked
      have sameRequest : session.requestId = r := by
        simp only [Bool.or_eq_true, decide_eq_true_eq, not_or, not_not]
          at checked
        exact checked.1.2
      refine .single (within_touchSession within allowed) ?_
      exact sameRequest ▸ allowed

theorem within_onResyncIds (within : device.Within granted)
    (ids : List JSString) :
    Outcome.Within granted (device.onResyncIds outside b r ids) := by
  unfold Device.onResyncIds
  split
  · exact .idle within
  · rename_i session found
    have allowed := within.sessions b session found
    split
    · exact .idle within
    · rename_i checked
      have sameRequest : session.requestId = r := by
        simp only [Bool.or_eq_true, decide_eq_true_eq, not_or, not_not]
          at checked
        exact checked.1
      refine within_runDifferentialPush (within_touchSession within allowed)
        ?_ _ _
      exact sameRequest ▸ allowed

/-- Receiving a bundle starts no work but its merge. -/
theorem within_receivePart (within : device.Within granted)
    (chunk : HistoryChunkPlainMessage) (pending : PendingHistory) :
    Outcome.Within granted (device.receivePart b chunk pending) := by
  unfold Device.receivePart
  split
  · exact .idle within
  · split
    · exact .idle within
    · simp only
      split
      · exact .idle (within.frame rfl rfl)
      · exact .idle (within.frame rfl rfl)
      · refine .single ?_ ?_
        · exact within.frame rfl rfl
        · exact trivial

theorem within_handleHistoryChunk (within : device.Within granted)
    (chunk : HistoryChunkPlainMessage) :
    Outcome.Within granted (device.handleHistoryChunk b chunk) := by
  unfold Device.handleHistoryChunk
  split
  · split
    · exact .idle within
    · split
      · exact .idle within
      · apply within_receivePart
        exact within.frame rfl rfl
  · split
    · exact .idle within
    · exact within_receivePart within _ _

theorem within_clearTransfersForBucket (within : device.Within granted) :
    (device.clearTransfersForBucket b).Within granted := by
  unfold Device.clearTransfersForBucket
  split
  · exact within.erase rfl rfl
  · exact within.erase rfl rfl

theorem eq_of_mem_requestResync {act : Activation ν}
    (member : act ∈ device.requestResync outside b) :
    act = .requestSend b outside.uuid outside.deviceFp := by
  unfold Device.requestResync at member
  split at member
  · cases member
  · split at member
    · split at member
      · cases member
      · exact List.mem_singleton.mp member
    · exact List.mem_singleton.mp member

variable [LinearOrder ν]

theorem appendMessage_frame (device : Device ν) (b : JSString)
    (stored : StoredMessage ν) :
    (device.appendMessage b stored).1.resyncSessions = device.resyncSessions ∧
      (device.appendMessage b stored).1.sent = device.sent := by
  unfold Device.appendMessage
  dsimp only
  split
  · exact ⟨rfl, rfl⟩
  · exact ⟨rfl, rfl⟩

theorem within_storeText (within : device.Within granted)
    (stored : StoredMessage ν) :
    Outcome.Within granted (device.storeText b stored) := by
  have frame := appendMessage_frame device b stored
  unfold Device.storeText
  cases appended : device.appendMessage b stored with
  | mk next inserted =>
      rw [appended] at frame
      have within' := within.frame frame.1 frame.2
      cases inserted with
      | false => exact .idle within'
      | true => exact ⟨within', by simp [Activation.Within]⟩

theorem within_applyDelete (within : device.Within granted) (id : JSString) :
    Outcome.Within granted (device.applyDelete b id) := by
  refine ⟨?_, by simp [Device.applyDelete, Activation.Within]⟩
  unfold Device.applyDelete
  dsimp only
  split
  · exact within.frame rfl rfl
  · exact within

theorem within_mergeMessages (nfc : JSString → JSString)
    (within : device.Within granted) (seen : List JSString)
    (msgs : List (StoredMessage ν)) :
    Outcome.Within granted (device.mergeMessages nfc b r seen msgs) := by
  cases msgs with
  | nil => exact .single within trivial
  | cons m msgs =>
      dsimp only [Device.mergeMessages]
      split
      · exact .single within trivial
      · refine .single ?_ ?_
        · exact within.frame rfl rfl
        · exact trivial

theorem within_onBinary (within : device.Within granted)
    (plain : PlainMessage ν) :
    Outcome.Within granted (device.onBinary outside b plain) := by
  unfold Device.onBinary
  split
  · exact .idle within
  · cases plain with
    | delete _ id => exact within_applyDelete within id
    | historyDigest digest =>
        refine .idle ?_
        split
        · exact within.frame rfl rfl
        · exact within
    | resyncRequest => exact .single within trivial
    | wipeHistory => exact ⟨within, by simp [Activation.Within]⟩
    | resyncReject _ id =>
        refine .idle ?_
        unfold Device.onResyncReject
        split
        · exact within
        · split
          · exact within
          · exact within.erase rfl rfl
    | resyncAccept _ id ids => exact within_onResyncAccept within ids
    | resyncIds _ id ids => exact within_onResyncIds within ids
    | historyChunk chunk => exact within_handleHistoryChunk within chunk
    | text | image => exact within_storeText within _
    | xferChunk | xferAck | xferQuery | xferCancel | imageChunk | file =>
        exact .idle within

/-- A step acts for granted requests only, once the request it may start or
accept is granted. -/
theorem within_next (codec : HistoryCodec ν) (nfc : JSString → JSString)
    {act : Activation ν} (within : device.Within granted)
    (actWithin : act.Within granted)
    (requested : ∀ b r fp, act = .requestResync b →
      .requestSend b r fp ∈ device.requestResync outside b → granted b r)
    (accepted : ∀ b prompt, act = .respondResync b true →
      device.resyncPrompts.get? b = some prompt →
      granted b prompt.requestId) :
    Outcome.Within granted (act.next codec nfc outside device) := by
  cases act with
  | onBinary b plain => exact within_onBinary within plain
  | addMessage | deleteMessage | removeRoom | showPartnerWiped
  | showOpened | showPrompt =>
      refine .idle ?_
      exact within.frame rfl rfl
  | trustFirstPeerDeviceFp b =>
      refine ⟨within, ?_⟩
      intro act member
      dsimp only [Activation.next, Device.trustFirstPeerDeviceFp] at member
      split at member
      · split at member
        · obtain rfl := List.mem_singleton.mp member
          trivial
        · cases member
      · cases member
  | setLastPeerDeviceFp b fp =>
      refine .idle ?_
      unfold Device.setLastPeerDeviceFp
      split
      · exact within.frame rfl rfl
      · exact within
  | deliverIncoming =>
      refine .single ?_ ?_
      · exact within.frame rfl rfl
      · trivial
  | startOutgoing b stored =>
      dsimp only [Activation.next]
      split
      · exact .idle within
      · refine .single ?_ ?_
        · exact within.frame rfl rfl
        · trivial
      · refine .single ?_ ?_
        · exact within.frame rfl rfl
        · trivial
  | appendMessage b stored =>
      have frame := appendMessage_frame device b stored
      exact .idle (within.frame frame.1 frame.2)
  | send | sendDelete =>
      dsimp only [Activation.next]
      split
      · exact .idle within
      · refine .single within ?_
        trivial
  | sendText b id plain =>
      have within' : (device.emit b (.text plain)).Within granted :=
        within.emit fun discloses => by cases discloses
      have frame := appendMessage_frame (device.emit b (.text plain))
        b ⟨.text plain, id, .self⟩
      refine .single ?_ ?_
      · exact within'.frame frame.1 frame.2
      · trivial
  | deleteSend b id ts =>
      refine within_applyDelete ?_ id
      exact within.emit fun discloses => by cases discloses
  | requestResync b =>
      refine ⟨within, ?_⟩
      intro act member
      obtain rfl := eq_of_mem_requestResync member
      exact requested b _ _ rfl member
  | requestSend b id deviceFp =>
      refine .idle ?_
      have emitted : (device.emit b (.resyncRequest outside.ts id
          (truthy deviceFp))).Within granted :=
        within.emit fun discloses => by cases discloses
      exact emitted.set (b := b) rfl rfl actWithin
  | respondResync b accept =>
      refine within_respondResync within ?_
      rintro rfl prompt pending
      exact accepted b prompt rfl pending
  | rejectSend b id =>
      refine .idle ?_
      exact within.emit fun discloses => by cases discloses
  | acceptIds b id => exact .single within actWithin
  | acceptSend b id ids =>
      refine .idle ?_
      have emitted : (device.emit b
          (.resyncAccept outside.ts id ids)).Within granted :=
        within.emit fun _ => ⟨id, actWithin, .accept _ _⟩
      exact emitted.set (b := b) rfl rfl actWithin
  | idsSend b id myMsgs peerIds =>
      refine within_runDifferentialPush ?_ actWithin _ _
      exact within.emit fun _ => ⟨id, actWithin, .ids _ _⟩
  | pushPack b id role toSend expecting =>
      dsimp only [Activation.next, Device.pushPack]
      split
      · exact .idle (within_failPush within)
      · exact within_pushNext within actWithin splitHistoryChunks_belong
  | pushChunk b id chunk rest expecting =>
      dsimp only [Activation.next, Device.pushChunk]
      split
      · exact .idle (within_failPush within)
      · refine .single ?_ ?_
        · exact within.emit fun _ =>
            ⟨id, actWithin.1, .chunk (actWithin.2 chunk (by simp))⟩
        · exact ⟨actWithin.1, fun c member =>
            actWithin.2 c (List.mem_cons_of_mem _ member)⟩
  | pushSent b id rest expecting =>
      dsimp only [Activation.next, Device.pushSent]
      split
      · exact .idle (within_failPush within)
      · refine within_pushNext ?_ actWithin.1 actWithin.2
        exact within.frame rfl rfl
  | unpackHistory b id assembled =>
      dsimp only [Activation.next, Device.unpackHistory]
      split
      · refine .idle ?_
        exact within.erase rfl rfl
      · refine .single within ?_
        trivial
  | mergeMessages b id seen msgs =>
      exact within_mergeMessages nfc within seen msgs
  | showMerged b id all =>
      apply within_finishResyncIfDone
      exact within.frame rfl rfl
  | deleteMessagesForBucket | openRoom | wipeLocalHistory =>
      refine .single within ?_
      trivial
  | deleteRows b ids wiping =>
      cases wiping with
      | false =>
          refine .idle ?_
          exact within.frame rfl rfl
      | true =>
          refine .single ?_ ?_
          · exact within.frame rfl rfl
          · trivial
  | showWiped =>
      refine .single ?_ ?_
      · exact within.erase rfl rfl
      · trivial
  | wipeBothHistories =>
      dsimp only [Activation.next]
      split
      · refine .single within ?_
        trivial
      · refine .single within ?_
        trivial
  | wipeSend b id =>
      refine .single ?_ ?_
      · exact within.emit fun discloses => by cases discloses
      · trivial
  | closeRoom b =>
      refine .idle ?_
      exact (within_clearTransfersForBucket within).frame rfl rfl
  | forgetRoom b =>
      refine ⟨?_, by simp [Activation.next, Activation.Within]⟩
      exact (within_clearTransfersForBucket within).frame rfl rfl
  | releaseSeatForSwitch b =>
      exact .idle (within_clearTransfersForBucket within)

end Functions

/-! ## Runs -/

section Runs

variable [LinearOrder ν] (codec : HistoryCodec ν) (nfc : JSString → JSString)

/-- A device whose page has just been loaded: its rows and room records are
what an earlier session left, everything else is empty. -/
structure Device.Loaded (device : Device ν) : Prop where
  messagesByBucket : device.messagesByBucket = .empty
  resyncSessions : device.resyncSessions = .empty
  resyncPrompts : device.resyncPrompts = .empty
  pendingHistory : device.pendingHistory = .empty
  sent : device.sent = []

/-- The device's program from a freshly loaded page. -/
def deviceSystem :
    Lts (Device.Pool ν) (PoolLabel (Activation ν) (Outside ν)) :=
  (manager codec nfc).system fun pool =>
    pool.shared.Loaded ∧ pool.threads = []

/-- The step is the user's call of `requestResync` that makes up the request
id, or the user's `respondResync(true)` while that request is the pending
prompt. -/
def Consents (b r : JSString) :
    Device.Pool ν → PoolLabel (Activation ν) (Outside ν) → Prop
  | pool, .run (.requestResync b') outside =>
      b' = b ∧ ∃ fp, .requestSend b r fp ∈
        pool.shared.requestResync outside b
  | pool, .run (.respondResync b' true) _ =>
      b' = b ∧ ∃ prompt, pool.shared.resyncPrompts.get? b = some prompt ∧
        prompt.requestId = r
  | _, _ => False

/-- The user has consented to the resync of the request. -/
def Consented (trace : Device.Trace ν) (b r : JSString) : Prop :=
  ∃ entry ∈ trace, Consents b r entry.1 entry.2

omit [LinearOrder ν] in
theorem Consented.append
    {trace : Device.Trace ν}
    {entry : Device.Pool ν × PoolLabel (Activation ν) (Outside ν)} :
    ∀ b r, Consented trace b r → Consented (trace ++ [entry]) b r := by
  rintro b r ⟨earlier, member, consents⟩
  exact ⟨earlier, List.mem_append_left _ member, consents⟩

/-- The invariant of every run: sessions, disclosures and the work in progress
are for requests the user has consented to. -/
def ConsentInvariant (trace : Device.Trace ν)
    (device : Device ν) (acts : List (Activation ν)) : Prop :=
  device.Within (Consented trace) ∧ ∀ act ∈ acts, act.Within (Consented trace)

variable {codec nfc}

theorem consentInvariant_of_run
    {condition : Device.Pool ν → PoolLabel (Activation ν) (Outside ν) → Prop}
    {start pool : Device.Pool ν}
    {trace : Device.Trace ν}
    (loaded : start.shared.Loaded) (idle : start.threads = [])
    (run : ((deviceSystem codec nfc).restrict condition).Run start trace
      pool) :
    ConsentInvariant trace pool.shared pool.acts := by
  refine Program.run_invariant (manager codec nfc)
    (fun trace device acts => ConsentInvariant trace device acts)
    ?_ ?_ ?_ ?_ run
  · intro trace shared acts acts' perm invariant
    exact ⟨invariant.1, fun act member =>
      invariant.2 act (perm.mem_iff.mpr member)⟩
  · intro trace pool act entry _ invariant
    refine ⟨invariant.1.mono Consented.append, ?_⟩
    intro other member
    rcases List.mem_cons.mp member with rfl | earlier
    · cases entry <;> trivial
    · exact (invariant.2 other earlier).mono Consented.append
  · intro trace pool act outside shared' acts others _ invariant next _
    obtain ⟨within, actsWithin⟩ := invariant
    have outcome : Outcome.Within
        (Consented (trace ++ [(pool, .run act outside)]))
        (act.next codec nfc outside pool.shared) := within_next codec nfc
      (within.mono Consented.append)
      ((actsWithin act (by simp)).mono Consented.append)
      (by
        rintro b r fp rfl started
        exact ⟨_, List.mem_append_right _ (List.mem_singleton_self _),
          rfl, fp, started⟩)
      (by
        rintro b prompt rfl pending
        exact ⟨_, List.mem_append_right _ (List.mem_singleton_self _),
          rfl, prompt, pending, rfl⟩)
    obtain ⟨rfl, rfl⟩ := Prod.mk.inj (Option.some.inj next)
    refine ⟨outcome.device, ?_⟩
    intro other member
    rcases List.mem_append.mp member with new | old
    · exact outcome.acts other new
    · refine (actsWithin other ?_).mono Consented.append
      exact List.mem_cons_of_mem _ (by simpa [manager] using old)
  · refine ⟨⟨?_, ?_⟩, ?_⟩
    · intro b session found
      simp [loaded.resyncSessions] at found
    · intro b plain member
      simp [loaded.sent] at member
    · intro act member
      simp [Pool.acts, idle] at member

end Runs

/-- The device sends message ids or contents only for requests its user has
consented to before. -/
theorem disclosures_consented [LinearOrder ν] {codec : HistoryCodec ν}
    {nfc : JSString → JSString} {start pool : Device.Pool ν}
    {trace : Device.Trace ν}
    (loaded : start.shared.Loaded) (idle : start.threads = [])
    (run : (deviceSystem codec nfc).Run start trace pool)
    {b : JSString} {plain : PlainMessage ν}
    (sent : (b, plain) ∈ pool.shared.sent)
    (disclosure : plain.isDisclosure = true) :
    ∃ r, Consented trace b r ∧ plain.Discloses r := by
  have unrestricted :
      ((deviceSystem codec nfc).restrict fun _ _ => True).Run start trace
        pool :=
    Lts.run_restrict_iff.mpr ⟨run, fun _ _ => trivial⟩
  have invariant := consentInvariant_of_run loaded idle unrestricted
  exact invariant.1.disclosed b plain sent disclosure

/-- A codec for texts without a body whose ids are single code units: a byte
for each of the peer's messages. -/
def idCodec : HistoryCodec Nat where
  packMessagesForSync := fun msgs =>
    some (msgs.map fun msg => (msg.id.headD 0).toUInt8)
  unpackMessagesFromSync := fun bytes =>
    some (bytes.map fun byte =>
      ⟨.text ⟨0, [], some [byte.toUInt16], none⟩, [byte.toUInt16], .self⟩)

/-- Outside while the room is open and both peers are there. -/
def calm (uuid : JSString) : Outside Nat where
  now := 0
  ts := 0
  uuid := uuid
  deviceFp := none
  roomOpen := true
  connected := true
  peerPresent := true

def sampleRoom : JSString := js "room"

/-- A peer asks for a resync, and the user accepts it. -/
private def answered :
    List (Program.Move (Activation Nat) (Outside Nat)) :=
  [.spawn (.onBinary sampleRoom (.resyncRequest 0 (js "r") none)),
    .run 0 (calm []), .run 0 (calm []),
    .spawn (.respondResync sampleRoom true), .run 1 (calm []), .run 1 (calm [])]

/-- The accepted request is answered with the ids of the room. -/
theorem disclosures_consented_answer :
    ∃ trace, ∃ pool : Device.Pool Nat,
      (deviceSystem idCodec id).Run ⟨.blank, []⟩ trace pool ∧
        pool.shared.sent = [(sampleRoom, .resyncAccept 0 (js "r") [])] ∧
        ∃ r, Consented trace sampleRoom r ∧
          (PlainMessage.resyncAccept 0 (js "r") []).Discloses r := by
  obtain ⟨trace, pool, played, sent⟩ : ∃ trace pool,
      (manager idCodec id).play ⟨.blank, []⟩ answered = some (trace, pool) ∧
        pool.shared.sent = [(sampleRoom, .resyncAccept 0 (js "r") [])] :=
    ⟨_, _, rfl, rfl⟩
  have run : (deviceSystem idCodec id).Run ⟨.blank, []⟩ trace pool := by
    refine Program.play_run ?_ played
    intro act member
    have either : act = .onBinary sampleRoom (.resyncRequest 0 (js "r") none) ∨
        act = .respondResync sampleRoom true := by
      simpa [answered] using member
    rcases either with rfl | rfl <;> constructor
  refine ⟨trace, pool, run, sent, ?_⟩
  exact disclosures_consented ⟨rfl, rfl, rfl, rfl, rfl⟩ rfl run
    (sent ▸ List.mem_singleton_self _) rfl

end Byteln.Client

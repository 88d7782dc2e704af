import Byteln.Client.HistorySync
import Byteln.Library.ThreadPool

/-!
# The connection manager

What a device does with the decrypted frames of its rooms and with its user's
actions on their histories.  `messagesByBucket` is what the interface shows,
`store` the rows of IndexedDB.  An activation is the part of an `async`
function from one `await` to the next; an IndexedDB transaction takes effect
when it is created.  Whether a room is open and connected, the clock and fresh
ids are read from outside.  `sent` records every frame handed to a connected
client.
-/

namespace Byteln.Client

open Byteln.Library

def RESYNC_TTL_MS : Int := 2 * 60 * 1000

inductive ResyncPhase where
  | idle
  | waiting
  | transferring
  | done
  | error
deriving DecidableEq

structure ResyncStatus where
  phase : ResyncPhase
  requestId : Option JSString
deriving DecidableEq

inductive DeviceTrust where
  | same
  | new
  | unknown
deriving DecidableEq

/-- Incoming resync request awaiting an answer of the user. -/
structure ResyncPrompt (ν : Type) where
  requestId : JSString
  ts : ν
  deviceFp : Option JSString
  deviceTrust : DeviceTrust
deriving DecidableEq

structure PendingHistory where
  total : Nat
  compressedLength : Nat
  parts : List (Option Bytes)
deriving DecidableEq

inductive ResyncRole where
  | requester
  | approver
deriving DecidableEq

def ResyncRole.text : ResyncRole → JSString
  | .requester => js "requester"
  | .approver => js "approver"

structure ResyncSession where
  requestId : JSString
  role : ResyncRole
  updatedAt : Int
deriving DecidableEq

structure Device (ν : Type) where
  messagesByBucket : InsertionMap JSString (List (StoredMessage ν))
  store : MessageRows ν
  /-- `lastPeerDeviceFp` of each room record. -/
  roomRecords : InsertionMap JSString (Option JSString)
  resyncSessions : InsertionMap JSString ResyncSession
  resyncPrompts : InsertionMap JSString (ResyncPrompt ν)
  resyncStatuses : InsertionMap JSString ResyncStatus
  /-- By chunk id, for all rooms. -/
  pendingHistory : InsertionMap JSString PendingHistory
  /-- By request id: whether messages are missing from the peer. -/
  expectedHistoryRecv : InsertionMap JSString Nat
  currentPeerDeviceFp : InsertionMap JSString JSString
  sent : List (JSString × PlainMessage ν)

/-- A page that has just been loaded, on a browser without history. -/
def Device.blank {ν : Type} : Device ν where
  messagesByBucket := .empty
  store := .empty
  roomRecords := .empty
  resyncSessions := .empty
  resyncPrompts := .empty
  resyncStatuses := .empty
  pendingHistory := .empty
  expectedHistoryRecv := .empty
  currentPeerDeviceFp := .empty
  sent := []

/-- What a step reads from outside. -/
structure Outside (ν : Type) where
  now : Int
  ts : ν
  uuid : JSString
  deviceFp : Option JSString
  /-- The room is open, and its bucket is not full. -/
  roomOpen : Bool
  connected : Bool
  peerPresent : Bool

inductive Activation (ν : Type) where
  | onBinary (bucketId : JSString) (plain : PlainMessage ν)
  | addMessage (bucketId : JSString) (stored : StoredMessage ν)
  | trustFirstPeerDeviceFp (bucketId : JSString)
  | setLastPeerDeviceFp (bucketId : JSString) (fp : Option JSString)
  | deliverIncoming (bucketId : JSString) (stored : StoredMessage ν)
  | startOutgoing (bucketId : JSString) (stored : StoredMessage ν)
  | appendMessage (bucketId : JSString) (stored : StoredMessage ν)
  | send (bucketId body : JSString) (replyTo : Option ReplyRef)
  | sendText (bucketId id : JSString) (plain : TextPlainMessage ν)
  | sendDelete (bucketId messageId : JSString)
  | deleteSend (bucketId messageId : JSString) (ts : ν)
  | deleteMessage (bucketId messageId : JSString)
  | requestResync (bucketId : JSString)
  | requestSend (bucketId requestId : JSString) (deviceFp : Option JSString)
  | respondResync (bucketId : JSString) (accept : Bool)
  | rejectSend (bucketId requestId : JSString)
  | acceptIds (bucketId requestId : JSString)
  | acceptSend (bucketId requestId : JSString) (ids : List JSString)
  | showPrompt (bucketId requestId : JSString) (ts : ν) (fp : Option JSString)
  | idsSend (bucketId requestId : JSString) (myMsgs : List (StoredMessage ν))
      (peerIds : List JSString)
  | pushPack (bucketId requestId : JSString) (role : ResyncRole)
      (toSend : List (StoredMessage ν)) (expecting : Bool)
  | pushChunk (bucketId requestId : JSString)
      (chunk : HistoryChunkPlainMessage) (rest : List HistoryChunkPlainMessage)
      (expecting : Bool)
  | pushSent (bucketId requestId : JSString)
      (rest : List HistoryChunkPlainMessage) (expecting : Bool)
  | unpackHistory (bucketId requestId : JSString) (assembled : Bytes)
  | mergeMessages (bucketId requestId : JSString) (seen : List JSString)
      (msgs : List (StoredMessage ν))
  | showMerged (bucketId requestId : JSString) (all : List (StoredMessage ν))
  | deleteMessagesForBucket (bucketId : JSString) (wiping : Bool)
  | deleteRows (bucketId : JSString) (ids : List JSString) (wiping : Bool)
  | wipeLocalHistory (bucketId : JSString)
  | showWiped (bucketId : JSString)
  | showPartnerWiped (bucketId : JSString)
  | wipeBothHistories (bucketId : JSString)
  | wipeSend (bucketId id : JSString)
  | openRoom (bucketId : JSString)
  | showOpened (bucketId : JSString) (messages : List (StoredMessage ν))
  | closeRoom (bucketId : JSString)
  | forgetRoom (bucketId : JSString)
  | removeRoom (bucketId : JSString)
  | releaseSeatForSwitch (bucketId : JSString)

variable {ν : Type} [LinearOrder ν]

/-- A string the code tests for being present and not empty. -/
def truthy (text : Option JSString) : Option JSString :=
  text.filter fun text => text ≠ []

namespace Device

/-! ## Messages in memory -/

def getMessages (device : Device ν) (bucketId : JSString) :
    List (StoredMessage ν) :=
  (device.messagesByBucket.get? bucketId).getD []

def syncMessages (device : Device ν) (bucketId : JSString)
    (messages : List (StoredMessage ν)) : Device ν :=
  { device with
    messagesByBucket := device.messagesByBucket.set bucketId
      (sortMessages (KeyedList.latest StoredMessage.id messages)) }

/-- Append if the id is new; says whether it was inserted. -/
def appendMessage (device : Device ν) (bucketId : JSString)
    (stored : StoredMessage ν) : Device ν × Bool :=
  let prev := device.getMessages bucketId
  if prev.any fun m => m.id = stored.id then (device, false)
  else (device.syncMessages bucketId (prev ++ [stored]), true)

def setResyncStatus (device : Device ν) (bucketId : JSString)
    (phase : ResyncPhase) (requestId : Option JSString) : Device ν :=
  { device with
    resyncStatuses := device.resyncStatuses.set bucketId ⟨phase, requestId⟩ }

def clearTransfersForBucket (device : Device ν) (bucketId : JSString) :
    Device ν :=
  let device := match device.resyncSessions.get? bucketId with
    | none => device
    | some session =>
        { device with
          pendingHistory :=
            (device.pendingHistory.erase
              (session.requestId ++ js ":requester")).erase
              (session.requestId ++ js ":approver")
          expectedHistoryRecv :=
            device.expectedHistoryRecv.erase session.requestId }
  { device with
    resyncSessions := device.resyncSessions.erase bucketId
    currentPeerDeviceFp := device.currentPeerDeviceFp.erase bucketId
    resyncPrompts := device.resyncPrompts.erase bucketId
    resyncStatuses := device.resyncStatuses.erase bucketId }

def closeRoom (device : Device ν) (bucketId : JSString) : Device ν :=
  let device := device.clearTransfersForBucket bucketId
  { device with messagesByBucket := device.messagesByBucket.erase bucketId }

def emit (device : Device ν) (bucketId : JSString)
    (plain : PlainMessage ν) : Device ν :=
  { device with sent := device.sent ++ [(bucketId, plain)] }

/-! ## Texts and deletes -/

/-- A text or an image outside a transfer is shown first and stored after. -/
def storeText (device : Device ν) (bucketId : JSString)
    (stored : StoredMessage ν) : Device ν × List (Activation ν) :=
  match device.appendMessage bucketId stored with
  | (device, false) => (device, [])
  | (device, true) =>
      (device, [.addMessage bucketId stored, .trustFirstPeerDeviceFp bucketId])

def trustFirstPeerDeviceFp (device : Device ν) (bucketId : JSString) :
    List (Activation ν) :=
  match truthy (device.currentPeerDeviceFp.get? bucketId),
      device.roomRecords.get? bucketId with
  | some fp, some record =>
      if (truthy record).isNone then
        [.setLastPeerDeviceFp bucketId (some fp)]
      else []
  | _, _ => []

def setLastPeerDeviceFp (device : Device ν) (bucketId : JSString)
    (fp : Option JSString) : Device ν :=
  if device.roomRecords.contains bucketId then
    { device with
      roomRecords := device.roomRecords.set bucketId (truthy fp) }
  else device

/-- The trust ends where there is no fingerprint to trust. -/
def trustPeerDeviceFp (bucketId : JSString) (fp : Option JSString) :
    List (Activation ν) :=
  match truthy fp with
  | some fp => [.setLastPeerDeviceFp bucketId (some fp)]
  | none => []

def applyDelete (device : Device ν) (bucketId messageId : JSString) :
    Device ν × List (Activation ν) :=
  let prev := device.getMessages bucketId
  let next := prev.filter fun m => m.id ≠ messageId
  (if next.length ≠ prev.length then device.syncMessages bucketId next
    else device,
    [.deleteMessage bucketId messageId])

def sendText (device : Device ν) (bucketId id : JSString)
    (plain : TextPlainMessage ν) : Device ν × List (Activation ν) :=
  let stored : StoredMessage ν := ⟨.text plain, id, .self⟩
  let device := device.emit bucketId (.text plain)
  ((device.appendMessage bucketId stored).1, [.addMessage bucketId stored])

/-! ## Resync requests -/

def requestResync (device : Device ν) (outside : Outside ν)
    (bucketId : JSString) : List (Activation ν) :=
  if !(outside.connected && outside.peerPresent) then []
  else
    match device.resyncSessions.get? bucketId with
    | some existing =>
        if outside.now - existing.updatedAt < RESYNC_TTL_MS then []
        else [.requestSend bucketId outside.uuid outside.deviceFp]
    | none => [.requestSend bucketId outside.uuid outside.deviceFp]

def requestSend (device : Device ν) (outside : Outside ν)
    (bucketId requestId : JSString) (deviceFp : Option JSString) : Device ν :=
  let device := device.emit bucketId
    (.resyncRequest outside.ts requestId (truthy deviceFp))
  let device := { device with
    resyncSessions := device.resyncSessions.set bucketId
      ⟨requestId, .requester, outside.now⟩ }
  device.setResyncStatus bucketId .waiting (some requestId)

/-- The sorted ids of the messages in memory. -/
def myIds (device : Device ν) (bucketId : JSString) : List JSString :=
  sortMessageIds ((device.getMessages bucketId).map StoredMessage.id)

def respondResync (device : Device ν) (outside : Outside ν)
    (bucketId : JSString) (accept : Bool) : Device ν × List (Activation ν) :=
  match device.resyncPrompts.get? bucketId with
  | none => (device, [])
  | some prompt =>
      if !outside.connected then (device, [])
      else
        let device := { device with
          resyncPrompts := device.resyncPrompts.erase bucketId }
        if !accept then (device, [.rejectSend bucketId prompt.requestId])
        else
          match truthy prompt.deviceFp with
          | some fp =>
              (device, [.setLastPeerDeviceFp bucketId (some fp),
                .acceptIds bucketId prompt.requestId])
          | none =>
              (device, [.acceptSend bucketId prompt.requestId
                (device.myIds bucketId)])

def acceptSend (device : Device ν) (outside : Outside ν)
    (bucketId requestId : JSString) (ids : List JSString) : Device ν :=
  let device := device.emit bucketId (.resyncAccept outside.ts requestId ids)
  let device := { device with
    resyncSessions := device.resyncSessions.set bucketId
      ⟨requestId, .approver, outside.now⟩ }
  device.setResyncStatus bucketId .waiting (some requestId)

def onResyncRequest (device : Device ν) (bucketId requestId : JSString)
    (ts : ν) (deviceFp : Option JSString) : List (Activation ν) :=
  [.showPrompt bucketId requestId ts
    (deviceFp.or (device.currentPeerDeviceFp.get? bucketId))]

def showPrompt (device : Device ν) (bucketId requestId : JSString) (ts : ν)
    (fp : Option JSString) : Device ν :=
  let deviceTrust :=
    match truthy fp, truthy ((device.roomRecords.get? bucketId).getD none) with
    | some fp, some last => if fp = last then DeviceTrust.same else .new
    | _, _ => .unknown
  { device with
    resyncPrompts := device.resyncPrompts.set bucketId
      ⟨requestId, ts, fp, deviceTrust⟩ }

def onResyncReject (device : Device ν) (bucketId requestId : JSString) :
    Device ν :=
  match device.resyncSessions.get? bucketId with
  | none => device
  | some session =>
      if session.requestId ≠ requestId then device
      else
        let device := { device with
          resyncSessions := device.resyncSessions.erase bucketId }
        device.setResyncStatus bucketId .error none

/-! ## Pushing a bundle -/

def touchSession (device : Device ν) (bucketId : JSString)
    (session : ResyncSession) (now : Int) : Device ν :=
  { device with
    resyncSessions := device.resyncSessions.set bucketId
      { session with updatedAt := now } }

def onResyncAccept (device : Device ν) (outside : Outside ν)
    (bucketId requestId : JSString) (peerIds : List JSString) :
    Device ν × List (Activation ν) :=
  match device.resyncSessions.get? bucketId with
  | none => (device, [])
  | some session =>
      if !outside.connected || session.requestId ≠ requestId ||
          session.role ≠ .requester then (device, [])
      else
        (device.touchSession bucketId session outside.now,
          [.idsSend bucketId requestId (device.getMessages bucketId) peerIds])

def runDifferentialPush (device : Device ν) (outside : Outside ν)
    (bucketId requestId : JSString) (myMsgs : List (StoredMessage ν))
    (peerIds : List JSString) : Device ν × List (Activation ν) :=
  if !outside.connected then
    (device.setResyncStatus bucketId .error (some requestId), [])
  else
    let myIds := myMsgs.map StoredMessage.id
    let onlyMine := idsOnlyInA myIds peerIds
    let onlyTheirs := idsOnlyInA peerIds myIds
    let role := ((device.resyncSessions.get? bucketId).map
      ResyncSession.role).getD .requester
    let device := { device with
      expectedHistoryRecv := device.expectedHistoryRecv.set requestId
        (if onlyTheirs.length > 0 then 1 else 0) }
    (device.setResyncStatus bucketId .transferring (some requestId),
      [.pushPack bucketId requestId role
        (filterMessagesByIds myMsgs onlyMine) (onlyTheirs.length > 0)])

def idsSend (device : Device ν) (outside : Outside ν)
    (bucketId requestId : JSString) (myMsgs : List (StoredMessage ν))
    (peerIds : List JSString) : Device ν × List (Activation ν) :=
  let ids := sortMessageIds (myMsgs.map StoredMessage.id)
  let device := device.emit bucketId (.resyncIds outside.ts requestId ids)
  device.runDifferentialPush outside bucketId requestId myMsgs peerIds

def onResyncIds (device : Device ν) (outside : Outside ν)
    (bucketId requestId : JSString) (peerIds : List JSString) :
    Device ν × List (Activation ν) :=
  match device.resyncSessions.get? bucketId with
  | none => (device, [])
  | some session =>
      if session.requestId ≠ requestId || session.role ≠ .approver then
        (device, [])
      else
        (device.touchSession bucketId session outside.now).runDifferentialPush
          outside bucketId requestId (device.getMessages bucketId) peerIds

/-- Ends the resync of the request unless messages are still expected. -/
def finishResyncIfDone (device : Device ν) (bucketId requestId : JSString) :
    Device ν × List (Activation ν) :=
  if (device.expectedHistoryRecv.get? requestId).getD 0 > 0 then (device, [])
  else
    let device := { device with
      expectedHistoryRecv := device.expectedHistoryRecv.erase requestId
      resyncSessions := device.resyncSessions.erase bucketId }
    (device.setResyncStatus bucketId .done (some requestId),
      trustPeerDeviceFp bucketId (device.currentPeerDeviceFp.get? bucketId))

def failPush (device : Device ν) (bucketId requestId : JSString) : Device ν :=
  let device := { device with
    resyncSessions := device.resyncSessions.erase bucketId
    expectedHistoryRecv := device.expectedHistoryRecv.erase requestId }
  device.setResyncStatus bucketId .error (some requestId)

/-- Goes on with the next chunk; after the last one the resync ends if nothing
is expected from the peer. -/
def pushNext (device : Device ν) (outside : Outside ν)
    (bucketId requestId : JSString) (expecting : Bool) :
    List HistoryChunkPlainMessage → Device ν × List (Activation ν)
  | [] =>
      if expecting then (device, [])
      else device.finishResyncIfDone bucketId requestId
  | chunk :: rest =>
      if !outside.connected then (device.failPush bucketId requestId, [])
      else (device, [.pushChunk bucketId requestId chunk rest expecting])

def pushPack (codec : HistoryCodec ν) (device : Device ν)
    (outside : Outside ν) (bucketId requestId : JSString) (role : ResyncRole)
    (toSend : List (StoredMessage ν)) (expecting : Bool) :
    Device ν × List (Activation ν) :=
  match codec.packMessagesForSync toSend with
  | none => (device.failPush bucketId requestId, [])
  | some compressed =>
      device.pushNext outside bucketId requestId expecting
        (splitHistoryChunks (requestId ++ js ":" ++ role.text) compressed)

def pushChunk (device : Device ν) (outside : Outside ν)
    (bucketId requestId : JSString) (chunk : HistoryChunkPlainMessage)
    (rest : List HistoryChunkPlainMessage) (expecting : Bool) :
    Device ν × List (Activation ν) :=
  if !outside.connected then (device.failPush bucketId requestId, [])
  else
    (device.emit bucketId (.historyChunk chunk),
      [.pushSent bucketId requestId rest expecting])

def pushSent (device : Device ν) (outside : Outside ν)
    (bucketId requestId : JSString) (rest : List HistoryChunkPlainMessage)
    (expecting : Bool) : Device ν × List (Activation ν) :=
  if !outside.connected then (device.failPush bucketId requestId, [])
  else
    (device.setResyncStatus bucketId .transferring (some requestId)).pushNext
      outside bucketId requestId expecting rest

/-! ## Receiving a bundle -/

/-- Store a part of a bundle; the last one starts the merge. -/
def receivePart (device : Device ν) (bucketId : JSString)
    (chunk : HistoryChunkPlainMessage) (pending : PendingHistory) :
    Device ν × List (Activation ν) :=
  if chunk.index ≥ pending.total then (device, [])
  else if (pending.parts[chunk.index]?.join).isSome then (device, [])
  else
    let requestId := bundleRequestId chunk.id
    let parts := pending.parts.set chunk.index (some chunk.data)
    let device := { device with
      pendingHistory := device.pendingHistory.set chunk.id
        { pending with parts := parts } }
    let device := device.setResyncStatus bucketId .transferring (some requestId)
    match assemble pending.compressedLength parts [] with
    | .missing | .overflow => (device, [])
    | .filled assembled _ =>
        ({ device with
            pendingHistory := device.pendingHistory.erase chunk.id },
          [.unpackHistory bucketId requestId assembled])

def handleHistoryChunk (device : Device ν) (bucketId : JSString)
    (chunk : HistoryChunkPlainMessage) : Device ν × List (Activation ν) :=
  match device.pendingHistory.get? chunk.id with
  | none =>
      if chunk.index ≠ 0 then (device, [])
      else
        match chunk.compressedLength with
        | none => (device, [])
        | some compressedLength =>
            let pending : PendingHistory :=
              { total := chunk.total
                compressedLength := compressedLength
                parts := List.replicate chunk.total none }
            { device with
              pendingHistory := device.pendingHistory.set chunk.id
                pending }.receivePart bucketId chunk pending
  | some pending =>
      if chunk.total ≠ pending.total then (device, [])
      else device.receivePart bucketId chunk pending

/-- Read the bundle, and list the ids that are stored. -/
def unpackHistory (codec : HistoryCodec ν) (nfc : JSString → JSString)
    (device : Device ν) (bucketId requestId : JSString) (assembled : Bytes) :
    Device ν × List (Activation ν) :=
  match codec.unpackMessagesFromSync assembled with
  | none =>
      let device := { device with
        resyncSessions := device.resyncSessions.erase bucketId }
      (device.setResyncStatus bucketId .error (some requestId), [])
  | some incoming =>
      let seen := (device.store.listMessages nfc bucketId).map StoredMessage.id
      (device, [.mergeMessages bucketId requestId seen incoming])

/-- Add the next message that is not stored yet; after the last one the room
is listed again. -/
def mergeMessages (nfc : JSString → JSString) (device : Device ν)
    (bucketId requestId : JSString) (seen : List JSString) :
    List (StoredMessage ν) → Device ν × List (Activation ν)
  | [] =>
      (device, [.showMerged bucketId requestId
        (device.store.listMessages nfc bucketId)])
  | m :: msgs =>
      if m.id ∈ seen then
        (device, [.mergeMessages bucketId requestId seen msgs])
      else
        ({ device with store := device.store.addMessage bucketId m },
          [.mergeMessages bucketId requestId (m.id :: seen) msgs])

def showMerged (device : Device ν) (bucketId requestId : JSString)
    (all : List (StoredMessage ν)) : Device ν × List (Activation ν) :=
  let device := device.syncMessages bucketId all
  { device with
    expectedHistoryRecv := device.expectedHistoryRecv.set requestId
      0 }.finishResyncIfDone bucketId requestId

/-! ## Wiping -/

def showWiped (device : Device ν) (bucketId : JSString) : Device ν :=
  let device := device.syncMessages bucketId []
  { device with
    resyncPrompts := device.resyncPrompts.erase bucketId
    resyncSessions := device.resyncSessions.erase bucketId }

/-! ## Frames -/

/-- The frames of the transfer engine are handled by `Engine`; images in
chunks of their own are not accepted any more. -/
def onBinary (device : Device ν) (outside : Outside ν) (bucketId : JSString)
    (plain : PlainMessage ν) : Device ν × List (Activation ν) :=
  if !outside.roomOpen then (device, [])
  else
    match plain with
    | .delete _ id => device.applyDelete bucketId id
    | .historyDigest digest =>
        (match truthy digest.deviceFp with
          | some fp =>
              { device with
                currentPeerDeviceFp := device.currentPeerDeviceFp.set bucketId
                  fp }
          | none => device, [])
    | .resyncRequest ts id deviceFp =>
        (device, device.onResyncRequest bucketId id ts deviceFp)
    | .wipeHistory _ _ =>
        (device, [.wipeLocalHistory bucketId, .showPartnerWiped bucketId])
    | .resyncReject _ id _ => (device.onResyncReject bucketId id, [])
    | .resyncAccept _ id ids => device.onResyncAccept outside bucketId id ids
    | .resyncIds _ id ids => device.onResyncIds outside bucketId id ids
    | .historyChunk chunk => device.handleHistoryChunk bucketId chunk
    | .text msg =>
        let id := msg.id.getD outside.uuid
        device.storeText bucketId
          ⟨.text { msg with id := some id }, id, .peer⟩
    | .image msg =>
        let id := msg.id.getD outside.uuid
        device.storeText bucketId
          ⟨.image { msg with id := some id }, id, .peer⟩
    | .xferChunk _ | .xferAck _ | .xferQuery _ | .xferCancel _
    | .imageChunk _ | .file _ => (device, [])

end Device

/-! ## The program -/

/-- The effect of an activation, and what its function does after the next
`await`s. -/
def Activation.next (codec : HistoryCodec ν) (nfc : JSString → JSString)
    (outside : Outside ν) (device : Device ν) :
    Activation ν → Device ν × List (Activation ν)
  | .onBinary b plain => device.onBinary outside b plain
  | .addMessage b stored =>
      ({ device with store := device.store.addMessage b stored }, [])
  | .trustFirstPeerDeviceFp b => (device, device.trustFirstPeerDeviceFp b)
  | .setLastPeerDeviceFp b fp => (device.setLastPeerDeviceFp b fp, [])
  | .deliverIncoming b stored =>
      ({ device with store := device.store.addMessage b stored },
        [.appendMessage b stored])
  | .startOutgoing b stored =>
      match stored.content with
      | .text _ => (device, [])
      | .image _ | .file _ =>
          ({ device with store := device.store.addMessage b stored },
            [.appendMessage b stored])
  | .appendMessage b stored => ((device.appendMessage b stored).1, [])
  | .send b body replyTo =>
      if !outside.connected then (device, [])
      else
        (device, [.sendText b outside.uuid
          ⟨outside.ts, body, some outside.uuid, replyTo⟩])
  | .sendText b id plain => device.sendText b id plain
  | .sendDelete b id =>
      if !outside.connected || id = [] then (device, [])
      else (device, [.deleteSend b id outside.ts])
  | .deleteSend b id ts => (device.emit b (.delete ts id)).applyDelete b id
  | .deleteMessage b id =>
      ({ device with store := device.store.deleteMessage b id }, [])
  | .requestResync b => (device, device.requestResync outside b)
  | .requestSend b id deviceFp =>
      (device.requestSend outside b id deviceFp, [])
  | .respondResync b accept => device.respondResync outside b accept
  | .rejectSend b id =>
      (device.emit b (.resyncReject outside.ts id (some (js "declined"))), [])
  | .acceptIds b id => (device, [.acceptSend b id (device.myIds b)])
  | .acceptSend b id ids => (device.acceptSend outside b id ids, [])
  | .showPrompt b id ts fp => (device.showPrompt b id ts fp, [])
  | .idsSend b id myMsgs peerIds => device.idsSend outside b id myMsgs peerIds
  | .pushPack b id role toSend expecting =>
      device.pushPack codec outside b id role toSend expecting
  | .pushChunk b id chunk rest expecting =>
      device.pushChunk outside b id chunk rest expecting
  | .pushSent b id rest expecting => device.pushSent outside b id rest expecting
  | .unpackHistory b id assembled => device.unpackHistory codec nfc b id assembled
  | .mergeMessages b id seen msgs => device.mergeMessages nfc b id seen msgs
  | .showMerged b id all => device.showMerged b id all
  | .deleteMessagesForBucket b wiping =>
      (device, [.deleteRows b
        ((device.store.listMessages nfc b).map StoredMessage.id) wiping])
  | .deleteRows b ids wiping =>
      -- `wipeLocalHistory` goes on after its rows are deleted.
      ({ device with store := device.store.deleteMessages b ids },
        if wiping then [.showWiped b] else [])
  | .wipeLocalHistory b => (device, [.deleteMessagesForBucket b true])
  | .showWiped b => (device.showWiped b, [.setLastPeerDeviceFp b none])
  | .showPartnerWiped b => (device.setResyncStatus b .done none, [])
  | .wipeBothHistories b =>
      if !outside.connected then (device, [.wipeLocalHistory b])
      else (device, [.wipeSend b outside.uuid])
  | .wipeSend b id =>
      (device.emit b (.wipeHistory outside.ts id), [.wipeLocalHistory b])
  | .openRoom b =>
      (device, [.showOpened b (device.store.listMessages nfc b)])
  | .showOpened b messages => (device.syncMessages b messages, [])
  | .closeRoom b => (device.closeRoom b, [])
  | .forgetRoom b =>
      (device.closeRoom b, [.removeRoom b, .deleteMessagesForBucket b false])
  | .removeRoom b =>
      ({ device with roomRecords := device.roomRecords.erase b }, [])
  | .releaseSeatForSwitch b => (device.clearTransfersForBucket b, [])

/-- What starts from outside: frames, finished transfers, and the user. -/
inductive Activation.Entry : Activation ν → Prop where
  | onBinary (b : JSString) (plain : PlainMessage ν) : Entry (.onBinary b plain)
  | deliverIncoming (b : JSString) (stored : StoredMessage ν) :
      Entry (.deliverIncoming b stored)
  | startOutgoing (b : JSString) (stored : StoredMessage ν) :
      Entry (.startOutgoing b stored)
  | send (b body : JSString) (replyTo : Option ReplyRef) :
      Entry (.send b body replyTo)
  | sendDelete (b id : JSString) : Entry (.sendDelete b id)
  | requestResync (b : JSString) : Entry (.requestResync b)
  | respondResync (b : JSString) (accept : Bool) : Entry (.respondResync b accept)
  | wipeLocalHistory (b : JSString) : Entry (.wipeLocalHistory b)
  | wipeBothHistories (b : JSString) : Entry (.wipeBothHistories b)
  | openRoom (b : JSString) : Entry (.openRoom b)
  | closeRoom (b : JSString) : Entry (.closeRoom b)
  | forgetRoom (b : JSString) : Entry (.forgetRoom b)
  | releaseSeatForSwitch (b : JSString) : Entry (.releaseSeatForSwitch b)

abbrev Device.Pool (ν : Type) := Library.Pool (Device ν) (Activation ν)

/-- The steps of a run of a device. -/
abbrev Device.Trace (ν : Type) :=
  List (Device.Pool ν × PoolLabel (Activation ν) (Outside ν))

def manager (codec : HistoryCodec ν) (nfc : JSString → JSString) :
    Program (Device ν) (Activation ν) (Outside ν) where
  next := fun outside act device => some (act.next codec nfc outside device)
  entry := Activation.Entry

/-- What a step of the program does to the device and to the activations. -/
theorem manager_run_inv {codec : HistoryCodec ν} {nfc : JSString → JSString}
    {pool pool' : Device.Pool ν} {act : Activation ν} {outside : Outside ν}
    (step : (manager codec nfc).Step pool (.run act outside) pool') :
    pool'.shared = (act.next codec nfc outside pool.shared).1 ∧
      ∃ others, pool.acts.Perm (act :: others) ∧
        pool'.acts.Perm
          ((act.next codec nfc outside pool.shared).2 ++ others) := by
  obtain ⟨acts, others, next, before, after⟩ := Program.Step.run_inv step
  obtain ⟨shared, rfl⟩ := Prod.mk.inj (Option.some.inj next)
  exact ⟨shared.symm, others, before, after⟩

end Byteln.Client

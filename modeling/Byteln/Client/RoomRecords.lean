import Byteln.Client.Attachments
import Byteln.Library.InsertionMap
import Byteln.Library.ThreadPool

/-!
# Room records

The records of the rooms in IndexedDB and the functions that update them.  An
update reads the record in one transaction and puts a changed copy of it in a
second one; other updates, and the removal of the room, may run between the
two.  A record is stored under its bucket id, which is left out of it here.
-/

namespace Byteln.Client

open Byteln.Library

structure EncryptedBlob where
  nonce : JSString
  ciphertext : JSString
deriving DecidableEq

structure RoomRecord where
  nickname : JSString
  roomHash : JSString
  relayUrl : JSString
  createdAt : Int
  lastActiveAt : Int
  lastPreview : Option JSString
  unread : Option Bool
  credentialsEnc : Option EncryptedBlob
  legacy : Option Bool
  isCreator : Option Bool
  seatReleased : Option Bool
  lastPeerDeviceFp : Option JSString
deriving DecidableEq

/-- The fields `saveRoomCredentials` is given. -/
structure CredentialsPatch where
  credentialsEnc : Option EncryptedBlob
  relayUrl : Option JSString
  legacy : Option Bool
deriving DecidableEq

abbrev RoomRecords := InsertionMap JSString RoomRecord

def defaultLineNickname (lineId : JSString) : JSString :=
  js "Secure line · " ++ lineId.take 4

def defaultNickname (bucketId : JSString) : JSString :=
  defaultLineNickname bucketId

/-- The functions that read a record and put a changed copy. -/
inductive RoomUpdate where
  | setNickname (nickname : JSString)
  | markUnread (unread : Bool)
  | markRead
  | touchRoom (preview : Option JSString)
  | saveRoomCredentials (patch : CredentialsPatch)
  | setSeatReleased (released : Bool)
  | setLastPeerDeviceFp (fp : Option JSString)
deriving DecidableEq

/-- The copy that an update puts for the record it has read, if any. -/
def RoomUpdate.written (now : Int) (bucketId : JSString) (room : RoomRecord) :
    RoomUpdate → Option RoomRecord
  | .setNickname nickname =>
      some { room with
        nickname :=
          if trim nickname = [] then defaultNickname bucketId
          else trim nickname }
  | .markUnread unread => some { room with unread := some unread }
  | .markRead =>
      if room.unread = some true then some { room with unread := some false }
      else none
  | .touchRoom preview =>
      some { room with
        lastActiveAt := now
        lastPreview := (preview.map (List.take 120)).or room.lastPreview }
  | .saveRoomCredentials patch =>
      some { room with
        credentialsEnc := patch.credentialsEnc.or room.credentialsEnc
        relayUrl := patch.relayUrl.getD room.relayUrl
        legacy := patch.legacy.or room.legacy }
  | .setSeatReleased released =>
      some { room with seatReleased := if released then some true else none }
  | .setLastPeerDeviceFp fp =>
      some { room with lastPeerDeviceFp := fp.filter fun text => text ≠ [] }

/-- The transactions.  `upsertRoom` carries the record that was read, and the
time at which the copy was made. -/
inductive RoomCall where
  | getRoom (bucketId : JSString) (update : RoomUpdate)
  | upsertRoom (bucketId : JSString) (update : RoomUpdate) (now : Int)
      (room : RoomRecord)
  | removeRoom (bucketId : JSString)
deriving DecidableEq

def RoomCall.bucketId : RoomCall → JSString
  | .getRoom bucketId _ => bucketId
  | .upsertRoom bucketId _ _ _ => bucketId
  | .removeRoom bucketId => bucketId

def RoomCall.next (now : Int) :
    RoomCall → RoomRecords → Option (RoomRecords × List RoomCall)
  | .getRoom bucketId update, rooms =>
      match rooms.get? bucketId with
      | none => some (rooms, [])
      | some room =>
          match update.written now bucketId room with
          | none => some (rooms, [])
          | some _ => some (rooms, [.upsertRoom bucketId update now room])
  | .upsertRoom bucketId update now room, rooms =>
      match update.written now bucketId room with
      | none => some (rooms, [])
      | some record => some (rooms.set bucketId record, [])
  | .removeRoom bucketId, rooms => some (rooms.erase bucketId, [])

inductive RoomCall.Entry : RoomCall → Prop where
  | update (bucketId : JSString) (update : RoomUpdate) :
      Entry (.getRoom bucketId update)
  | removeRoom (bucketId : JSString) : Entry (.removeRoom bucketId)

def roomStorage : Program RoomRecords RoomCall Int where
  next := RoomCall.next
  entry := RoomCall.Entry

/-- Any records, and no transaction yet. -/
def roomStorageSystem :
    Lts (Pool RoomRecords RoomCall) (PoolLabel RoomCall Int) :=
  roomStorage.system fun pool => pool.threads = []

abbrev RoomTrace :=
  List (Pool RoomRecords RoomCall × PoolLabel RoomCall Int)

/-! ## Operations in one piece -/

/-- An update with the time it reads, or the removal of the room. -/
inductive RoomOp where
  | update (change : RoomUpdate) (now : Int)
  | remove
deriving DecidableEq

/-- The record after an operation that no other one interrupts. -/
def RoomOp.serial (bucketId : JSString) :
    Option RoomRecord → RoomOp → Option RoomRecord
  | some room, .update change now =>
      some ((change.written now bucketId room).getD room)
  | none, .update _ _ => none
  | _, .remove => none

/-- The operation on a room that a step begins. -/
def beginning (bucketId : JSString) :
    PoolLabel RoomCall Int → Option RoomOp
  | .run (.getRoom b update) now =>
      if b = bucketId then some (.update update now) else none
  | .run (.removeRoom b) _ => if b = bucketId then some .remove else none
  | _ => none

/-- The operations on a room that were begun, in the order in which they
were. -/
def begun (bucketId : JSString) (trace : RoomTrace) : List RoomOp :=
  trace.filterMap fun entry => beginning bucketId entry.2

/-- The operation on a room whose second transaction is still to come. -/
def RoomCall.waiting (bucketId : JSString) : RoomCall → Option RoomOp
  | .upsertRoom b update now _ =>
      if b = bucketId then some (.update update now) else none
  | _ => none

/-- The operations whose second transaction is still to come. -/
def waitingOps (bucketId : JSString) (calls : List RoomCall) : List RoomOp :=
  calls.filterMap (RoomCall.waiting bucketId)

section WaitingOps

variable {b bucketId : JSString} {calls others : List RoomCall}
  {update : RoomUpdate} {now : Int} {room : RoomRecord}

@[simp] theorem waitingOps_nil : waitingOps b [] = [] := rfl

@[simp] theorem waitingOps_append :
    waitingOps b (calls ++ others) =
      waitingOps b calls ++ waitingOps b others :=
  List.filterMap_append

@[simp] theorem waitingOps_getRoom :
    waitingOps b (.getRoom bucketId update :: calls) = waitingOps b calls :=
  rfl

@[simp] theorem waitingOps_removeRoom :
    waitingOps b (.removeRoom bucketId :: calls) = waitingOps b calls :=
  rfl

@[simp] theorem waitingOps_upsertRoom_self :
    waitingOps b (.upsertRoom b update now room :: calls) =
      .update update now :: waitingOps b calls := by
  simp [waitingOps, RoomCall.waiting]

theorem waitingOps_upsertRoom_of_ne (other : bucketId ≠ b) :
    waitingOps b (.upsertRoom bucketId update now room :: calls) =
      waitingOps b calls := by
  simp [waitingOps, RoomCall.waiting, other]

end WaitingOps

/-- The copy that is put is the one the update would make of the record that
is stored now. -/
def Fresh (rooms : RoomRecords) : RoomCall → Int → Prop
  | .upsertRoom bucketId update now room, _ =>
      ∃ current, rooms.get? bucketId = some current ∧
        update.written now bucketId room = update.written now bucketId current
  | _, _ => True

section Serial

variable {b : JSString}

theorem serial_remove_absorbs {ops : List RoomOp} {record : Option RoomRecord}
    (removed : record = none ∨ .remove ∈ ops) :
    ops.foldl (RoomOp.serial b) record = none := by
  induction ops generalizing record with
  | nil => simpa using removed
  | cons op ops induction =>
      apply induction
      rcases removed with rfl | removed
      · cases op <;> exact .inl rfl
      · rcases List.mem_cons.mp removed with rfl | later
        · cases record <;> exact .inl rfl
        · exact .inr later

/-- The record is the one left by the operations that are through, one after
the other; the others that were begun still have their copy to put. -/
def Serialised (b : JSString) (first : Option RoomRecord) (trace : RoomTrace)
    (rooms : RoomRecords) (acts : List RoomCall) : Prop :=
  ∃ order : List RoomOp,
    (order ++ waitingOps b acts).Perm (begun b trace) ∧
      rooms.get? b = order.foldl (RoomOp.serial b) first

variable {first : Option RoomRecord} {trace : RoomTrace}
  {rooms : RoomRecords} {acts others : List RoomCall}

theorem Serialised.perm (serialised : Serialised b first trace rooms acts)
    (moved : acts.Perm others) : Serialised b first trace rooms others := by
  obtain ⟨order, begunPerm, record⟩ := serialised
  refine ⟨order, ?_, record⟩
  exact ((moved.filterMap _).append_left order).symm.trans begunPerm

/-- A step that neither changes the record nor begins or ends an operation on
the room. -/
theorem Serialised.idle {rooms' : RoomRecords} {acts' : List RoomCall}
    {pool : Pool RoomRecords RoomCall} {label : PoolLabel RoomCall Int}
    (serialised : Serialised b first trace rooms acts)
    (begins : beginning b label = none)
    (waits : waitingOps b acts' =
      waitingOps b acts)
    (record : rooms'.get? b = rooms.get? b) :
    Serialised b first (trace ++ [(pool, label)]) rooms' acts' := by
  obtain ⟨order, begunPerm, recordEq⟩ := serialised
  refine ⟨order, ?_, record.trans recordEq⟩
  rw [waits]
  simpa [begun, begins] using begunPerm

/-- A step that begins an operation and is through with it. -/
theorem Serialised.atomic {rooms' : RoomRecords} {acts' : List RoomCall}
    {pool : Pool RoomRecords RoomCall} {label : PoolLabel RoomCall Int}
    (serialised : Serialised b first trace rooms acts) (op : RoomOp)
    (begins : beginning b label = some op)
    (waits : waitingOps b acts' =
      waitingOps b acts)
    (record : rooms'.get? b = op.serial b (rooms.get? b)) :
    Serialised b first (trace ++ [(pool, label)]) rooms' acts' := by
  obtain ⟨order, begunPerm, recordEq⟩ := serialised
  refine ⟨order ++ [op], ?_, ?_⟩
  · have grown : begun b (trace ++ [(pool, label)]) = begun b trace ++ [op] := by
      simp [begun, begins]
    rw [waits, grown]
    have moved : (order ++ [op] ++ waitingOps b acts).Perm
        (order ++ waitingOps b acts ++ [op]) := by
      rw [List.append_assoc, List.append_assoc]
      exact List.perm_append_comm.append_left order
    exact moved.trans (begunPerm.append_right [op])
  · rw [List.foldl_append, ← recordEq]
    exact record

/-- What each transaction does to the operations on a room, if every copy
that is put is fresh. -/
theorem Serialised.step {rooms' : RoomRecords} {acts' : List RoomCall}
    {pool : Pool RoomRecords RoomCall} {call : RoomCall} {now : Int}
    (serialised : Serialised b first trace rooms (call :: others))
    (next : call.next now rooms = some (rooms', acts'))
    (fresh : Fresh rooms call now) :
    Serialised b first (trace ++ [(pool, .run call now)]) rooms'
      (acts' ++ others) := by
  cases call with
  | getRoom bucketId update =>
      by_cases same : bucketId = b
      · subst same
        cases stored : rooms.get? bucketId with
        | none =>
            simp only [RoomCall.next, stored, Option.some.injEq,
              Prod.mk.injEq] at next
            obtain ⟨rfl, rfl⟩ := next
            apply serialised.atomic (.update update now)
            · simp [beginning]
            · simp
            · rw [stored]
              rfl
        | some room =>
            cases copy : update.written now bucketId room with
            | none =>
                simp only [RoomCall.next, stored, copy, Option.some.injEq,
                  Prod.mk.injEq] at next
                obtain ⟨rfl, rfl⟩ := next
                apply serialised.atomic (.update update now)
                · simp [beginning]
                · simp
                · simp [stored, RoomOp.serial, copy]
            | some record =>
                simp only [RoomCall.next, stored, copy, Option.some.injEq,
                  Prod.mk.injEq] at next
                obtain ⟨rfl, rfl⟩ := next
                obtain ⟨order, begunPerm, recordEq⟩ := serialised
                refine ⟨order, ?_, recordEq⟩
                have grown : begun bucketId (trace ++
                    [(pool, .run (.getRoom bucketId update) now)]) =
                    begun bucketId trace ++ [.update update now] := by
                  simp [begun, beginning]
                rw [grown]
                have before : (order ++ waitingOps bucketId others).Perm
                    (begun bucketId trace) := by
                  simpa using begunPerm
                have joined : (order ++ RoomOp.update update now ::
                    waitingOps bucketId others).Perm
                    (RoomOp.update update now ::
                      (order ++ waitingOps bucketId others)) :=
                  List.perm_middle
                have moved := joined.trans
                  ((before.cons _).trans
                    (List.perm_append_singleton _ _).symm)
                simpa using moved
      · have record : rooms'.get? b = rooms.get? b ∧
            waitingOps b acts' = [] := by
          simp only [RoomCall.next] at next
          split at next
          · cases next
            simp
          · split at next <;> cases next <;>
              simp [waitingOps_upsertRoom_of_ne same]
        apply serialised.idle
        · simp [beginning, same]
        · simp [record.2]
        · exact record.1
  | upsertRoom bucketId update time room =>
      obtain ⟨current, stored, copies⟩ := fresh
      by_cases same : bucketId = b
      · subst same
        have record : rooms'.get? bucketId =
              RoomOp.serial bucketId (rooms.get? bucketId)
                (.update update time) ∧ acts' = [] := by
          simp only [RoomCall.next, copies] at next
          split at next <;> rename_i copy <;>
            obtain ⟨rfl, rfl⟩ := Prod.mk.inj (Option.some.inj next) <;>
            simp [stored, RoomOp.serial, copy]
        obtain ⟨recordEq', rfl⟩ := record
        obtain ⟨order, begunPerm, recordEq⟩ := serialised
        refine ⟨order ++ [.update update time], ?_, ?_⟩
        · simpa [begun, beginning] using begunPerm
        · rw [List.foldl_append, ← recordEq]
          exact recordEq'
      · have record : rooms'.get? b = rooms.get? b ∧ acts' = [] := by
          have other : b ≠ bucketId := fun equal => same equal.symm
          simp only [RoomCall.next] at next
          split at next <;>
            obtain ⟨rfl, rfl⟩ := Prod.mk.inj (Option.some.inj next) <;>
            simp [InsertionMap.get?_set_of_ne, other]
        apply serialised.idle rfl
        · simp [record.2, waitingOps_upsertRoom_of_ne same]
        · exact record.1
  | removeRoom bucketId =>
      obtain ⟨rfl, rfl⟩ := Prod.mk.inj (Option.some.inj next)
      by_cases same : bucketId = b
      · subst same
        apply serialised.atomic .remove
        · simp [beginning]
        · simp
        · cases rooms.get? bucketId <;> simp [RoomOp.serial]
      · have other : b ≠ bucketId := fun equal => same equal.symm
        apply serialised.idle
        · simp [beginning, same]
        · simp
        · exact rooms.get?_erase_of_ne other

theorem serialised_of_run {start pool : Pool RoomRecords RoomCall}
    (calm : start.threads = [])
    (run : (roomStorageSystem.restrict (Program.OnRun Fresh)).Run start trace
      pool) :
    Serialised b (start.shared.get? b) trace pool.shared pool.acts := by
  refine Program.run_invariant roomStorage
    (Serialised b (start.shared.get? b)) (fun moved serialised =>
      Serialised.perm serialised moved) ?_ ?_ ?_ run
  · rintro trace pool act entry - serialised
    apply Serialised.idle serialised rfl
    · cases entry <;> simp
    · rfl
  · rintro trace pool act now rooms' acts others - serialised next fresh
    exact serialised.step next fresh
  · exact ⟨[], by simp [Pool.acts, calm, begun], rfl⟩

end Serial

/-- When the operations on a room are through, its record is the one that
they leave when they run one after the other in some order; and once the room
was removed, it has no record. -/
theorem room_updates_serialisable {start pool : Pool RoomRecords RoomCall}
    {trace : RoomTrace} (bucketId : JSString) (calm : start.threads = [])
    (run : (roomStorageSystem.restrict (Program.OnRun Fresh)).Run start trace
      pool) :
    ((∀ call ∈ pool.acts, call.bucketId ≠ bucketId) →
      ∃ order : List RoomOp, order.Perm (begun bucketId trace) ∧
        pool.shared.get? bucketId = order.foldl (RoomOp.serial bucketId)
          (start.shared.get? bucketId)) ∧
    (.remove ∈ begun bucketId trace → pool.shared.get? bucketId = none) := by
  obtain ⟨order, begunPerm, record⟩ :=
    serialised_of_run (b := bucketId) calm run
  constructor
  · intro through
    refine ⟨order, ?_, record⟩
    have noneWaits : waitingOps bucketId pool.acts = [] := by
      unfold waitingOps
      rw [List.filterMap_eq_nil_iff]
      intro call member
      cases call with
      | upsertRoom b update now room =>
          have other : b ≠ bucketId := through _ member
          simp [RoomCall.waiting, other]
      | _ => rfl
    simpa [noneWaits] using begunPerm
  · intro removed
    rw [record]
    apply serial_remove_absorbs
    right
    rcases List.mem_append.mp (begunPerm.mem_iff.mpr removed) with
      early | waits
    · exact early
    · obtain ⟨call, -, waits⟩ := List.mem_filterMap.mp waits
      cases call with
      | upsertRoom b update now room =>
          simp only [RoomCall.waiting] at waits
          split at waits <;> cases waits
      | _ => cases waits

private def storedRoom : RoomRecord :=
  ⟨js "Ann", js "#key=k", js "wss://r", 1, 1, none, none, none, none, none,
    none, none⟩

private def storedRooms : RoomRecords :=
  InsertionMap.empty.set (js "b1") storedRoom

/-- A message arrives and is marked as unread, then the seat is released. -/
private def oneAfterTheOther : List (Program.Move RoomCall Int) :=
  [.spawn (.getRoom (js "b1") (.markUnread true)),
    .spawn (.getRoom (js "b1") (.setSeatReleased true)),
    .run 0 5, .run 0 6, .run 1 7, .run 1 8]

/-- The seat is released while the message is being marked as unread. -/
private def releasedMeanwhile : List (Program.Move RoomCall Int) :=
  [.spawn (.getRoom (js "b1") (.markUnread true)),
    .spawn (.getRoom (js "b1") (.setSeatReleased true)),
    .run 0 5, .run 1 6, .run 1 7, .run 0 8]

/-- The room is removed while the message is being marked as unread. -/
private def removedMeanwhile : List (Program.Move RoomCall Int) :=
  [.spawn (.getRoom (js "b1") (.markUnread true)),
    .spawn (.removeRoom (js "b1")), .run 0 5, .run 1 6, .run 0 7]

private theorem roomMoves_run {moves : List (Program.Move RoomCall Int)}
    {trace : RoomTrace} {pool : Pool RoomRecords RoomCall}
    (entries : moves.all fun
      | .spawn (.upsertRoom _ _ _ _) => false
      | _ => true)
    (played : roomStorage.play ⟨storedRooms, []⟩ moves = some (trace, pool)) :
    roomStorageSystem.Run ⟨storedRooms, []⟩ trace pool := by
  refine Program.play_run ?_ played
  intro call member
  have entry := List.all_eq_true.mp entries _ member
  cases call with
  | getRoom bucketId update => constructor
  | upsertRoom => simp at entry
  | removeRoom bucketId => constructor

/-- Both updates last. -/
theorem room_updates_serialisable_released :
    ∃ (trace : RoomTrace) (pool : Pool RoomRecords RoomCall)
        (order : List RoomOp),
      roomStorage.play ⟨storedRooms, []⟩ oneAfterTheOther =
        some (trace, pool) ∧
      order.Perm (begun (js "b1") trace) ∧
      pool.shared.get? (js "b1") = order.foldl (RoomOp.serial (js "b1"))
        (some storedRoom) := by
  obtain ⟨trace, pool, played, through, steps⟩ : ∃ trace pool,
      roomStorage.play ⟨storedRooms, []⟩ oneAfterTheOther =
        some (trace, pool) ∧ pool.acts = [] ∧
      trace.map (fun entry => (entry.1.shared.get? (js "b1"), entry.2)) =
        [(some storedRoom,
            .spawn (.getRoom (js "b1") (.markUnread true))),
          (some storedRoom,
            .spawn (.getRoom (js "b1") (.setSeatReleased true))),
          (some storedRoom, .run (.getRoom (js "b1") (.markUnread true)) 5),
          (some storedRoom,
            .run (.upsertRoom (js "b1") (.markUnread true) 5 storedRoom) 6),
          (some { storedRoom with unread := some true },
            .run (.getRoom (js "b1") (.setSeatReleased true)) 7),
          (some { storedRoom with unread := some true },
            .run (.upsertRoom (js "b1") (.setSeatReleased true) 7
              { storedRoom with unread := some true }) 8)] :=
    ⟨_, _, rfl, rfl, rfl⟩
  have run : (roomStorageSystem.restrict (Program.OnRun Fresh)).Run
      ⟨storedRooms, []⟩ trace pool := by
    refine Lts.run_restrict_iff.mpr ⟨roomMoves_run (by decide) played, ?_⟩
    rintro ⟨before, label⟩ member
    have listed := List.mem_map_of_mem
      (f := fun entry => (entry.1.shared.get? (js "b1"), entry.2)) member
    rw [steps] at listed
    simp only [List.mem_cons, Prod.mk.injEq, List.not_mem_nil, or_false]
      at listed
    rcases listed with ⟨-, rfl⟩ | ⟨-, rfl⟩ | ⟨-, rfl⟩ | ⟨stored, rfl⟩ |
      ⟨-, rfl⟩ | ⟨stored, rfl⟩
    · trivial
    · trivial
    · trivial
    · exact ⟨_, stored, rfl⟩
    · trivial
    · exact ⟨_, stored, rfl⟩
  have serial := (room_updates_serialisable (js "b1") rfl run).1
  rw [through] at serial
  obtain ⟨order, begunPerm, record⟩ := serial (by simp)
  refine ⟨trace, pool, order, played, begunPerm, record.trans ?_⟩
  rfl

/-- The update that ends last puts back its older copy: the seat is no longer
released, and the removed room is back. -/
theorem older_copy_put_back :
    (∃ trace pool,
      roomStorageSystem.Run ⟨storedRooms, []⟩ trace pool ∧ pool.acts = [] ∧
        ¬ ∃ order : List RoomOp, order.Perm (begun (js "b1") trace) ∧
          pool.shared.get? (js "b1") =
            order.foldl (RoomOp.serial (js "b1")) (some storedRoom)) ∧
    ∃ trace pool,
      roomStorageSystem.Run ⟨storedRooms, []⟩ trace pool ∧ pool.acts = [] ∧
        .remove ∈ begun (js "b1") trace ∧
        pool.shared.get? (js "b1") ≠ none := by
  constructor
  · obtain ⟨trace, pool, played, through, operations, record⟩ :
        ∃ trace pool, roomStorage.play ⟨storedRooms, []⟩ releasedMeanwhile =
            some (trace, pool) ∧ pool.acts = [] ∧
          begun (js "b1") trace =
            [.update (.markUnread true) 5,
              .update (.setSeatReleased true) 6] ∧
          pool.shared.get? (js "b1") =
            some { storedRoom with unread := some true } :=
      ⟨_, _, rfl, by decide, by decide, by decide⟩
    refine ⟨trace, pool, roomMoves_run (by decide) played, through, ?_⟩
    rintro ⟨order, begunPerm, serial⟩
    rw [operations] at begunPerm
    rw [record] at serial
    have orders := List.mem_permutations.mpr begunPerm
    simp only [List.permutations, List.permutationsAux,
      List.permutationsAux.rec, List.permutationsAux2, List.foldr,
      List.mem_cons, List.not_mem_nil, or_false, id] at orders
    rcases orders with rfl | rfl <;> revert serial <;> decide
  · obtain ⟨trace, pool, played, through, removed, record⟩ :
        ∃ trace pool, roomStorage.play ⟨storedRooms, []⟩ removedMeanwhile =
            some (trace, pool) ∧ pool.acts = [] ∧
          .remove ∈ begun (js "b1") trace ∧
          pool.shared.get? (js "b1") ≠ none :=
      ⟨_, _, rfl, by decide, by decide, by decide⟩
    exact ⟨trace, pool, roomMoves_run (by decide) played, through, removed,
      record⟩

end Byteln.Client

import Byteln.Server.Operations

/-!
# The states of a seat

Several sections of the registry write the fields of a seat, and several
others put them together again.  In every reachable registry they agree: a
seat is connected, or it was dropped at a time the bucket has seen.
-/

namespace Byteln.Server

open Byteln.Library

variable {κ δ : Type}

/-! ## The invariant -/

theorem mem_seats (slot : Slot) : slot ∈ ([0, 1] : List Slot) := by
  revert slot
  decide

/-- The fields of an occupied seat agree. -/
structure Peer.Agrees (p : Peer κ) (lastSeen : Time) : Prop where
  conn : p.connected = true ↔ p.conn.isSome = true
  dropped : p.connected = true ↔ p.droppedAt = none
  seen : ∀ droppedAt ∈ p.droppedAt, droppedAt ≤ lastSeen

theorem Peer.Agrees.later {p : Peer κ} {lastSeen lastSeen' : Time}
    (agrees : p.Agrees lastSeen) (later : lastSeen ≤ lastSeen') :
    p.Agrees lastSeen' where
  conn := agrees.conn
  dropped := agrees.dropped
  seen droppedAt member := (agrees.seen droppedAt member).trans later

/-- A record with a connection, just written. -/
theorem Peer.Agrees.connected {p : Peer κ} {lastSeen : Time}
    (conn : p.conn.isSome = true) (connected : p.connected = true)
    (dropped : p.droppedAt = none) : p.Agrees lastSeen where
  conn := iff_of_true connected conn
  dropped := iff_of_true connected dropped
  seen droppedAt member := by
    rw [dropped] at member
    cases member

/-- All occupied seats of a bucket agree, and it was seen in the past. -/
structure Bucket.Agrees (b : Bucket κ δ) (now : Time) : Prop where
  seats : ∀ slot p, b.peers slot = some p → p.Agrees b.lastSeen
  seen : b.lastSeen ≤ now

theorem SeatChange.agrees {cfg : Config} {now : Time} {args : JoinArgs κ}
    {outcome : Option Slot} {slot : Slot} {before : Option (Peer κ)}
    {p' : Peer κ} {lastSeen : Time} (past : lastSeen ≤ now)
    (agree : ∀ p, before = some p → p.Agrees lastSeen)
    (change : SeatChange cfg now args outcome slot before (some p')) :
    p'.Agrees now := by
  generalize afterEq : some p' = after at change
  cases change with
  | kept _ => exact (agree p' afterEq.symm).later past
  | cleared _ _ => cases afterEq
  | reclaimed _ _ _ _ =>
      obtain rfl := Option.some.inj afterEq
      exact .connected rfl rfl rfl
  | taken _ _ =>
      obtain rfl := Option.some.inj afterEq
      exact .connected rfl rfl rfl

theorem Bucket.Agrees.join {cfg : Config} {b : Bucket κ δ} {before now : Time}
    (agrees : b.Agrees before) (later : before ≤ now) (args : JoinArgs κ) :
    (b.join cfg now args).1.Agrees now := by
  obtain ⟨peers, frame⟩ := join_frame cfg now args b
  have seen : (b.join cfg now args).1.lastSeen = now := by
    rw [frame]
  constructor
  · intro slot p occupied
    have change := join_seatChange cfg now args b slot
    rw [occupied] at change
    rw [seen]
    exact change.agrees (agrees.seen.trans later) (agrees.seats slot)
  · exact seen.le

theorem Bucket.Agrees.markLeft {b : Bucket κ δ} {before now : Time}
    (agrees : b.Agrees before) (later : before ≤ now) (slot : Slot)
    (p : Peer κ) : (b.markLeft slot p now).Agrees now := by
  constructor
  · intro other q occupied
    by_cases same : other = slot
    · subst other
      rw [Bucket.markLeft, setPeer_peers_self] at occupied
      obtain rfl := Option.some.inj occupied
      constructor
      · simp
      · simp
      · intro droppedAt member
        obtain rfl := Option.some.inj member
        exact le_rfl
    · rw [Bucket.markLeft, setPeer_peers_of_ne _ _ same] at occupied
      exact (agrees.seats other q occupied).later (agrees.seen.trans later)
  · exact le_rfl

/-- All seats of all buckets agree. -/
def Agreement (s : Clocked κ δ) : Prop :=
  ∀ (ref : Ref) (b : Bucket κ δ), s.reg.heap[ref]? = some b →
    b.Agrees s.now

theorem Op.Effect.agrees {now before : Time} {r : Registry κ δ} {ref : Ref}
    {b b' : Bucket κ δ} {op : Op κ δ} (effect : op.Effect now r ref b b')
    (agrees : b.Agrees before) (later : before ≤ now) : b'.Agrees now := by
  cases effect with
  | kept => exact ⟨agrees.seats, agrees.seen.trans later⟩
  | @joined args _ => exact agrees.join later args
  | @left _ slot p _ _ => exact agrees.markLeft later slot p
  | buffered => exact ⟨agrees.seats, agrees.seen.trans later⟩

section

variable [Payload δ] {cfg : Config} {s : Clocked κ δ}

theorem agreement_of_reachable
    (reachable : (operations κ δ cfg).Reachable s) : Agreement s := by
  apply reachable.invariant Agreement
  · intro s initial ref b found
    rw [show s.reg = newRegistry cfg from initial] at found
    cases found
  · rintro s ⟨op, now⟩ s' agreement ⟨later, rfl⟩ ref b' found'
    rcases op.run_bucket now s.reg found' with
      ⟨b, found, effect⟩ | ⟨args, -, -, -, -, seen, first, second⟩
    · exact effect.agrees (agreement ref b found) later
    · constructor
      · intro slot p occupied
        have which : slot = 0 ∨ slot = 1 := by
          simpa using mem_seats slot
        rcases which with rfl | rfl
        · rw [first] at occupied
          obtain rfl := Option.some.inj occupied
          exact .connected rfl rfl rfl
        · rw [second] at occupied
          cases occupied
      · exact seen.le

theorem operations_cfg (reachable : (operations κ δ cfg).Reachable s) :
    s.reg.cfg = (newRegistry (κ := κ) (δ := δ) cfg).cfg := by
  apply reachable.invariant fun s =>
    s.reg.cfg = (newRegistry (κ := κ) (δ := δ) cfg).cfg
  · intro s initial
    rw [show s.reg = newRegistry cfg from initial]
  · rintro s ⟨op, now⟩ s' same ⟨-, rfl⟩
    exact (op.run_cfg now s.reg).trans same

end

/-! ## Readers of the seats -/

variable {cfg : Config} {b : Bucket κ δ} {now : Time}

/-- No seat is held. -/
def Bucket.Vacant (cfg : Config) (now : Time) (b : Bucket κ δ) : Prop :=
  ∀ slot p, b.peers slot = some p →
    peerSeatHeld p now cfg.reclaimTTL = false

/-- Whether a seat waits for the peer that left it. -/
def waits (cfg : Config) (now : Time) (p : Peer κ) : Bool :=
  p.droppedAt.any fun droppedAt => now - droppedAt ≤ cfg.reclaimTTL

theorem not_held_iff (p : Peer κ) :
    peerSeatHeld p now cfg.reclaimTTL = false ↔
      p.connected = false ∧ waits cfg now p = false := by
  rw [peerSeatHeld_eq, Bool.or_eq_false_iff]
  exact Iff.rfl

/-- The bucket is collectable exactly when no seat is held. -/
theorem shouldDeleteLocked_iff :
    shouldDeleteLocked cfg b now = true ↔ b.Vacant cfg now := by
  have count : b.connectedCount = 0 ↔
      ∀ slot p, b.peers slot = some p → p.connected = false := by
    simp only [Bucket.connectedCount, List.countP_eq_zero,
      Option.any_eq_true, mem_seats, true_implies, not_exists, not_and,
      Bool.not_eq_true]
  have waiting : ([0, 1] : List Slot).any (fun slot =>
      (b.peers slot).any (waits cfg now)) = false ↔
      ∀ slot p, b.peers slot = some p → waits cfg now p = false := by
    simp only [List.any_eq_false, Option.any_eq_true, mem_seats,
      true_implies, not_exists, not_and, Bool.not_eq_true]
  have held : b.Vacant cfg now ↔ b.connectedCount = 0 ∧
      ([0, 1] : List Slot).any (fun slot =>
        (b.peers slot).any (waits cfg now)) = false := by
    rw [count, waiting]
    constructor
    · intro vacant
      constructor
      · intro slot p occupied
        exact ((not_held_iff p).mp (vacant slot p occupied)).1
      · intro slot p occupied
        exact ((not_held_iff p).mp (vacant slot p occupied)).2
    · rintro ⟨unconnected, patient⟩ slot p occupied
      exact (not_held_iff p).mpr
        ⟨unconnected slot p occupied, patient slot p occupied⟩
  rw [held]
  unfold shouldDeleteLocked
  split
  · rename_i none_
    rw [Bool.not_eq_true']
    exact (and_iff_right none_).symm
  · rename_i some_
    constructor
    · intro deletes
      cases deletes
    · intro vacant
      exact absurd vacant.1 some_

theorem sweepVerdict_eq :
    sweepVerdict cfg now b = (shouldDeleteLocked cfg b now ||
      (decide (now - b.lastSeen ≥ cfg.idleTTL) &&
        decide (b.connectedCount = 0))) := by
  unfold sweepVerdict shouldDeleteLocked
  by_cases none_ : b.connectedCount = 0
  · simp [none_]
  · simp [none_]

theorem connectedCount_ne_zero {slot : Slot} {p : Peer κ}
    (occupied : b.peers slot = some p) (connected : p.connected = true) :
    b.connectedCount ≠ 0 := by
  intro none_
  unfold Bucket.connectedCount at none_
  have free := List.countP_eq_zero.mp none_ slot (mem_seats slot)
  rw [occupied] at free
  exact free connected

/-- The seat that has just been left waits for its peer. -/
theorem not_shouldDelete_markLeft (slot : Slot) (p : Peer κ)
    (patient : 0 ≤ cfg.reclaimTTL) :
    shouldDeleteLocked cfg (b.markLeft slot p now) now = false := by
  rw [Bool.eq_false_iff]
  intro deletes
  have vacant := shouldDeleteLocked_iff.mp deletes slot _
    (setPeer_peers_self _ _ _)
  have gone := ((not_held_iff _).mp vacant).2
  simp [waits, patient] at gone

/-- A registered bucket that a sweep condemns loses its entry. -/
theorem Registry.sweepKeys_condemned {r : Registry κ δ} {ids : List String}
    {id : String} (listed : id ∈ ids) (found : r.bucket? id = some b)
    (condemned : sweepVerdict r.cfg now b = true) :
    (r.sweepKeys now ids).1.m.get? id = none := by
  induction ids generalizing r with
  | nil => cases listed
  | cons first ids induction =>
      by_cases same : id = first
      · subst same
        unfold sweepKeys
        rw [found]
        dsimp only
        rw [if_pos condemned]
        rcases ({ r with m := r.m.erase id } : Registry κ δ).sweepKeys_get?
          now ids id with kept | ⟨gone, -⟩
        · exact kept.trans (r.m.get?_erase_self id)
        · exact gone
      · have later : id ∈ ids := (List.mem_cons.mp listed).resolve_left same
        unfold sweepKeys
        split
        · exact induction later found condemned
        · split
          · have still : ({ r with m := r.m.erase first } :
                Registry κ δ).bucket? id = some b := by
              unfold bucket?
              rw [r.m.get?_erase_of_ne same]
              exact found
            exact induction later still condemned
          · exact induction later found condemned

theorem Registry.sweepIdle_vacant {r : Registry κ δ} {id : String}
    (found : r.bucket? id = some b) (vacant : b.Vacant r.cfg now) :
    (r.sweepIdle now).1.m.get? id = none := by
  have listed : id ∈ r.m.keys := by
    rw [r.m.mem_keys_iff]
    unfold bucket? at found
    cases entry : r.m.get? id with
    | none =>
        rw [entry] at found
        cases found
    | some ref => rfl
  apply sweepKeys_condemned listed found
  rw [sweepVerdict_eq, shouldDeleteLocked_iff.mpr vacant]
  rfl

theorem Registry.sweepIdle_connected {r : Registry κ δ} {id : String}
    {slot : Slot} {p : Peer κ} (found : r.bucket? id = some b)
    (occupied : b.peers slot = some p) (connected : p.connected = true) :
    (r.sweepIdle now).1.m.get? id = r.m.get? id := by
  rcases r.sweepKeys_get? now r.m.keys id with
    kept | ⟨-, b', found', condemned⟩
  · exact kept
  · rw [found] at found'
    obtain rfl := Option.some.inj found'
    have some_ := connectedCount_ne_zero occupied connected
    simp [sweepVerdict, some_] at condemned

theorem Registry.leave_keeps {r : Registry κ δ} {id : String} {slot : Slot}
    {p : Peer κ} (patient : 0 ≤ r.cfg.reclaimTTL)
    (found : r.bucket? id = some b) (occupied : b.peers slot = some p) :
    (r.leave now id slot).2.deleteBucket = false := by
  obtain ⟨ref, registered, found⟩ := Option.bind_eq_some_iff.mp found
  unfold leave
  rw [registered]
  dsimp only
  rcases r.leaveSection_cases now id slot ref with
    ⟨vacant, -⟩ | ⟨b', p', found', occupied', deletes, -⟩
  · rw [vacant b found] at occupied
    cases occupied
  · rw [deletes]
    exact not_shouldDelete_markLeft slot p' patient

/-! ## Reachable registries -/

section

variable [Payload δ] {s : Clocked κ δ}

/-- Writers and readers of the seats agree in every reachable registry. -/
theorem seats_agree (reachable : (operations κ δ cfg).Reachable s) :
    (∀ (ref : Ref) b slot p, s.reg.heap[ref]? = some b →
      b.peers slot = some p → p.Agrees b.lastSeen) ∧
    (∀ (ref : Ref) b now, s.reg.heap[ref]? = some b →
      shouldDeleteLocked s.reg.cfg b now = true → b.Vacant s.reg.cfg now) ∧
    (0 ≤ cfg.reclaimTTL → ∀ id b slot p now, s.reg.bucket? id = some b →
      b.peers slot = some p →
      (s.reg.leave now id slot).2.deleteBucket = false) ∧
    ∀ id b now, s.reg.bucket? id = some b →
      (b.Vacant s.reg.cfg now →
        (s.reg.sweepIdle now).1.m.get? id = none) ∧
      ((∃ slot p, b.peers slot = some p ∧ p.connected = true) →
        (s.reg.sweepIdle now).1.m.get? id = s.reg.m.get? id) := by
  have agreement := agreement_of_reachable reachable
  have same := operations_cfg reachable
  refine ⟨?_, ?_, ?_, ?_⟩
  · intro ref b slot p found occupied
    exact (agreement ref b found).seats slot p occupied
  · intro ref b now _ deletes
    exact shouldDeleteLocked_iff.mp deletes
  · intro patient id b slot p now found occupied
    refine Registry.leave_keeps ?_ found occupied
    rw [same]
    exact patient
  · intro id b now found
    constructor
    · exact Registry.sweepIdle_vacant found
    · rintro ⟨slot, p, occupied, connected⟩
      exact Registry.sweepIdle_connected found occupied connected

/-- Somebody has joined the room. -/
theorem seats_agree_room :
    let r := ((newRegistry roomConfig : Registry String String).join 0
      (roomJoin "a" "c")).1
    (∀ b slot p, r.heap[0]? = some b → b.peers slot = some p →
      p.Agrees b.lastSeen) ∧
    (r.leave 1 "room" 0).2.deleteBucket = false := by
  intro r
  have reachable : (operations String String roomConfig).Reachable ⟨r, 0⟩ :=
    operations_step (.start (show Lts.init _ ⟨newRegistry roomConfig, 0⟩
      from rfl)) (.join (roomJoin "a" "c")) le_rfl
  obtain ⟨agree, -, leaves, -⟩ := seats_agree reachable
  refine ⟨agree 0, ?_⟩
  exact leaves (by decide) "room" _ 0 _ 1 rfl rfl

end

end Byteln.Server

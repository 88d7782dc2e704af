import Byteln.Server.Registry

/-!
# What joining does to the seats of a bucket

`SeatChange` lists everything a join can do to one seat.  The section of
`Join` under the bucket mutex is proved to stay within that list, seat by
seat, and to report the seat it wrote.  Every later fact about joining is read
off this classification.
-/

namespace Byteln.Server

open Byteln.Library

variable {κ δ : Type}

/-- One seat before and after a join.  `outcome` is the slot the join reports,
if it is not rejected. -/
inductive SeatChange (cfg : Config) (now : Time) (args : JoinArgs κ)
    (outcome : Option Slot) (slot : Slot) :
    Option (Peer κ) → Option (Peer κ) → Prop where
  | kept {p : Option (Peer κ)} :
      outcome ≠ some slot →
      SeatChange cfg now args outcome slot p p
  | cleared {p : Peer κ} :
      outcome ≠ some slot →
      peerSeatHeld p now cfg.reclaimTTL = false →
      SeatChange cfg now args outcome slot (some p) none
  | reclaimed {p : Peer κ} :
      outcome = some slot →
      args.token ≠ "" →
      args.token = p.token →
      deviceSessionMatches p args.deviceSessionID = true →
      SeatChange cfg now args outcome slot (some p)
        (some (args.reclaim p now))
  | taken {before : Option (Peer κ)} :
      outcome = some slot →
      (∀ p, before = some p → peerSeatHeld p now cfg.reclaimTTL = false) →
      SeatChange cfg now args outcome slot before (some (args.peer now))

@[simp] theorem setPeer_peers_self (b : Bucket κ δ) (slot : Slot)
    (p : Option (Peer κ)) : (b.setPeer slot p).peers slot = p := by
  simp [Bucket.setPeer]

theorem setPeer_peers_of_ne (b : Bucket κ δ) {slot other : Slot}
    (p : Option (Peer κ)) (different : other ≠ slot) :
    (b.setPeer slot p).peers other = b.peers other := by
  simp [Bucket.setPeer, Function.update_of_ne different]

theorem Slot.eq_other_of_ne {slot other : Slot} (different : other ≠ slot) :
    other = slot.other := by
  revert slot other
  decide

@[simp] theorem Slot.other_ne (slot : Slot) : slot.other ≠ slot := by
  revert slot
  decide

@[simp] theorem Slot.other_other (slot : Slot) : slot.other.other = slot := by
  revert slot
  decide

/-- A held occupant is never connected to nobody's credit: clearing requires
the reclaim window to be over. -/
private theorem not_held_of_clearable {p : Peer κ} {now : Time}
    {reclaimTTL : Duration}
    (clearable : (!p.connected && !peerSeatHeld p now reclaimTTL) = true) :
    peerSeatHeld p now reclaimTTL = false := by
  simp only [Bool.and_eq_true, Bool.not_eq_true'] at clearable
  exact clearable.2

/-- Clearing one seat first and changing the seats afterwards is again a seat
change. -/
private theorem seatChange_after_clear
    {cfg : Config} {now : Time} {args : JoinArgs κ} {outcome : Option Slot}
    {b : Bucket κ δ} {cleared slot : Slot} {p : Peer κ}
    {after : Option (Peer κ)}
    (occupied : b.peers cleared = some p)
    (expired : peerSeatHeld p now cfg.reclaimTTL = false)
    (change : SeatChange cfg now args outcome slot
      ((b.setPeer cleared none).peers slot) after) :
    SeatChange cfg now args outcome slot (b.peers slot) after := by
  by_cases same : slot = cleared
  · subst slot
    rw [setPeer_peers_self] at change
    rw [occupied]
    generalize nothing : (none : Option (Peer κ)) = before at change
    cases change with
    | kept notHere =>
        subst nothing
        exact .cleared notHere expired
    | cleared => simp at nothing
    | reclaimed => simp at nothing
    | taken here _ =>
        exact .taken here (by rintro q ⟨rfl⟩; exact expired)
  · rwa [setPeer_peers_of_ne b none same] at change

def Scan.bucket : Scan κ δ → Bucket κ δ
  | .rejected b | .seated b _ | .unseated b => b

def Scan.outcome : Scan κ δ → Option Slot
  | .seated _ slot => some slot
  | .rejected _ | .unseated _ => none

/-- The loop over the caller's own seats, as seat changes. -/
theorem reclaimScan_seatChange
    (cfg : Config) (now : Time) (args : JoinArgs κ)
    (tokenGiven : args.token ≠ "") (slots : List Slot) (b : Bucket κ δ)
    (slot : Slot) :
    SeatChange cfg now args (reclaimScan cfg now args slots b).outcome slot
      (b.peers slot) ((reclaimScan cfg now args slots b).bucket.peers slot) := by
  have takeOver : ∀ (b : Bucket κ δ) (i : Slot) (p : Peer κ),
      b.peers i = some p → p.token = args.token →
      deviceSessionMatches p args.deviceSessionID = true →
      SeatChange cfg now args (some i) slot (b.peers slot)
        ((b.setPeer i (some (args.reclaim p now))).peers slot) := by
    intro b i p occupied sameToken sameDevice
    by_cases same : slot = i
    · subst slot
      rw [setPeer_peers_self, occupied]
      exact .reclaimed rfl tokenGiven sameToken.symm sameDevice
    · rw [setPeer_peers_of_ne _ _ same]
      exact .kept (by simpa using fun equality => same equality.symm)
  induction slots generalizing b with
  | nil => exact .kept (by simp [reclaimScan, Scan.outcome])
  | cons i slots induction =>
      cases occupied : b.peers i with
      | none => simpa only [reclaimScan, occupied] using induction b
      | some p =>
          simp only [reclaimScan, occupied]
          split_ifs with foreign thirdParty replace reclaim clearable
          · exact induction b
          · exact .kept (by simp [Scan.outcome])
          · simp only [ne_eq, Decidable.not_not] at foreign
            simp only [Bool.and_eq_true] at replace
            exact takeOver b i p occupied foreign replace.1
          · simp only [ne_eq, Decidable.not_not] at foreign
            simp only [Bool.and_eq_true] at reclaim
            exact takeOver b i p occupied foreign reclaim.1
          · exact seatChange_after_clear occupied
              (not_held_of_clearable clearable) (induction _)
          · exact induction b

/-- The search for a free seat, as seat changes. -/
theorem freeScan_seatChange
    (cfg : Config) (now : Time) (args : JoinArgs κ) (slots : List Slot)
    (b : Bucket κ δ) :
    ∀ slot, SeatChange cfg now args (freeScan cfg now args slots b).2 slot
      (b.peers slot) ((freeScan cfg now args slots b).1.peers slot) := by
  have take : ∀ i : Slot,
      (∀ p, b.peers i = some p →
        peerSeatHeld p now cfg.reclaimTTL = false) →
      ∀ slot, SeatChange cfg now args (some i) slot (b.peers slot)
        ((b.setPeer i (some (args.peer now))).peers slot) := by
    intro i expired slot
    by_cases same : slot = i
    · subst slot
      rw [setPeer_peers_self]
      exact .taken rfl expired
    · rw [setPeer_peers_of_ne _ _ same]
      exact .kept (by simpa using fun equality => same equality.symm)
  induction slots with
  | nil => exact fun slot => .kept (by simp [freeScan])
  | cons i slots induction =>
      unfold freeScan
      split
      · rename_i vacant
        exact take i (by simp [vacant])
      · rename_i p occupied
        split_ifs with clearable
        · refine take i fun q equality => ?_
          rw [occupied, Option.some.injEq] at equality
          exact equality ▸ not_held_of_clearable clearable
        · exact induction

private theorem seatChange_trans
    {cfg : Config} {now : Time} {args : JoinArgs κ} {outcome : Option Slot}
    {slot : Slot} {first second third : Option (Peer κ)}
    (before : SeatChange cfg now args none slot first second)
    (after : SeatChange cfg now args outcome slot second third) :
    SeatChange cfg now args outcome slot first third := by
  cases before with
  | kept => exact after
  | cleared _ expired =>
      generalize nothing : (none : Option (Peer κ)) = middle at after
      cases after with
      | kept notHere =>
          subst nothing
          exact .cleared notHere expired
      | cleared => simp at nothing
      | reclaimed => simp at nothing
      | taken here _ =>
          exact .taken here (by rintro q ⟨rfl⟩; exact expired)
  | reclaimed here => simp at here
  | taken here => simp at here

/-- Everything the bucket section of `Join` does to the seats. -/
theorem join_seatChange
    (cfg : Config) (now : Time) (args : JoinArgs κ) (b : Bucket κ δ)
    (slot : Slot) :
    SeatChange cfg now args (b.join cfg now args).2 slot (b.peers slot)
      ((b.join cfg now args).1.peers slot) := by
  unfold Bucket.join
  by_cases tokenGiven : args.token ≠ ""
  · simp only [tokenGiven, ne_eq, not_false_eq_true, if_true]
    have scanned := reclaimScan_seatChange cfg now args tokenGiven [0, 1]
      { b with lastSeen := now } slot
    cases result :
        reclaimScan cfg now args [0, 1] { b with lastSeen := now } with
    | rejected b' =>
        rw [result] at scanned
        exact scanned
    | seated b' i =>
        rw [result] at scanned
        exact scanned
    | unseated b' =>
        rw [result] at scanned
        exact seatChange_trans scanned
          (freeScan_seatChange cfg now args [0, 1] b' slot)
  · simp only [ne_eq, Decidable.not_not] at tokenGiven
    simp only [tokenGiven, ne_eq, not_true_eq_false, if_false]
    exact freeScan_seatChange cfg now args [0, 1] { b with lastSeen := now }
      slot

/-! ## What joining leaves alone -/

private theorem reclaimScan_frame
    (cfg : Config) (now : Time) (args : JoinArgs κ) (slots : List Slot)
    (b : Bucket κ δ) :
    ∃ peers, (reclaimScan cfg now args slots b).bucket =
      { b with peers := peers } := by
  induction slots generalizing b with
  | nil => exact ⟨b.peers, rfl⟩
  | cons i slots induction =>
      unfold reclaimScan
      split
      · exact induction b
      · split_ifs
        · exact induction b
        · exact ⟨b.peers, rfl⟩
        · exact ⟨_, rfl⟩
        · exact ⟨_, rfl⟩
        · exact induction (b.setPeer i none)
        · exact induction b

private theorem freeScan_frame
    (cfg : Config) (now : Time) (args : JoinArgs κ) (slots : List Slot)
    (b : Bucket κ δ) :
    ∃ peers, (freeScan cfg now args slots b).1 =
      { b with peers := peers } := by
  induction slots with
  | nil => exact ⟨b.peers, rfl⟩
  | cons i slots induction =>
      unfold freeScan
      split
      · exact ⟨_, rfl⟩
      · split_ifs
        · exact ⟨_, rfl⟩
        · exact induction

/-- Apart from the seats, a join changes only when the bucket was last
seen. -/
theorem join_frame
    (cfg : Config) (now : Time) (args : JoinArgs κ) (b : Bucket κ δ) :
    ∃ peers, (b.join cfg now args).1 =
      { b with lastSeen := now, peers := peers } := by
  unfold Bucket.join
  obtain ⟨scanned, scanEq⟩ := reclaimScan_frame cfg now args [0, 1]
    { b with lastSeen := now }
  simp only
  split_ifs
  · split
    · rename_i b' result
      rw [result] at scanEq
      exact ⟨scanned, scanEq⟩
    · rename_i b' slot result
      rw [result] at scanEq
      exact ⟨scanned, scanEq⟩
    · rename_i b' result
      rw [result] at scanEq
      obtain ⟨peers, freeEq⟩ := freeScan_frame cfg now args [0, 1] b'
      refine ⟨peers, freeEq.trans ?_⟩
      change b' = _ at scanEq
      rw [scanEq]
  · exact freeScan_frame cfg now args [0, 1] { b with lastSeen := now }

theorem deviceSession_of_matches {p : Peer κ} {deviceSessionID : String}
    (same : deviceSessionMatches p deviceSessionID = true) :
    p.deviceSessionID = "" ∨ p.deviceSessionID = deviceSessionID := by
  unfold deviceSessionMatches at same
  split_ifs at same with bothEmpty legacy oneEmpty
  · exact .inl bothEmpty.2
  · exact .inl legacy.1
  · exact .inr (of_decide_eq_true same)

/-- A held seat either keeps its occupant's record as it is, or is taken over
by the occupant's own token and device session. -/
theorem SeatChange.of_held
    {cfg : Config} {now : Time} {args : JoinArgs κ} {outcome : Option Slot}
    {slot : Slot} {p : Peer κ} {after : Option (Peer κ)}
    (held : peerSeatHeld p now cfg.reclaimTTL = true)
    (change : SeatChange cfg now args outcome slot (some p) after) :
    (outcome ≠ some slot ∧ after = some p) ∨
      (outcome = some slot ∧ after = some (args.reclaim p now) ∧
        args.token ≠ "" ∧ args.token = p.token ∧
        (p.deviceSessionID = "" ∨
          p.deviceSessionID = args.deviceSessionID)) := by
  cases change with
  | kept notHere => exact .inl ⟨notHere, rfl⟩
  | cleared _ expired => simp [held] at expired
  | reclaimed here given sameToken sameDevice =>
      exact .inr ⟨here, rfl, given, sameToken,
        deviceSession_of_matches sameDevice⟩
  | taken _ expired => simp [held] at expired

/-! ## When a join is rejected -/

/-- The seat is held under the caller's token and device session. -/
def ownSeat (cfg : Config) (now : Time) (args : JoinArgs κ)
    (seat : Option (Peer κ)) : Bool :=
  seat.any fun p =>
    p.token = args.token && deviceSessionMatches p args.deviceSessionID &&
      peerSeatHeld p now cfg.reclaimTTL

/-- The seat is held under the caller's token by another device session. -/
def foreignSeat (cfg : Config) (now : Time) (args : JoinArgs κ)
    (seat : Option (Peer κ)) : Bool :=
  seat.any fun p =>
    p.token = args.token && isThirdPartyCredentialUse p args.deviceSessionID &&
      peerSeatHeld p now cfg.reclaimTTL

def heldSeat (cfg : Config) (now : Time) (seat : Option (Peer κ)) : Bool :=
  seat.any fun p => peerSeatHeld p now cfg.reclaimTTL

/-- The bucket has no seat for the caller: its token is in use by another
device session, or both seats are held and neither is its own. -/
def Bucket.TurnsAway (cfg : Config) (now : Time) (args : JoinArgs κ)
    (b : Bucket κ δ) : Prop :=
  (args.token ≠ "" ∧
    (foreignSeat cfg now args (b.peers 0) = true ∨
      ownSeat cfg now args (b.peers 0) = false ∧
        foreignSeat cfg now args (b.peers 1) = true)) ∨
  ((args.token = "" ∨
      ownSeat cfg now args (b.peers 0) = false ∧
        ownSeat cfg now args (b.peers 1) = false) ∧
    heldSeat cfg now (b.peers 0) = true ∧ heldSeat cfg now (b.peers 1) = true)

theorem foreign_not_own {cfg : Config} {now : Time} {args : JoinArgs κ}
    {seat : Option (Peer κ)} (foreign : foreignSeat cfg now args seat = true) :
    ownSeat cfg now args seat = false := by
  cases seat with
  | none => rfl
  | some p =>
      simp only [foreignSeat, isThirdPartyCredentialUse, Option.any_some,
        Bool.and_eq_true, decide_eq_true_eq] at foreign
      obtain ⟨⟨_, stored, given, different⟩, _⟩ := foreign
      simp [ownSeat, deviceSessionMatches, stored, given, different]

theorem peerSeatHeld_eq (p : Peer κ) (now : Time) (reclaimTTL : Duration) :
    peerSeatHeld p now reclaimTTL =
      (p.connected ||
        p.droppedAt.any fun droppedAt => now - droppedAt ≤ reclaimTTL) := by
  cases connected : p.connected <;> cases dropped : p.droppedAt <;>
    simp [peerSeatHeld, connected, dropped]

/-- One round of the loop over the caller's own seats.  A round that decides
nothing leaves the seat, or clears it because nobody holds it; of the seats
under the caller's token it leaves only held ones. -/
theorem reclaimScan_cons (cfg : Config) (now : Time) (args : JoinArgs κ)
    (i : Slot) (slots : List Slot) (b : Bucket κ δ) :
    ∃ seat, heldSeat cfg now seat = heldSeat cfg now (b.peers i) ∧
      (∀ q, seat = some q → b.peers i = some q ∧
        (q.token = args.token → peerSeatHeld q now cfg.reclaimTTL = true)) ∧
      reclaimScan cfg now args (i :: slots) b =
        if foreignSeat cfg now args (b.peers i) then .rejected b
        else if ownSeat cfg now args (b.peers i) then
          .seated (b.setPeer i
            ((b.peers i).map fun p => args.reclaim p now)) i
        else reclaimScan cfg now args slots (b.setPeer i seat) := by
  have unchanged : b.setPeer i (b.peers i) = b := by simp [Bucket.setPeer]
  cases occupied : b.peers i with
  | none =>
      rw [occupied] at unchanged
      exact ⟨none, rfl, by simp,
        by simp [reclaimScan, occupied, foreignSeat, ownSeat, unchanged]⟩
  | some p =>
      rw [occupied] at unchanged
      refine ⟨if p.token = args.token ∧
        peerSeatHeld p now cfg.reclaimTTL = false then none else some p,
        ?_, ?_, ?_⟩
      · split_ifs with expired
        · simp [heldSeat, expired.2]
        · rfl
      · intro q kept
        split_ifs at kept with expired
        · obtain rfl := Option.some.inj kept
          exact ⟨rfl, fun same => by simpa [same] using expired⟩
      · simp only [reclaimScan, occupied, foreignSeat, ownSeat,
          Option.any_some, Option.map_some, peerSeatHeld_eq]
        generalize isThirdPartyCredentialUse p args.deviceSessionID = third
        generalize deviceSessionMatches p args.deviceSessionID = sameDevice
        generalize p.droppedAt.any _ = recent
        by_cases sameToken : p.token = args.token
        · cases p.connected <;> cases third <;> cases sameDevice <;>
            cases recent <;> simp [sameToken, unchanged]
        · simp [sameToken, unchanged]

/-- The search for a free seat fails exactly when both seats are held. -/
theorem freeScan_eq_none_iff (cfg : Config) (now : Time) (args : JoinArgs κ)
    (slots : List Slot) (b : Bucket κ δ) :
    (freeScan cfg now args slots b).2 = none ↔
      ∀ slot ∈ slots, heldSeat cfg now (b.peers slot) = true := by
  induction slots with
  | nil => simp [freeScan]
  | cons i slots induction =>
      cases occupied : b.peers i with
      | none => simp [freeScan, occupied, heldSeat]
      | some p =>
          have clearable : (!p.connected &&
              !peerSeatHeld p now cfg.reclaimTTL) =
                !peerSeatHeld p now cfg.reclaimTTL := by
            rw [peerSeatHeld_eq]
            cases p.connected <;> simp
          simp only [freeScan, occupied, clearable, List.forall_mem_cons,
            ← induction]
          cases held : peerSeatHeld p now cfg.reclaimTTL <;>
            simp [heldSeat, held]

/-- `Join` rejects exactly the callers for which the bucket has no seat. -/
theorem join_rejected_iff (cfg : Config) (now : Time) (args : JoinArgs κ)
    (b : Bucket κ δ) :
    (b.join cfg now args).2 = none ↔ b.TurnsAway cfg now args := by
  unfold Bucket.join Bucket.TurnsAway
  by_cases noToken : args.token = ""
  · simp [noToken, freeScan_eq_none_iff]
  · simp only [noToken, ne_eq, not_false_eq_true, if_true, true_and, false_or]
    obtain ⟨first, firstHeld, -, firstRound⟩ := reclaimScan_cons cfg now args
      0 [1] { b with lastSeen := now }
    rw [firstRound]
    cases foreign0 : foreignSeat cfg now args (b.peers 0) with
    | true => simp
    | false =>
    cases own0 : ownSeat cfg now args (b.peers 0) with
    | true => simp
    | false =>
    obtain ⟨second, secondHeld, -, secondRound⟩ := reclaimScan_cons cfg now
      args 1 [] ({ b with lastSeen := now }.setPeer 0 first)
    have later : ({ b with lastSeen := now }.setPeer 0 first).peers 1 =
        b.peers 1 := setPeer_peers_of_ne _ _ (by decide)
    rw [later] at secondHeld secondRound
    simp only [secondRound, Bool.false_eq_true, if_false]
    cases foreign1 : foreignSeat cfg now args (b.peers 1) with
    | true => simp
    | false =>
    cases own1 : ownSeat cfg now args (b.peers 1) with
    | true => simp
    | false =>
    simp only [Bool.false_eq_true, if_false, reclaimScan]
    rw [freeScan_eq_none_iff]
    simp [secondHeld, firstHeld, setPeer_peers_of_ne]

/-- The free seat that is found gets the caller's record, and was not held. -/
theorem freeScan_some {cfg : Config} {now : Time} {args : JoinArgs κ}
    {slots : List Slot} {b : Bucket κ δ} {slot : Slot}
    (found : (freeScan cfg now args slots b).2 = some slot) :
    (freeScan cfg now args slots b).1 = b.setPeer slot (some (args.peer now)) ∧
      heldSeat cfg now (b.peers slot) = false := by
  induction slots with
  | nil => simp [freeScan] at found
  | cons i slots induction =>
      cases occupied : b.peers i with
      | none =>
          simp only [freeScan, occupied, Option.some.injEq] at found ⊢
          subst found
          simp [occupied, heldSeat]
      | some p =>
          simp only [freeScan, occupied] at found ⊢
          split at found
          · rename_i clearable
            obtain rfl := Option.some.inj found
            rw [if_pos clearable]
            simp [occupied, heldSeat, not_held_of_clearable clearable]
          · rename_i held
            rw [if_neg held]
            exact induction found

/-- How a join without a slot of its own gets one. -/
structure Bucket.TakesFree (cfg : Config) (now : Time) (args : JoinArgs κ)
    (b b' : Bucket κ δ) (slot : Slot) : Prop where
  free : heldSeat cfg now (b.peers slot) = false
  taken : b'.peers slot = some (args.peer now)
  unclaimed : args.token ≠ "" → ∀ i, ownSeat cfg now args (b.peers i) = false ∧
    foreignSeat cfg now args (b.peers i) = false
  held : args.token ≠ "" → ∀ i q, i ≠ slot → b'.peers i = some q →
    q.token = args.token → peerSeatHeld q now cfg.reclaimTTL = true

/-- An accepted join takes its own seat over, or a free seat. -/
theorem join_accepted {cfg : Config} {now : Time} {args : JoinArgs κ}
    {b : Bucket κ δ} {slot : Slot}
    (accepted : (b.join cfg now args).2 = some slot) :
    args.token ≠ "" ∧ ownSeat cfg now args (b.peers slot) = true ∧
        (b.join cfg now args).1.peers slot =
          (b.peers slot).map (fun p => args.reclaim p now) ∨
      b.TakesFree cfg now args (b.join cfg now args).1 slot := by
  unfold Bucket.join at accepted ⊢
  by_cases noToken : args.token = ""
  · right
    simp only [noToken, ne_eq, not_true_eq_false, if_false] at accepted ⊢
    obtain ⟨taken, free⟩ := freeScan_some accepted
    exact ⟨free, by rw [taken, setPeer_peers_self],
      fun given => absurd noToken given, fun given => absurd noToken given⟩
  · simp only [noToken, ne_eq, not_false_eq_true, if_true, true_and]
      at accepted ⊢
    obtain ⟨first, firstHeld, firstKept, firstRound⟩ := reclaimScan_cons cfg
      now args 0 [1] { b with lastSeen := now }
    rw [firstRound] at accepted ⊢
    cases foreign0 : foreignSeat cfg now args (b.peers 0) with
    | true => simp [foreign0] at accepted
    | false =>
    cases own0 : ownSeat cfg now args (b.peers 0) with
    | true =>
        simp only [foreign0, own0, Bool.false_eq_true, if_false, if_true,
          Option.some.injEq] at accepted ⊢
        subst accepted
        exact .inl ⟨own0, setPeer_peers_self _ _ _⟩
    | false =>
    obtain ⟨second, secondHeld, secondKept, secondRound⟩ := reclaimScan_cons
      cfg now args 1 [] ({ b with lastSeen := now }.setPeer 0 first)
    have later : ({ b with lastSeen := now }.setPeer 0 first).peers 1 =
        b.peers 1 := setPeer_peers_of_ne _ _ (by decide)
    rw [later] at secondHeld secondKept secondRound
    simp only [foreign0, own0, secondRound, Bool.false_eq_true, if_false]
      at accepted ⊢
    cases foreign1 : foreignSeat cfg now args (b.peers 1) with
    | true => simp [foreign1] at accepted
    | false =>
    cases own1 : ownSeat cfg now args (b.peers 1) with
    | true =>
        simp only [foreign1, own1, Bool.false_eq_true, if_false, if_true,
          Option.some.injEq] at accepted ⊢
        subst accepted
        exact .inl ⟨own1, setPeer_peers_self _ _ _⟩
    | false =>
    simp only [foreign1, own1, Bool.false_eq_true, if_false, reclaimScan]
      at accepted ⊢
    right
    obtain ⟨taken, free⟩ := freeScan_some accepted
    have scanned : ∀ i : Slot, i = 0 ∨ i = 1 := by decide
    refine ⟨?_, by rw [taken, setPeer_peers_self], ?_, ?_⟩
    · rcases scanned slot with rfl | rfl
      · rw [setPeer_peers_of_ne _ _ (by decide), setPeer_peers_self] at free
        exact firstHeld ▸ free
      · rw [setPeer_peers_self] at free
        exact secondHeld ▸ free
    · intro _ i
      rcases scanned i with rfl | rfl
      · exact ⟨own0, foreign0⟩
      · exact ⟨own1, foreign1⟩
    · intro _ i q elsewhere kept
      rw [taken, setPeer_peers_of_ne _ _ elsewhere] at kept
      rcases scanned i with rfl | rfl
      · rw [setPeer_peers_of_ne _ _ (by decide), setPeer_peers_self] at kept
        exact (firstKept q kept).2
      · rw [setPeer_peers_self] at kept
        exact (secondKept q kept).2

/-- The search for a free seat passes over seat 0 only if that is held. -/
theorem freeScan_first {cfg : Config} {now : Time} {args : JoinArgs κ}
    {b : Bucket κ δ} (found : (freeScan cfg now args [0, 1] b).2 = some 1) :
    heldSeat cfg now (b.peers 0) = true := by
  cases occupied : b.peers 0 with
  | none => simp [freeScan, occupied] at found
  | some p =>
      simp only [freeScan, occupied] at found
      split at found
      · simp at found
      · rename_i kept
        rw [heldSeat, Option.any_some]
        rw [peerSeatHeld_eq] at kept ⊢
        cases connected : p.connected with
        | true => rfl
        | false => simpa [connected] using kept

/-- The seat a join gets: the first that is held under its credentials, or else
the first that nobody holds. -/
def Bucket.Offers (cfg : Config) (now : Time) (args : JoinArgs κ)
    (b : Bucket κ δ) (slot : Slot) : Prop :=
  ¬ b.TurnsAway cfg now args ∧
    (args.token ≠ "" ∧ ownSeat cfg now args (b.peers slot) = true ∧
        (slot = 1 → ownSeat cfg now args (b.peers 0) = false) ∨
      (args.token = "" ∨ ∀ i, ownSeat cfg now args (b.peers i) = false) ∧
        heldSeat cfg now (b.peers slot) = false ∧
        (slot = 1 → heldSeat cfg now (b.peers 0) = true))

theorem join_offers {cfg : Config} {now : Time} {args : JoinArgs κ}
    {b : Bucket κ δ} {slot : Slot}
    (accepted : (b.join cfg now args).2 = some slot) :
    b.Offers cfg now args slot := by
  have scanned : ∀ i : Slot, i = 0 ∨ i = 1 := by decide
  refine ⟨fun away => ?_, ?_⟩
  · simp [(join_rejected_iff cfg now args b).mpr away] at accepted
  rcases join_accepted accepted with ⟨given, own, -⟩ | free
  · refine .inl ⟨given, own, ?_⟩
    rintro rfl
    unfold Bucket.join at accepted
    obtain ⟨first, -, -, firstRound⟩ := reclaimScan_cons cfg now args 0 [1]
      { b with lastSeen := now }
    simp only [given, ne_eq, not_false_eq_true, if_true, firstRound]
      at accepted
    cases own0 : ownSeat cfg now args (b.peers 0) with
    | false => rfl
    | true =>
        cases foreign0 : foreignSeat cfg now args (b.peers 0) <;>
          simp [own0, foreign0] at accepted
  · by_cases noToken : args.token = ""
    · refine .inr ⟨.inl noToken, free.free, ?_⟩
      rintro rfl
      simp only [Bucket.join, noToken, ne_eq, not_true_eq_false, if_false]
        at accepted
      have held := freeScan_first accepted
      exact held
    · have unowned := fun i => (free.unclaimed noToken i).1
      have ours := fun i => (free.unclaimed noToken i).2
      refine .inr ⟨.inr unowned, free.free, ?_⟩
      rintro rfl
      unfold Bucket.join at accepted
      obtain ⟨first, firstHeld, -, firstRound⟩ := reclaimScan_cons cfg now
        args 0 [1] { b with lastSeen := now }
      obtain ⟨second, -, -, secondRound⟩ := reclaimScan_cons cfg now args 1 []
        ({ b with lastSeen := now }.setPeer 0 first)
      have later : ({ b with lastSeen := now }.setPeer 0 first).peers 1 =
          b.peers 1 := setPeer_peers_of_ne _ _ (by decide)
      rw [later] at secondRound
      simp only [noToken, ne_eq, not_false_eq_true, if_true] at accepted
      rw [firstRound] at accepted
      simp only [unowned, ours, secondRound, Bool.false_eq_true, if_false]
        at accepted
      simp only [reclaimScan] at accepted
      have held := freeScan_first accepted
      rw [setPeer_peers_of_ne _ _ (by decide), setPeer_peers_self] at held
      exact firstHeld ▸ held

/-! ## The whole registry across one join -/

/-- The slot a join reports, as seen from the bucket behind a reference. -/
def JoinResult.outcome (result : JoinResult) (ref : Ref) : Option Slot :=
  if result.bucket = ref ∧ result.rejected = false then some result.slot
  else none

theorem JoinResult.outcome_eq_some {result : JoinResult} {ref : Ref}
    {slot : Slot} :
    result.outcome ref = some slot ↔
      result.bucket = ref ∧ result.rejected = false ∧ result.slot = slot := by
  simp [JoinResult.outcome, and_assoc]

namespace Registry

@[simp] theorem setBucket_m (r : Registry κ δ) (ref : Ref) (b : Bucket κ δ) :
    (r.setBucket ref b).m = r.m := rfl

@[simp] theorem setBucket_cfg (r : Registry κ δ) (ref : Ref)
    (b : Bucket κ δ) : (r.setBucket ref b).cfg = r.cfg := rfl

@[simp] theorem attachResult_outcome (target ref : Ref)
    (outcome : Option Slot) :
    (attachResult target outcome).outcome ref =
      if target = ref then outcome else none := by
  cases outcome <;> simp [attachResult, JoinResult.outcome]

theorem joinAttach_heap
    (r : Registry κ δ) (now : Time) (args : JoinArgs κ) (target ref : Ref)
    {b : Bucket κ δ} (found : r.heap[ref]? = some b) :
    ∃ b', (r.joinAttach now args target).1.heap[ref]? = some b' ∧
      ∀ slot, SeatChange r.cfg now args
        ((r.joinAttach now args target).2.outcome ref) slot
        (b.peers slot) (b'.peers slot) := by
  unfold joinAttach
  cases targetFound : r.heap[target]? with
  | none =>
      exact ⟨b, found, fun slot =>
        .kept (by simp)⟩
  | some t =>
      obtain ⟨inBounds, -⟩ := List.getElem?_eq_some_iff.mp targetFound
      by_cases same : ref = target
      · subst ref
        obtain rfl : b = t := by simpa [targetFound] using found.symm
        refine ⟨(b.join r.cfg now args).1,
          by simp [setBucket, inBounds], fun slot => ?_⟩
        simpa using join_seatChange r.cfg now args b slot
      · have different : ¬ target = ref := fun equality => same equality.symm
        refine ⟨b, by simpa [setBucket, different] using found,
          fun slot => .kept ?_⟩
        simp [different]

@[simp] theorem joinAttach_bucket (r : Registry κ δ) (now : Time)
    (args : JoinArgs κ) (target : Ref) :
    (r.joinAttach now args target).2.bucket = target := by
  unfold joinAttach
  split
  · rfl
  · rename_i b _
    dsimp only
    cases (b.join r.cfg now args).2 <;> rfl

/-- Only the bucket a join attaches to sees its slot. -/
theorem joinAttach_target {r : Registry κ δ} {now : Time} {args : JoinArgs κ}
    {target ref : Ref} {slot : Slot}
    (here : (r.joinAttach now args target).2.outcome ref = some slot) :
    target = ref ∧ ∃ b, r.heap[ref]? = some b ∧
      (b.join r.cfg now args).2 = some slot := by
  unfold joinAttach at here
  split at here
  · simp at here
  · rename_i b found
    rw [attachResult_outcome] at here
    split at here
    · rename_i same
      exact ⟨same, b, same ▸ found, here⟩
    · simp at here

/-- No bucket disappears in a join, and every seat of every bucket changes
only as `SeatChange` allows. -/
theorem join_heap
    (r : Registry κ δ) (now : Time) (args : JoinArgs κ) (ref : Ref)
    {b : Bucket κ δ} (found : r.heap[ref]? = some b) :
    ∃ b', (r.join now args).1.heap[ref]? = some b' ∧
      ∀ slot, SeatChange r.cfg now args
        ((r.join now args).2.outcome ref) slot
        (b.peers slot) (b'.peers slot) := by
  obtain ⟨inBounds, -⟩ := List.getElem?_eq_some_iff.mp found
  cases registered : r.m.get? args.id with
  | some target =>
      simpa only [join, joinEnter, registered] using
        joinAttach_heap r now args target ref found
  | none =>
      have notNew : ¬ r.heap.length = ref := by omega
      refine ⟨b, ?_, fun slot => .kept ?_⟩
      · simp [join, joinEnter, registered, joinCreate, notNew,
          List.getElem?_append_left inBounds, found]
      · simp [join, joinEnter, registered, joinCreate, JoinResult.outcome,
          notNew]

/-- A join leaves every id registered that was, under the same bucket. -/
theorem join_m_get?
    (r : Registry κ δ) (now : Time) (args : JoinArgs κ) {id : String}
    {ref : Ref} (registered : r.m.get? id = some ref) :
    (r.join now args).1.m.get? id = some ref := by
  cases target : r.m.get? args.id with
  | some t =>
      simp only [join, joinEnter, target, joinAttach]
      split <;> exact registered
  | none =>
      have different : id ≠ args.id := by
        rintro rfl
        simp [registered] at target
      simp [join, joinEnter, target, joinCreate,
        InsertionMap.get?_set_of_ne _ _ different, registered]

/-- The connection sits in no seat of the registry. -/
def NotSeated [DecidableEq κ] (r : Registry κ δ) (conn : κ) : Prop :=
  ∀ b ∈ r.heap, ∀ slot : Slot, (b.peers slot).bind Peer.conn ≠ some conn

instance [DecidableEq κ] (r : Registry κ δ) (conn : κ) :
    Decidable (r.NotSeated conn) :=
  inferInstanceAs (Decidable (∀ b ∈ r.heap, ∀ slot : Slot,
    (b.peers slot).bind Peer.conn ≠ some conn))

/-- A held seat is taken over only by its occupant's own token and device
session; a join that does not take it over, and every rejected join, leaves
the occupant's record as it is. -/
theorem join_heldSeat [DecidableEq κ]
    (r : Registry κ δ) (now : Time) (args : JoinArgs κ)
    (notSeated : r.NotSeated args.conn)
    (id : String) (b : Bucket κ δ) (slot : Slot) (p : Peer κ)
    (registered : r.bucket? id = some b)
    (occupied : b.peers slot = some p)
    (held : peerSeatHeld p now r.cfg.reclaimTTL = true) :
    ∃ b' p',
      (r.join now args).1.bucket? id = some b' ∧
      b'.peers slot = some p' ∧
      (p'.conn = some args.conn →
        args.token ≠ "" ∧ args.token = p.token ∧
          (p.deviceSessionID = "" ∨
            p.deviceSessionID = args.deviceSessionID)) ∧
      (p'.conn ≠ some args.conn ∨ (r.join now args).2.rejected = true →
        p' = p) := by
  obtain ⟨ref, mapped, found⟩ := Option.bind_eq_some_iff.mp registered
  obtain ⟨b', found', seats⟩ := r.join_heap now args ref found
  have change := seats slot
  rw [occupied] at change
  have bucketEq : (r.join now args).1.bucket? id = some b' := by
    simp [bucket?, r.join_m_get? now args mapped, found']
  rcases change.of_held held with
    ⟨_, after⟩ | ⟨here, after, given, sameToken, sameDevice⟩
  · refine ⟨b', p, bucketEq, after, ?_, fun _ => rfl⟩
    intro stored
    have member : b ∈ r.heap := List.mem_of_getElem? found
    exact absurd (by simp [occupied, stored]) (notSeated b member slot)
  · refine ⟨b', args.reclaim p now, bucketEq, after,
      fun _ => ⟨given, sameToken, sameDevice⟩, ?_⟩
    rintro (elsewhere | rejected)
    · exact absurd rfl elsewhere
    · simp [JoinResult.outcome, rejected] at here

/-- The occupant of a room comes back over a second connection. -/
theorem join_heldSeat_reconnect :
    let r : Registry String String :=
      ((newRegistry roomConfig).join 0 (roomJoin "alice" "first")).1
    ∃ b' p',
      (r.join 5 (roomJoin "alice" "second")).1.bucket? "room" = some b' ∧
      b'.peers 0 = some p' ∧
      (p'.conn = some "second" →
        "alice" ≠ "" ∧ "alice" = "alice" ∧ ("" = "" ∨ "" = "")) ∧
      (p'.conn ≠ some "second" ∨
          (r.join 5 (roomJoin "alice" "second")).2.rejected = true →
        p' = (roomJoin "alice" "first").peer 0) :=
  join_heldSeat ((newRegistry roomConfig).join 0 (roomJoin "alice" "first")).1
    5 (roomJoin "alice" "second") (by decide) "room" _ 0
    ((roomJoin "alice" "first").peer 0) rfl rfl rfl

end Registry

end Byteln.Server

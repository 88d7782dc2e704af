import Byteln.Server.Registration
import Byteln.Server.Tokens

/-!
# Coming back within the reclaim window

A peer that leaves and comes back with its token and device session before its
reclaim window is over gets its seat of the same bucket back, whatever happened
to the registry in between, as long as nobody else used its credentials or
marked its seat as left again.
-/

namespace Byteln.Server

open Byteln.Library

variable {κ δ : Type}

/-- Every join under a token that got to the bucket named a device session. -/
def NamesDevice (ref : Ref) (token : String) (s : Clocked κ δ) :
    Op κ δ × Time → Prop
  | (.join args, now) => args.token = token →
      (s.reg.join now args).2.bucket = ref → args.deviceSessionID ≠ ""
  | _ => True

/-- The operation neither joins with the credentials nor leaves the seat. -/
def Spares (id : String) (slot : Slot) (token deviceSessionID : String) :
    Op κ δ → Prop
  | .join args =>
      ¬ (args.id = id ∧ args.token = token ∧
        args.deviceSessionID = deviceSessionID)
  | .leave left seat => ¬ (left = id ∧ seat = slot)
  | _ => True

/-! ## The bucket under its token -/

/-- The seats under a token store a device session, and there is at most one
of them. -/
structure Bucket.Signed (token : String) (b : Bucket κ δ) : Prop where
  named : ∀ slot p, b.peers slot = some p → p.token = token →
    p.deviceSessionID ≠ ""
  apart : b.Apart token

theorem join_bucket {r : Registry κ δ} {now : Time} {args : JoinArgs κ}
    {ref : Ref} (registered : r.m.get? args.id = some ref) :
    (r.join now args).2.bucket = ref := by
  simp only [Registry.join, Registry.joinEnter, registered,
    Registry.joinAttach_bucket]

theorem SeatChange.deviceSession {cfg : Config} {now : Time}
    {args : JoinArgs κ} {outcome : Option Slot} {slot : Slot}
    {before : Option (Peer κ)} {p' : Peer κ}
    (change : SeatChange cfg now args outcome slot before (some p')) :
    (∃ p, before = some p ∧ p'.token = p.token ∧
      (p.deviceSessionID ≠ "" → p'.deviceSessionID ≠ "")) ∨
      p' = args.peer now := by
  generalize afterEq : some p' = after at change
  cases change with
  | kept => exact .inl ⟨p', afterEq.symm, rfl, fun stored => stored⟩
  | cleared => simp at afterEq
  | @reclaimed p =>
      obtain rfl := Option.some.inj afterEq
      refine .inl ⟨p, rfl, rfl, fun stored => ?_⟩
      unfold JoinArgs.reclaim
      simp only
      split
      · assumption
      · exact stored
  | taken => exact .inr (Option.some.inj afterEq)

theorem Bucket.Signed.join {cfg : Config} {now : Time} {args : JoinArgs κ}
    {b : Bucket κ δ} {token : String} (signed : b.Signed token)
    (given : token ≠ "")
    (named : args.token = token → args.deviceSessionID ≠ "") :
    (b.join cfg now args).1.Signed token where
  named := by
    intro slot p' occupied sameToken
    have change := join_seatChange cfg now args b slot
    rw [occupied] at change
    rcases change.deviceSession with ⟨p, before, same, stays⟩ | rfl
    · exact stays (signed.named slot p before (same ▸ sameToken))
    · exact named sameToken
  apart := by
    apply signed.apart.join given
    intro sameToken beside
    exact named sameToken beside.2.1

theorem Bucket.Signed.congr {b b' : Bucket κ δ} {token : String}
    (signed : b.Signed token) (same : b'.peers = b.peers) :
    b'.Signed token where
  named := by
    rw [same]
    exact signed.named
  apart := signed.apart.congr same

theorem Bucket.Signed.markLeft {b : Bucket κ δ} {token : String}
    (signed : b.Signed token) {left : Slot} {p : Peer κ} {now : Time}
    (occupied : b.peers left = some p) :
    (b.markLeft left p now).Signed token where
  named := by
    intro slot q occupied' sameToken
    by_cases here : slot = left
    · subst here
      rw [Bucket.markLeft, setPeer_peers_self] at occupied'
      obtain rfl := Option.some.inj occupied'
      exact signed.named slot p occupied sameToken
    · rw [Bucket.markLeft, setPeer_peers_of_ne _ _ here] at occupied'
      exact signed.named slot q occupied' sameToken
  apart := signed.apart.markLeft occupied

/-- The bucket behind a reference is signed under the token, once it is
there. -/
def SignedAt (ref : Ref) (token : String) (s : Clocked κ δ) : Prop :=
  ∀ b, s.reg.heap[ref]? = some b → b.Signed token

theorem SignedAt.step [Payload δ] {ref : Ref} {token : String}
    {s : Clocked κ δ} {op : Op κ δ} {now : Time}
    (signed : SignedAt ref token s) (given : token ≠ "")
    (named : NamesDevice ref token s (op, now)) :
    SignedAt ref token ⟨op.run now s.reg, now⟩ := by
  intro b' found'
  rcases op.run_bucket now s.reg found' with ⟨b, found, effect⟩ | published
  · have before := signed b found
    cases effect with
    | kept => exact before
    | joined registered =>
        apply before.join given
        intro sameToken
        exact named sameToken (join_bucket registered)
    | left _ occupied => exact before.markLeft occupied
    | buffered => exact before.congr rfl
  · obtain ⟨args, rfl, absent, last, -, -, first, second⟩ := published
    have scanned : ∀ slot : Slot, slot = 0 ∨ slot = 1 := by decide
    constructor
    · intro slot p occupied sameToken
      rcases scanned slot with rfl | rfl
      · rw [first] at occupied
        obtain rfl := Option.some.inj occupied
        apply named sameToken
        simp [Registry.join, Registry.joinEnter, absent, Registry.joinCreate,
          last]
      · simp [second] at occupied
    · intro slot p q occupied occupied'
      rcases scanned slot with rfl | rfl
      · rw [show Slot.other 0 = 1 from rfl, second] at occupied'
        simp at occupied'
      · simp [second] at occupied

/-! ## The registry map -/

/-- Registered buckets carry the id they are registered under. -/
def MapWired (s : Clocked κ δ) : Prop :=
  ∀ id ref, s.reg.m.get? id = some ref →
    ∃ b, s.reg.heap[ref]? = some b ∧ b.id = id

theorem Op.Effect.id_eq {now : Time} {r : Registry κ δ} {ref : Ref}
    {b b' : Bucket κ δ} {op : Op κ δ} (effect : op.Effect now r ref b b') :
    b'.id = b.id := by
  cases effect with
  | kept | buffered | left => rfl
  | @joined args =>
      obtain ⟨peers, frame⟩ := join_frame r.cfg now args b
      rw [frame]

section

variable [Payload δ] {now : Time} {r : Registry κ δ} {op : Op κ δ}

/-- A registration after an operation was there before, or is that of the
bucket a join has published. -/
theorem Op.registered {id : String} {ref : Ref}
    (registered : (op.run now r).m.get? id = some ref) :
    r.m.get? id = some ref ∨ ∃ args, op = .join args ∧ args.id = id ∧
      r.m.get? id = none ∧ ref = r.heap.length := by
  have ofErase : ∀ {m : InsertionMap String Ref} {erased : String},
      (m.erase erased).get? id = some ref → m.get? id = some ref := by
    intro m erased found
    rw [InsertionMap.get?_erase] at found
    split at found
    · simp at found
    · exact found
  cases op with
  | join args =>
      simp only [run, Registry.join, Registry.joinEnter] at registered
      cases absent : r.m.get? args.id with
      | none =>
          simp only [absent, Registry.joinCreate, InsertionMap.get?_set]
            at registered
          split at registered
          · rename_i same
            exact .inr ⟨args, rfl, same.symm, same ▸ absent,
              (Option.some.inj registered).symm⟩
          · exact .inl registered
      | some target =>
          simp only [absent, Registry.joinAttach] at registered
          split at registered <;> exact .inl registered
  | leave left slot =>
      left
      simp only [run, Registry.leave] at registered
      split at registered
      · exact registered
      · rename_i target _
        rcases r.leaveSection_cases now left slot target with
          ⟨-, same⟩ | ⟨_, _, _, _, _, _, _, mapEq⟩
        · rwa [same] at registered
        · rw [mapEq] at registered
          split at registered
          · exact ofErase registered
          · exact registered
  | bufferIfAlone | drainBuffer =>
      rw [run, Registry.updateBucket_m] at registered
      exact .inl registered
  | sweepIdle =>
      left
      rcases r.sweepKeys_get? now r.m.keys id with same | ⟨gone, -⟩
      · exact same.symm.trans registered
      · exact absurd registered (by simp [run, Registry.sweepIdle, gone])

variable (now) in
/-- A registered bucket stays registered, unless a leave or a sweep finds it
abandoned. -/
theorem Op.stays_registered {id : String} {ref : Ref} {b : Bucket κ δ}
    (registered : r.m.get? id = some ref) (found : r.heap[ref]? = some b) :
    (op.run now r).m.get? id = some ref ∨
      (∃ slot p, op = .leave id slot ∧ b.peers slot = some p ∧
        shouldDeleteLocked r.cfg (b.markLeft slot p now) now = true) ∨
      op = .sweepIdle ∧ sweepVerdict r.cfg now b = true := by
  cases op with
  | join args => exact .inl (r.join_m_get? now args registered)
  | bufferIfAlone | drainBuffer =>
      left
      rw [run, Registry.updateBucket_m]
      exact registered
  | sweepIdle =>
      rcases r.sweepKeys_get? now r.m.keys id with same | ⟨-, b₁, found₁, gone⟩
      · exact .inl (same.trans registered)
      · right
        right
        have sameBucket : r.bucket? id = some b := by
          simp [Registry.bucket?, registered, found]
        obtain rfl := Option.some.inj (sameBucket.symm.trans found₁)
        exact ⟨rfl, gone⟩
  | leave left slot =>
      simp only [run, Registry.leave]
      cases target : r.m.get? left with
      | none => exact .inl registered
      | some other =>
          simp only
          rcases r.leaveSection_cases now left slot other with
            ⟨-, same⟩ | ⟨c, p, found₁, occupied, -, -, -, mapEq⟩
          · left
            rw [same]
            exact registered
          · rw [mapEq]
            split
            · rename_i deletes
              by_cases here : id = left
              · subst here
                obtain rfl := Option.some.inj (registered.symm.trans target)
                obtain rfl := Option.some.inj (found.symm.trans found₁)
                exact .inr (.inl ⟨slot, p, rfl, occupied, deletes⟩)
              · left
                rw [InsertionMap.get?_erase_of_ne _ here]
                exact registered
            · exact .inl registered

theorem MapWired.step {s : Clocked κ δ} (wired : MapWired s) :
    MapWired (⟨op.run now s.reg, now⟩ : Clocked κ δ) := by
  intro id ref registered
  rcases Op.registered registered with before | published
  · obtain ⟨b, found, sameId⟩ := wired id ref before
    obtain ⟨b', found', effect⟩ := op.run_kept now s.reg found
    exact ⟨b', found', effect.id_eq.trans sameId⟩
  · obtain ⟨args, rfl, sameId, absent, rfl⟩ := published
    rw [← sameId] at absent
    let fresh : Bucket κ δ :=
      { id := args.id
        peers := fun _ => none
        created := now
        lastSeen := now
        buffer := []
        creatorIP := args.ip
        bytesRelayed := 0 }
    refine ⟨fresh.setPeer 0 (some (args.peer now)), ?_, sameId⟩
    simp [Op.run, Registry.join, Registry.joinEnter, absent,
      Registry.joinCreate, fresh]

end

/-! ## The seat of a peer that has left -/

/-- What holds of a registry while every join under a token names its device
session. -/
structure Guarded (cfg : Config) (ref : Ref) (token : String)
    (s : Clocked κ δ) : Prop where
  wired : MapWired s
  signed : SignedAt ref token s
  reclaimTTL : s.reg.cfg.reclaimTTL = cfg.reclaimTTL
  idleTTL : s.reg.cfg.idleTTL = cfg.idleTTL

/-- A seat of the bucket registered under an id is held for the peer that left
it at some time. -/
structure Awaits (id : String) (ref : Ref) (slot : Slot)
    (token deviceSessionID : String) (left : Time) (s : Clocked κ δ) :
    Prop where
  registered : s.reg.m.get? id = some ref
  seat : ∃ b p, s.reg.heap[ref]? = some b ∧ left ≤ b.lastSeen ∧
    b.peers slot = some p ∧ p.token = token ∧
    p.deviceSessionID = deviceSessionID ∧ p.connected = false ∧
    p.droppedAt = some left

section

variable {cfg : Config} {ref : Ref} {token : String} {s : Clocked κ δ}
  {now : Time}

theorem held_seat_keeps {b : Bucket κ δ} {slot : Slot} {p : Peer κ}
    {left : Time} (occupied : b.peers slot = some p)
    (dropped : p.droppedAt = some left)
    (inTime : now ≤ left + cfg.reclaimTTL) :
    shouldDeleteLocked cfg b now = false := by
  unfold shouldDeleteLocked
  split
  · simp only [Bool.not_eq_false', List.any_eq_true]
    have scanned : ∀ i : Slot, i ∈ ([0, 1] : List Slot) := by decide
    refine ⟨slot, scanned slot, ?_⟩
    rw [occupied, Option.any_some, dropped, Option.any_some]
    exact decide_eq_true (sub_le_iff_le_add'.mpr inTime)
  · rfl

theorem held_seat_not_swept {b : Bucket κ δ} {slot : Slot} {p : Peer κ}
    {left : Time} (occupied : b.peers slot = some p)
    (dropped : p.droppedAt = some left) (seen : left ≤ b.lastSeen)
    (patience : cfg.reclaimTTL < cfg.idleTTL)
    (inTime : now ≤ left + cfg.reclaimTTL) :
    sweepVerdict cfg now b = false := by
  have within : now - left ≤ cfg.reclaimTTL := sub_le_iff_le_add'.mpr inTime
  have busy : decide (now - b.lastSeen ≥ cfg.idleTTL) = false := by
    rw [decide_eq_false_iff_not, not_le]
    have sinceSeen : now - b.lastSeen ≤ now - left := sub_le_sub_left seen now
    exact (sinceSeen.trans within).trans_lt patience
  have hold : (([0, 1] : List Slot).any fun slot =>
      (b.peers slot).any fun p =>
        p.droppedAt.any fun droppedAt =>
          now - droppedAt ≤ cfg.reclaimTTL) = true := by
    have scanned : ∀ i : Slot, i ∈ ([0, 1] : List Slot) := by decide
    rw [List.any_eq_true]
    refine ⟨slot, scanned slot, ?_⟩
    rw [occupied, Option.any_some, dropped, Option.any_some]
    exact decide_eq_true within
  simp only [sweepVerdict, busy, hold]
  cases decide (b.connectedCount = 0) <;> rfl

/-- A join with the token and device session of a held seat gets that seat,
when nobody sits under the same token beside it. -/
theorem join_own {b : Bucket κ δ} {slot : Slot} {args : JoinArgs κ}
    (given : args.token ≠ "") (apart : b.Apart args.token)
    (own : ownSeat cfg now args (b.peers slot) = true) :
    (b.join cfg now args).2 = some slot := by
  cases occupied : b.peers slot with
  | none => simp [occupied, ownSeat] at own
  | some p =>
  have sameToken : p.token = args.token := by
    simp only [occupied, ownSeat, Option.any_some, Bool.and_eq_true,
      decide_eq_true_eq] at own
    exact own.1.1
  have alone : ∀ i, i ≠ slot → ∀ q, b.peers i = some q →
      q.token ≠ args.token := by
    intro i different q there
    rw [Slot.eq_other_of_ne different] at there
    exact apart slot p q occupied there sameToken
  have noneElsewhere : ∀ i, i ≠ slot →
      ownSeat cfg now args (b.peers i) = false := by
    intro i different
    cases there : b.peers i with
    | none => rfl
    | some q => simp [ownSeat, alone i different q there]
  have noForeign : ∀ i, foreignSeat cfg now args (b.peers i) = false := by
    intro i
    by_cases same : i = slot
    · subst same
      cases foreign : foreignSeat cfg now args (b.peers i) with
      | false => rfl
      | true => simp [foreign_not_own foreign] at own
    · cases there : b.peers i with
      | none => rfl
      | some q => simp [foreignSeat, alone i same q there]
  cases outcome : (b.join cfg now args).2 with
  | none =>
      rcases (join_rejected_iff cfg now args b).mp outcome with
        ⟨-, foreign⟩ | ⟨unowned, -⟩
      · simp [noForeign] at foreign
      · rcases unowned with noToken | ⟨first, second⟩
        · exact absurd noToken given
        · have scanned : ∀ i : Slot, i = 0 ∨ i = 1 := by decide
          rcases scanned slot with rfl | rfl
          · simp [first] at own
          · simp [second] at own
  | some i =>
      congr 1
      rcases join_accepted outcome with ⟨-, ownHere, -⟩ | free
      · by_contra different
        simp [noneElsewhere i different] at ownHere
      · simp [(free.unclaimed given slot).1] at own

theorem Awaits.join {id : String} {slot : Slot} {left : Time}
    {args : JoinArgs κ} (sameId : args.id = id) (given : args.token ≠ "")
    (guarded : Guarded cfg ref args.token s)
    (awaits : Awaits id ref slot args.token args.deviceSessionID left s)
    (inTime : now ≤ left + cfg.reclaimTTL) :
    (s.reg.join now args).2 = Registry.attachResult ref (some slot) := by
  obtain ⟨b, p, found, -, occupied, tokenP, deviceP, off, dropped⟩ :=
    awaits.seat
  have registered : s.reg.m.get? args.id = some ref := by
    rw [sameId]
    exact awaits.registered
  have own : ownSeat s.reg.cfg now args (b.peers slot) = true := by
    have within : now - left ≤ s.reg.cfg.reclaimTTL := by
      rw [guarded.reclaimTTL]
      exact sub_le_iff_le_add'.mpr inTime
    have named := (guarded.signed b found).named slot p occupied tokenP
    rw [deviceP] at named
    have held : peerSeatHeld p now s.reg.cfg.reclaimTTL = true := by
      rw [peerSeatHeld_eq, off, dropped, Bool.false_or, Option.any_some]
      exact decide_eq_true within
    simp [occupied, ownSeat, tokenP, deviceSessionMatches, deviceP, named, held]
  have seated := join_own given (guarded.signed b found).apart own
  simp [Registry.join, Registry.joinEnter, registered, Registry.joinAttach,
    found, seated]

variable [Payload δ] {op : Op κ δ}

theorem Guarded.start (starts : (operations κ δ cfg).init s) :
    Guarded cfg ref token s := by
  have starts : s.reg = newRegistry cfg := starts
  constructor
  · intro id ref registered
    simp [starts, newRegistry] at registered
  · intro b found
    simp [starts, newRegistry] at found
  · simp [starts, newRegistry]
  · simp [starts, newRegistry]

theorem Guarded.step (guarded : Guarded cfg ref token s) (given : token ≠ "")
    (named : NamesDevice ref token s (op, now)) :
    Guarded cfg ref token ⟨op.run now s.reg, now⟩ where
  wired := guarded.wired.step
  signed := guarded.signed.step given named
  reclaimTTL := by
    rw [Op.run_cfg]
    exact guarded.reclaimTTL
  idleTTL := by
    rw [Op.run_cfg]
    exact guarded.idleTTL

/-- Nobody but the peer itself takes a waiting seat, and neither a leave nor a
sweep deletes its bucket within the reclaim window. -/
theorem Awaits.step {id : String} {slot : Slot} {deviceSessionID : String}
    {left : Time}
    (awaits : Awaits id ref slot token deviceSessionID left s)
    (guarded : Guarded cfg ref token s)
    (patience : cfg.reclaimTTL < cfg.idleTTL)
    (since : left ≤ now) (inTime : now ≤ left + cfg.reclaimTTL)
    (spared : Spares id slot token deviceSessionID op) :
    Awaits id ref slot token deviceSessionID left
      (⟨op.run now s.reg, now⟩ : Clocked κ δ) := by
  obtain ⟨b, p, found, seen, occupied, tokenP, deviceP, off, dropped⟩ :=
    awaits.seat
  have inTime' : now ≤ left + s.reg.cfg.reclaimTTL :=
    guarded.reclaimTTL ▸ inTime
  have held : peerSeatHeld p now s.reg.cfg.reclaimTTL = true := by
    rw [peerSeatHeld_eq, off, dropped, Bool.false_or, Option.any_some]
    exact decide_eq_true (sub_le_iff_le_add'.mpr inTime')
  constructor
  · rcases op.stays_registered now awaits.registered found with
      kept | deleted | swept
    · exact kept
    · obtain ⟨seat, q, rfl, _, deletes⟩ := deleted
      have elsewhere : slot ≠ seat := fun same =>
        spared ⟨rfl, same.symm⟩
      have stays : (b.markLeft seat q now).peers slot = some p := by
        rw [Bucket.markLeft, setPeer_peers_of_ne _ _ elsewhere]
        exact occupied
      simp [held_seat_keeps stays dropped inTime'] at deletes
    · have patient : s.reg.cfg.reclaimTTL < s.reg.cfg.idleTTL := by
        rw [guarded.reclaimTTL, guarded.idleTTL]
        exact patience
      simp [held_seat_not_swept occupied dropped seen patient inTime']
        at swept
  · obtain ⟨b', found', effect⟩ := op.run_kept now s.reg found
    obtain ⟨c, sameBucket, idEq⟩ := guarded.wired id ref awaits.registered
    obtain rfl := Option.some.inj (found.symm.trans sameBucket)
    cases effect with
    | kept => exact ⟨b, p, found', seen, occupied, tokenP, deviceP, off, dropped⟩
    | buffered =>
        exact ⟨_, p, found', seen, occupied, tokenP, deviceP, off, dropped⟩
    | @left leaving seat q registered there =>
        have sameId : leaving = id := by
          obtain ⟨c, sameBucket, idEq'⟩ := guarded.wired leaving ref registered
          obtain rfl := Option.some.inj (found.symm.trans sameBucket)
          exact idEq'.symm.trans idEq
        have elsewhere : slot ≠ seat := fun same =>
          spared ⟨sameId, same.symm⟩
        refine ⟨_, p, found', since, ?_, tokenP, deviceP, off, dropped⟩
        rw [Bucket.markLeft, setPeer_peers_of_ne _ _ elsewhere]
        exact occupied
    | @joined args registered =>
        have sameId : args.id = id := by
          obtain ⟨c, sameBucket, idEq'⟩ := guarded.wired args.id ref registered
          obtain rfl := Option.some.inj (found.symm.trans sameBucket)
          exact idEq'.symm.trans idEq
        obtain ⟨peers, frame⟩ := join_frame s.reg.cfg now args b
        have seen' : left ≤ (b.join s.reg.cfg now args).1.lastSeen := by
          rw [frame]
          exact since
        have change := join_seatChange s.reg.cfg now args b slot
        rw [occupied] at change
        rcases change.of_held held with ⟨-, stays⟩ | own
        · exact ⟨_, p, found', seen', stays, tokenP, deviceP, off, dropped⟩
        · obtain ⟨-, -, -, sameToken, session⟩ := own
          rcases session with none | same
          · exact absurd none
              ((guarded.signed b found).named slot p occupied tokenP)
          · exact absurd ⟨sameId, sameToken.trans tokenP, same.symm.trans deviceP⟩
              spared

/-- A leave makes the seat wait for its occupant. -/
theorem Awaits.begin (now : Time) {id : String} {slot : Slot}
    {b : Bucket κ δ} {p : Peer κ}
    (registered : s.reg.m.get? id = some ref)
    (found : s.reg.heap[ref]? = some b) (occupied : b.peers slot = some p)
    (window : 0 ≤ s.reg.cfg.reclaimTTL) :
    Awaits id ref slot p.token p.deviceSessionID now
      (⟨Op.run now s.reg (.leave id slot), now⟩ : Clocked κ δ) := by
  have marked : (b.markLeft slot p now).peers slot = some
      { p with
        connected := false
        droppedAt := some now
        conn := none
        lastSeen := now } := by
    rw [Bucket.markLeft, setPeer_peers_self]
  rcases s.reg.leaveSection_cases now id slot ref with
    ⟨vacant, -⟩ | ⟨c, q, found₁, occupied₁, -, heapEq, -, mapEq⟩
  · simp [vacant b found] at occupied
  · obtain rfl := Option.some.inj (found.symm.trans found₁)
    obtain rfl := Option.some.inj (occupied.symm.trans occupied₁)
    have kept : shouldDeleteLocked s.reg.cfg (b.markLeft slot p now) now =
        false := by
      apply held_seat_keeps marked rfl
      exact le_add_of_nonneg_right window
    obtain ⟨inBounds, -⟩ := List.getElem?_eq_some_iff.mp found
    constructor
    · simp [Op.run, Registry.leave, registered, mapEq, kept]
    · refine ⟨b.markLeft slot p now, _, ?_, le_refl now, marked, rfl, rfl, rfl,
        rfl⟩
      simp [Op.run, Registry.leave, registered, heapEq, inBounds]

end

/-! ## Runs -/

/-- A peer with a token leaves its seat and comes back within the reclaim
window: whatever happened to the registry before and in between, the join is
accepted into the same seat of the same bucket, when every join under the token
names a device session and nobody else used the peer's credentials or left its
seat. -/
theorem reclaim_within_window [Payload δ] {cfg : Config}
    (window : 0 ≤ cfg.reclaimTTL) (patience : cfg.reclaimTTL < cfg.idleTTL)
    {s₀ s₁ s₂ s₃ : Clocked κ δ}
    {before after : List (Clocked κ δ × Op κ δ × Time)}
    (starts : (operations κ δ cfg).init s₀)
    (earlier : (operations κ δ cfg).Run s₀ before s₁)
    {id : String} {ref : Ref} {slot : Slot} {b : Bucket κ δ} {p : Peer κ}
    (registered : s₁.reg.m.get? id = some ref)
    (found : s₁.reg.heap[ref]? = some b) (occupied : b.peers slot = some p)
    (given : p.token ≠ "") {left : Time}
    (leaves : (operations κ δ cfg).step s₁ (.leave id slot, left) s₂)
    (between : (operations κ δ cfg).Run s₂ after s₃)
    (named : Lts.AllMeet (NamesDevice ref p.token) (before ++ after))
    (spared : Lts.AllMeet
      (fun _ label => Spares id slot p.token p.deviceSessionID label.1) after)
    {args : JoinArgs κ} (sameId : args.id = id)
    (sameToken : args.token = p.token)
    (sameDevice : args.deviceSessionID = p.deviceSessionID)
    {now : Time} (later : s₃.now ≤ now)
    (inTime : now ≤ left + cfg.reclaimTTL) :
    (s₃.reg.join now args).2 =
      { bucket := ref, slot := slot, created := false, rejected := false
        reason := "" } := by
  obtain ⟨namedBefore, namedAfter⟩ := Lts.allMeet_append.mp named
  have guarded : Guarded cfg ref p.token s₁ := by
    have run := Lts.run_restrict_iff.mpr ⟨earlier, namedBefore⟩
    apply run.preserves (Guarded.start starts)
    rintro s ⟨op, now⟩ s' guarded ⟨⟨-, rfl⟩, names⟩
    exact guarded.step given names
  obtain ⟨-, rfl⟩ := leaves
  have begun := Awaits.begin left registered found occupied
    (guarded.reclaimTTL ▸ window)
  have guarded' : Guarded cfg ref p.token
      ⟨Op.run left s₁.reg (.leave id slot), left⟩ :=
    guarded.step given trivial
  have waits : Guarded cfg ref p.token s₃ ∧ left ≤ s₃.now ∧
      (s₃.now ≤ left + cfg.reclaimTTL →
        Awaits id ref slot p.token p.deviceSessionID left s₃) := by
    have meets : Lts.AllMeet (fun s label => NamesDevice ref p.token s label ∧
        Spares id slot p.token p.deviceSessionID label.1) after := by
      intro entry member
      exact ⟨namedAfter entry member, spared entry member⟩
    have run := Lts.run_restrict_iff.mpr ⟨between, meets⟩
    apply run.preserves ⟨guarded', le_refl left, fun _ => begun⟩
    rintro s ⟨op, time⟩ s' ⟨guarded, since, waits⟩ ⟨⟨advance, rfl⟩, names, spares⟩
    have since' : left ≤ time := since.trans advance
    refine ⟨guarded.step given names, since', ?_⟩
    intro inTime
    exact (waits (advance.trans inTime)).step guarded patience since' inTime
      spares
  obtain ⟨guarded₃, -, waits⟩ := waits
  have awaits := waits (later.trans inTime)
  rw [← sameToken] at guarded₃ awaits given
  rw [← sameDevice] at awaits
  exact awaits.join sameId given guarded₃ inTime

/-! ## Alice comes back -/

private def patientConfig : Config := { roomConfig with idleTTL := 90 }

private def unused : Clocked String String := ⟨newRegistry patientConfig, 0⟩

/-- The state after the operation, at a time. -/
private def Clocked.then (s : Clocked String String) (now : Time)
    (op : Op String String) : Clocked String String :=
  ⟨op.run now s.reg, now⟩

private def seated : Clocked String String :=
  unused.then 0 (.join (alice "phone" "first"))

private def left : Clocked String String := seated.then 1 (.leave "room" 0)

private def beside : Clocked String String :=
  left.then 2 (.join (roomJoin "bob" "second"))

/-- Alice leaves seat 0, Bob joins, and Alice gets seat 0 back. -/
theorem reclaim_within_window_alice :
    (beside.reg.join 3 (alice "phone" "third")).2 =
      { bucket := 0, slot := 0, created := false, rejected := false
        reason := "" } := by
  have starts : (operations String String patientConfig).init unused := rfl
  have earlier : (operations String String patientConfig).Run unused
      ([] ++ [(unused, (.join (alice "phone" "first"), 0))]) seated :=
    (Lts.Run.refl unused).snoc ⟨show (0 : Int) ≤ 0 by decide, rfl⟩
  have leaves : (operations String String patientConfig).step seated
      (.leave "room" 0, 1) left := ⟨show (0 : Int) ≤ 1 by decide, rfl⟩
  have between : (operations String String patientConfig).Run left
      ([] ++ [(left, (.join (roomJoin "bob" "second"), 2))]) beside :=
    (Lts.Run.refl left).snoc ⟨show (1 : Int) ≤ 2 by decide, rfl⟩
  have occupied : ∃ b, seated.reg.heap[0]? = some b ∧
      b.peers 0 = some ((alice "phone" "first").peer 0) := ⟨_, rfl, rfl⟩
  obtain ⟨b, found, there⟩ := occupied
  refine reclaim_within_window (show (0 : Int) ≤ 60 by decide)
    (show (60 : Int) < 90 by decide) starts earlier rfl found there
    (by decide) leaves between ?_ ?_ rfl rfl rfl (show (2 : Int) ≤ 3 by decide)
    (show (3 : Int) ≤ 1 + 60 by decide)
  · intro entry member
    rcases List.mem_cons.mp member with rfl | member
    · intro _ _
      decide
    · obtain rfl := List.mem_singleton.mp member
      intro same
      exact absurd same (by decide)
  · intro entry member
    obtain rfl := List.mem_singleton.mp member
    rintro ⟨-, sameToken, -⟩
    exact absurd sameToken (by decide)

private def tokenless (conn : String) : JoinArgs String :=
  { alice "phone" conn with token := "" }

/-- Without a token nobody is recognised: a peer that leaves seat 0 and comes
back at once is seated in seat 1. -/
theorem tokenless_seat_not_reclaimed :
    ∃ s₁ s₂ : Clocked String String,
      (operations String String patientConfig).Run unused
        [(unused, (.join (tokenless "first"), 0))] s₁ ∧
      (operations String String patientConfig).step s₁ (.leave "room" 0, 1)
        s₂ ∧
      Lts.AllMeet (NamesDevice 0 "") [(unused, (.join (tokenless "first"), 0))] ∧
      (∃ b p, s₁.reg.heap[0]? = some b ∧ b.peers 0 = some p ∧ p.token = "" ∧
        p.deviceSessionID = "phone") ∧
      (s₂.reg.join 2 (tokenless "second")).2.slot = 1 := by
  refine ⟨unused.then 0 (.join (tokenless "first")),
    (unused.then 0 (.join (tokenless "first"))).then 1 (.leave "room" 0),
    (Lts.Run.refl unused).snoc ⟨show (0 : Int) ≤ 0 by decide, rfl⟩,
    ⟨show (0 : Int) ≤ 1 by decide, rfl⟩, ?_, ⟨_, _, rfl, rfl, rfl, rfl⟩, rfl⟩
  intro entry member
  obtain rfl := List.mem_singleton.mp member
  intro _ _
  decide

end Byteln.Server

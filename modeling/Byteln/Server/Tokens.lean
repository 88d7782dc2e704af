import Byteln.Server.Operations

/-!
# One token, one seat

A token should hold at most one of the two seats of a bucket.  A join under the
token of a held seat is let into that seat or rejected, unless it names no
device session while the seat stores one: it is then neither taken for the
occupant nor for a third party, and sits down in the other seat.
`SitsBeside` describes that one join.
-/

namespace Byteln.Server

open Byteln.Library

variable {κ δ : Type}

/-- A seat held under a token. -/
def heldBy (cfg : Config) (now : Time) (token : String)
    (seat : Option (Peer κ)) : Bool :=
  seat.any fun p => p.token = token && peerSeatHeld p now cfg.reclaimTTL

/-- Both seats are held under the same token. -/
def Bucket.Twinned (cfg : Config) (now : Time) (b : Bucket κ δ) : Prop :=
  ∃ token, token ≠ "" ∧ heldBy cfg now token (b.peers 0) = true ∧
    heldBy cfg now token (b.peers 1) = true

/-- A join without a device session meets a seat held under its token with one,
and finds the other seat free. -/
def Bucket.SitsBeside (cfg : Config) (now : Time) (args : JoinArgs κ)
    (b : Bucket κ δ) : Prop :=
  args.token ≠ "" ∧ args.deviceSessionID = "" ∧
    ∃ slot p, b.peers slot = some p ∧ p.token = args.token ∧
      p.deviceSessionID ≠ "" ∧ peerSeatHeld p now cfg.reclaimTTL = true ∧
      heldSeat cfg now (b.peers slot.other) = false

/-- The seats are not both occupied under a token, held or not. -/
def Bucket.Apart (token : String) (b : Bucket κ δ) : Prop :=
  ∀ slot p q, b.peers slot = some p → b.peers slot.other = some q →
    p.token = token → q.token ≠ token

theorem heldBy_iff {cfg : Config} {now : Time} {token : String}
    {seat : Option (Peer κ)} :
    heldBy cfg now token seat = true ↔ ∃ p, seat = some p ∧ p.token = token ∧
      peerSeatHeld p now cfg.reclaimTTL = true := by
  simp [heldBy, Option.any_eq_true]

theorem Bucket.Apart.not_twinned {cfg : Config} {now : Time} {b : Bucket κ δ}
    (apart : ∀ token, token ≠ "" → b.Apart token) : ¬ b.Twinned cfg now := by
  rintro ⟨token, given, first, second⟩
  obtain ⟨p, occupied, sameToken, -⟩ := heldBy_iff.mp first
  obtain ⟨q, occupied', sameToken', -⟩ := heldBy_iff.mp second
  exact apart token given 0 p q occupied occupied' sameToken sameToken'

/-- A seat held under the caller's token is the caller's own or that of a third
party, unless the caller names no device session and the seat stores one. -/
theorem unclaimed_held {cfg : Config} {now : Time} {args : JoinArgs κ}
    {p : Peer κ} (sameToken : p.token = args.token)
    (held : peerSeatHeld p now cfg.reclaimTTL = true)
    (notOwn : ownSeat cfg now args (some p) = false)
    (notForeign : foreignSeat cfg now args (some p) = false) :
    args.deviceSessionID = "" ∧ p.deviceSessionID ≠ "" := by
  simp only [ownSeat, Option.any_some, sameToken, decide_true, Bool.true_and,
    held, Bool.and_true] at notOwn
  simp only [foreignSeat, isThirdPartyCredentialUse, Option.any_some,
    sameToken, decide_true, Bool.true_and, held, Bool.and_true,
    decide_eq_false_iff_not] at notForeign
  unfold deviceSessionMatches at notOwn
  split_ifs at notOwn with bothEmpty legacy oneEmpty
  · rcases oneEmpty with given | stored
    · exact ⟨given, fun stored => bothEmpty ⟨given, stored⟩⟩
    · by_cases given : args.deviceSessionID = ""
      · exact absurd ⟨given, stored⟩ bothEmpty
      · exact absurd ⟨stored, given⟩ legacy
  · simp only [not_or] at oneEmpty
    simp only [decide_eq_false_iff_not] at notOwn
    exact absurd ⟨oneEmpty.2, oneEmpty.1, notOwn⟩ notForeign

/-! ## What a join does to a token -/

/-- The occupant a seat has after a join sat there before under the same
token, or is the caller. -/
theorem SeatChange.token {cfg : Config} {now : Time} {args : JoinArgs κ}
    {outcome : Option Slot} {slot : Slot} {before : Option (Peer κ)}
    {p' : Peer κ}
    (change : SeatChange cfg now args outcome slot before (some p')) :
    (∃ p, before = some p ∧ p'.token = p.token) ∨
      outcome = some slot ∧ p' = args.peer now := by
  generalize afterEq : some p' = after at change
  cases change with
  | kept => exact .inl ⟨p', afterEq.symm, rfl⟩
  | cleared => simp at afterEq
  | @reclaimed p =>
      obtain rfl := Option.some.inj afterEq
      exact .inl ⟨p, rfl, rfl⟩
  | taken here => exact .inr ⟨here, Option.some.inj afterEq⟩

theorem SeatChange.elsewhere {cfg : Config} {now : Time} {args : JoinArgs κ}
    {outcome : Option Slot} {slot : Slot} {before : Option (Peer κ)}
    {q : Peer κ} (change : SeatChange cfg now args outcome slot before (some q))
    (elsewhere : outcome ≠ some slot) : before = some q := by
  generalize afterEq : some q = after at change
  cases change with
  | kept => rfl
  | cleared => simp at afterEq
  | reclaimed here => exact absurd here elsewhere
  | taken here => exact absurd here elsewhere

/-- A join keeps the seats apart under a token, unless it sits down beside a
seat under it. -/
theorem Bucket.Apart.join {cfg : Config} {now : Time} {args : JoinArgs κ}
    {b : Bucket κ δ} {token : String} (apart : b.Apart token)
    (given : token ≠ "")
    (clear : args.token = token → ¬ b.SitsBeside cfg now args) :
    (b.join cfg now args).1.Apart token := by
  intro slot p' q' occupied occupied' sameToken sameToken'
  have first := join_seatChange cfg now args b slot
  have second := join_seatChange cfg now args b slot.other
  rw [occupied] at first
  rw [occupied'] at second
  have fresh : ∀ (i : Slot) (p q : Peer κ), p = args.peer now →
      (b.join cfg now args).2 = some i →
      (b.join cfg now args).1.peers i = some p →
      (∃ before, b.peers i.other = some before ∧ q.token = before.token) →
      (b.join cfg now args).1.peers i.other = some q →
      p.token = token → q.token = token → False := by
    rintro i p q rfl here seated ⟨q₀, beside, sameAsBefore⟩ stays tokenP tokenQ
    have tokenArgs : args.token = token := tokenP
    have given' : args.token ≠ "" := tokenArgs ▸ given
    rcases join_accepted here with ⟨-, own, reclaimed⟩ | free
    · cases before : b.peers i with
      | none => simp [before, ownSeat] at own
      | some p₀ =>
          simp only [before, ownSeat, Option.any_some, Bool.and_eq_true,
            decide_eq_true_eq] at own
          exact apart i p₀ q₀ before beside (own.1.1.trans tokenArgs)
            (sameAsBefore ▸ tokenQ)
    · have unchanged : b.peers i.other = some q := by
        have change := join_seatChange cfg now args b i.other
        rw [stays, here] at change
        apply change.elsewhere
        simpa using (Slot.other_ne i).symm
      have held := free.held given' i.other q (Slot.other_ne i) stays
        (tokenQ.trans tokenArgs.symm)
      have unclaimed := free.unclaimed given' i.other
      rw [unchanged] at unclaimed
      obtain ⟨noSession, stored⟩ := unclaimed_held
        (tokenQ.trans tokenArgs.symm) held unclaimed.1 unclaimed.2
      apply clear tokenArgs
      refine ⟨given', noSession, i.other, q, unchanged,
        tokenQ.trans tokenArgs.symm, stored, held, ?_⟩
      rw [Slot.other_other]
      exact free.free
  rcases first.token with ⟨p, before, sameP⟩ | ⟨here, isCaller⟩
  · rcases second.token with ⟨q, before', sameQ⟩ | ⟨here, isCaller⟩
    · exact apart slot p q before before' (sameP ▸ sameToken)
        (sameQ ▸ sameToken')
    · refine fresh slot.other q' p' isCaller here occupied' ?_ ?_ sameToken'
        sameToken
      · rw [Slot.other_other]
        exact ⟨p, before, sameP⟩
      · rw [Slot.other_other]
        exact occupied
  · rcases second.token with known | ⟨here', -⟩
    · exact fresh slot p' q' isCaller here occupied known occupied' sameToken
        sameToken'
    · have sameSlot := Option.some.inj (here.symm.trans here')
      exact absurd sameSlot.symm (Slot.other_ne slot)

/-- A join that sits down beside a seat under its token holds both seats. -/
theorem Bucket.SitsBeside.twinned {cfg : Config} {now : Time}
    {args : JoinArgs κ} {b : Bucket κ δ} (beside : b.SitsBeside cfg now args) :
    (b.join cfg now args).1.Twinned cfg now := by
  obtain ⟨given, noSession, slot, p, occupied, sameToken, stored, held, free⟩ :=
    beside
  have notOwn : ownSeat cfg now args (b.peers slot) = false := by
    simp [occupied, ownSeat, deviceSessionMatches, noSession, stored]
  have kept : (b.join cfg now args).1.peers slot = some p ∧
      (b.join cfg now args).2 ≠ some slot := by
    have change := join_seatChange cfg now args b slot
    rw [occupied] at change
    rcases change.of_held held with ⟨notHere, stays⟩ | ⟨-, -, -, -, session⟩
    · exact ⟨stays, notHere⟩
    · rw [noSession] at session
      exact absurd (or_self_iff.mp session) stored
  have otherNotOwn : ownSeat cfg now args (b.peers slot.other) = false := by
    cases beside : b.peers slot.other with
    | none => rfl
    | some q =>
        rw [beside] at free
        simp only [heldSeat, Option.any_some] at free
        simp [ownSeat, free]
  have noForeign : ∀ seat : Option (Peer κ),
      foreignSeat cfg now args seat = false := by
    intro seat
    cases seat <;> simp [foreignSeat, isThirdPartyCredentialUse, noSession]
  have accepted : (b.join cfg now args).2 = some slot.other := by
    cases outcome : (b.join cfg now args).2 with
    | none =>
        rcases (join_rejected_iff cfg now args b).mp outcome with
          ⟨-, foreign⟩ | ⟨-, first, second⟩
        · simp [noForeign] at foreign
        · have both : ∀ i : Slot, heldSeat cfg now (b.peers i) = true := by
            have scanned : ∀ i : Slot, i = 0 ∨ i = 1 := by decide
            intro i
            rcases scanned i with rfl | rfl
            · exact first
            · exact second
          simp [both] at free
    | some i =>
        have elsewhere : i ≠ slot := by
          rintro rfl
          exact kept.2 outcome
        rw [Slot.eq_other_of_ne elsewhere]
  have seated : (b.join cfg now args).1.peers slot.other =
      some (args.peer now) := by
    rcases join_accepted accepted with ⟨-, own, -⟩ | takes
    · simp [otherNotOwn] at own
    · exact takes.taken
  have both : ∀ i : Slot, heldBy cfg now args.token
      ((b.join cfg now args).1.peers i) = true := by
    intro i
    by_cases same : i = slot
    · rw [same, kept.1]
      simp [heldBy, sameToken, held]
    · rw [Slot.eq_other_of_ne same, seated]
      simp [heldBy, JoinArgs.peer, peerSeatHeld]
  exact ⟨args.token, given, both 0, both 1⟩

/-! ## Runs -/

/-- No bucket has both seats held under one token. -/
def NoTwins (s : Clocked κ δ) : Prop :=
  ∀ (ref : Ref) (b : Bucket κ δ), s.reg.heap[ref]? = some b →
    ¬ b.Twinned s.reg.cfg s.now

/-- The condition on an operation: a join does not sit down beside a seat that
is held under its token. -/
def NotBeside (s : Clocked κ δ) : Op κ δ × Time → Prop
  | (.join args, now) => ∀ b, s.reg.bucket? args.id = some b →
      ¬ b.SitsBeside s.reg.cfg now args
  | _ => True

def TokensApart (s : Clocked κ δ) : Prop :=
  ∀ (ref : Ref) (b : Bucket κ δ), s.reg.heap[ref]? = some b →
    ∀ token, token ≠ "" → b.Apart token

theorem TokensApart.noTwins {s : Clocked κ δ} (apart : TokensApart s) :
    NoTwins s :=
  fun ref b found => Bucket.Apart.not_twinned (apart ref b found)

theorem Bucket.Apart.congr {b b' : Bucket κ δ} {token : String}
    (apart : b.Apart token) (same : b'.peers = b.peers) : b'.Apart token := by
  unfold Bucket.Apart
  rw [same]
  exact apart

theorem Bucket.Apart.markLeft {b : Bucket κ δ} {token : String}
    (apart : b.Apart token) {left : Slot} {p : Peer κ} {now : Time}
    (occupied : b.peers left = some p) : (b.markLeft left p now).Apart token := by
  have same : ∀ slot q', (b.markLeft left p now).peers slot = some q' →
      ∃ q, b.peers slot = some q ∧ q'.token = q.token := by
    intro slot q' occupied'
    by_cases here : slot = left
    · subst here
      rw [Bucket.markLeft, setPeer_peers_self] at occupied'
      obtain rfl := Option.some.inj occupied'
      exact ⟨p, occupied, rfl⟩
    · rw [Bucket.markLeft, setPeer_peers_of_ne _ _ here] at occupied'
      exact ⟨q', occupied', rfl⟩
  intro slot p' q' first second sameToken sameToken'
  obtain ⟨p₀, before, tokenP⟩ := same slot p' first
  obtain ⟨q₀, before', tokenQ⟩ := same slot.other q' second
  exact apart slot p₀ q₀ before before' (tokenP ▸ sameToken)
    (tokenQ ▸ sameToken')

/-- An operation keeps the tokens of every bucket apart, if a join among them
does not sit down beside a seat under its token. -/
theorem TokensApart.step [Payload δ] {s : Clocked κ δ} {op : Op κ δ}
    {now : Time} (apart : TokensApart s) (clear : NotBeside s (op, now)) :
    TokensApart ⟨op.run now s.reg, now⟩ := by
  intro ref b' found' token given
  rcases op.run_bucket now s.reg found' with ⟨b, found, effect⟩ | published
  · have before := apart ref b found token given
    cases effect with
    | kept => exact before
    | joined registered =>
        apply before.join given
        intro _
        apply clear b
        simp [Registry.bucket?, registered, found]
    | left _ occupied => exact before.markLeft occupied
    | buffered => exact before.congr rfl
  · obtain ⟨args, -, -, -, -, -, first, second⟩ := published
    intro slot p q occupied occupied'
    have scanned : ∀ slot : Slot, slot = 0 ∨ slot = 1 := by decide
    rcases scanned slot with rfl | rfl
    · rw [show Slot.other 0 = 1 from rfl, second] at occupied'
      simp at occupied'
    · rw [second] at occupied
      simp at occupied

/-- Along every run in which no join sits down beside a seat held under its
token, no bucket has both seats held under one token.  From every state such a
run reaches, an operation keeps that so exactly when it meets the
condition. -/
theorem tokens_hold_one_seat [Payload δ] (cfg : Config) {s : Clocked κ δ}
    (reachable : ((operations κ δ cfg).restrict NotBeside).Reachable s) :
    NoTwins s ∧ ∀ op now, s.now ≤ now →
      (NotBeside s (op, now) ↔
        NoTwins (⟨op.run now s.reg, now⟩ : Clocked κ δ)) := by
  have apart : TokensApart s := by
    apply reachable.invariant TokensApart
    · intro s starts ref b found
      have starts : s.reg = newRegistry cfg := starts
      simp [starts, newRegistry] at found
    · rintro s ⟨op, now⟩ s' apart ⟨⟨-, rfl⟩, clear⟩
      exact apart.step clear
  refine ⟨apart.noTwins, ?_⟩
  intro op now _
  constructor
  · intro clear
    exact (apart.step clear).noTwins
  · intro noTwins
    cases op with
    | leave | bufferIfAlone | drainBuffer | sweepIdle => trivial
    | join args =>
        intro b registered beside
        obtain ⟨ref, mapped, found⟩ := Option.bind_eq_some_iff.mp registered
        apply noTwins ref (b.join s.reg.cfg now args).1 _
        · rw [Op.run_cfg]
          exact beside.twinned
        · obtain ⟨inBounds, rfl⟩ := List.getElem?_eq_some_iff.mp found
          simp [Op.run, Registry.join, Registry.joinEnter, mapped,
            Registry.joinAttach, Registry.setBucket, inBounds]

/-! ## A tab without its device session -/

/-- Alice joining the room on some device over a connection. -/
def alice (device conn : String) : JoinArgs String where
  id := "room"
  token := "alice"
  deviceSessionID := device
  ip := "192.0.2.1"
  conn := conn

private def aliceSeated : Clocked String String :=
  ⟨Op.run 0 (newRegistry roomConfig) (.join (alice "phone" "first")), 0⟩

theorem tokens_hold_one_seat_alice :
    NoTwins aliceSeated ∧ ∀ op now, aliceSeated.now ≤ now →
      (NotBeside aliceSeated (op, now) ↔
        NoTwins (⟨op.run now aliceSeated.reg, now⟩ : Clocked String String)) := by
  have started : ((operations String String roomConfig).restrict
      NotBeside).Reachable ⟨newRegistry roomConfig, 0⟩ := .start rfl
  have step : ((operations String String roomConfig).restrict NotBeside).step
      ⟨newRegistry roomConfig, 0⟩ (.join (alice "phone" "first"), 0)
      aliceSeated := by
    refine ⟨⟨le_refl (0 : Int), rfl⟩, ?_⟩
    intro b registered
    simp [newRegistry, Registry.bucket?] at registered
  exact tokens_hold_one_seat roomConfig (started.step step)

/-- Alice sits in seat 0 with a device session; a join with her token and no
device session takes seat 1. -/
theorem token_holds_both_seats :
    ∃ s : Clocked String String,
      (operations String String roomConfig).Reachable s ∧ ¬ NoTwins s := by
  have started : (operations String String roomConfig).Reachable
      ⟨newRegistry roomConfig, 0⟩ := .start rfl
  have seated := operations_step started (.join (alice "phone" "first"))
    (le_refl (0 : Int))
  have beside := operations_step seated (.join (alice "" "second"))
    (Int.zero_le_ofNat 1)
  refine ⟨_, beside, ?_⟩
  intro noTwins
  apply noTwins 0 _ rfl
  exact ⟨"alice", by decide, by decide, by decide⟩

end Byteln.Server

import Mathlib.Algebra.Order.Floor.Ring
import Mathlib.Data.Rat.Floor
import Mathlib.Tactic.Ring
import Byteln.Library.Transition
import Byteln.Server.Throttle

/-!
# Paced frames

The token bucket that releases the bulk frames of a page, and the bytes that
the relay sees of them.  What the page may send at once and what it may send
in the long run stay below what the relay allows, whatever the relay makes of
the traffic.
-/

namespace Byteln.Client

open Byteln.Library Byteln.Server

def PACER_BYTES_PER_SEC : Nat :=
  200 * 1024

def PACER_BURST_BYTES : Nat :=
  512 * 1024

/-- Times are in milliseconds. -/
structure Pacer where
  rate : ℚ
  burst : ℚ
  tokens : ℚ
  last : ℚ
deriving DecidableEq

/-- A pacer with the default rate and burst. -/
def newPacer (now : ℚ) : Pacer :=
  ⟨PACER_BYTES_PER_SEC, PACER_BURST_BYTES, PACER_BURST_BYTES, now⟩

namespace Pacer

def refill (pacer : Pacer) (t : ℚ) : Pacer :=
  { pacer with
    tokens := min pacer.burst
      (pacer.tokens + (t - pacer.last) / 1000 * pacer.rate)
    last := t }

/-- One round of the loop in `take`.  It releases the frame, or sleeps for
some milliseconds. -/
def round (pacer : Pacer) (t cost : ℚ) : Pacer × Option ℤ :=
  let pacer := pacer.refill t
  if cost ≤ pacer.tokens ∨ pacer.burst ≤ pacer.tokens then
    ({ pacer with tokens := pacer.tokens - cost }, none)
  else
    (pacer, some ⌈(min cost pacer.burst - pacer.tokens) / pacer.rate * 1000⌉)

end Pacer

/-- The size of a frame that fits into a burst. -/
structure PacedFrame where
  cost : Nat
  fits : cost ≤ PACER_BURST_BYTES

/-- A page that paces its frames, and the relay's limiter for one of its
connections. -/
structure PacedConnection where
  /-- The clock of the page. -/
  clock : ℚ
  pacer : Option Pacer
  /-- The calls of `take` that wait, the oldest first. -/
  chain : List PacedFrame
  /-- The oldest of them sleeps until then. -/
  wakes : ℚ
  limiter : Option TokenBucket
  /-- The relay has refused a frame. -/
  refused : Bool

/-- What happens next. -/
inductive Pacing where
  | pass (ms : ℚ)
  | newPacer
  | connect
  | take (frame : PacedFrame)
  /-- The loop looks at the clock.  A frame that it releases is sent over the
  connection or not, and the relay makes its own verdict on it. -/
  | round (sent botLike : Bool)

namespace PacedConnection

/-- The relay's clock, in seconds, at which a frame arrives that is released
now. -/
def arrival (state : PacedConnection) (shift : ℚ) : ℚ :=
  (state.clock + shift) / 1000

/-- A released frame reaches the relay. -/
def receive (state : PacedConnection) (shift : ℚ) (size : Nat)
    (botLike : Bool) : PacedConnection :=
  match state.limiter with
  | none => state
  | some limiter =>
      let (limiter, allowed) := limiter.limitBytes maxBytesPerSecConn
        (state.arrival shift) size botLike
      { state with
        limiter := some limiter
        refused := state.refused || !allowed }

def run (shift : ℚ) (state : PacedConnection) :
    Pacing → Option PacedConnection
  | .pass ms =>
      if 0 ≤ ms then some { state with clock := state.clock + ms } else none
  | .newPacer =>
      match state.pacer with
      | none => some { state with pacer := some (Client.newPacer state.clock) }
      | some _ => none
  | .connect =>
      match state.limiter with
      | none =>
          some { state with
            limiter := some (byteLimiter maxBytesPerSecConn
              (state.arrival shift)) }
      | some _ => none
  | .take frame => some { state with chain := state.chain ++ [frame] }
  | .round sent botLike =>
      match state.pacer, state.chain with
      | some pacer, frame :: chain =>
          if state.wakes ≤ state.clock then
            match pacer.round state.clock frame.cost with
            | (pacer, some ms) =>
                some { state with
                  pacer := some pacer
                  wakes := state.clock + ms }
            | (pacer, none) =>
                let state := { state with pacer := some pacer, chain := chain }
                some (if sent then state.receive shift frame.cost botLike
                  else state)
          else none
      | _, _ => none

end PacedConnection

/-- Frames reach the relay at the times at which they are released, shifted by
a constant. -/
def pacedConnection (shift : ℚ) : Lts PacedConnection Pacing where
  init := fun state =>
    state.pacer = none ∧ state.limiter = none ∧ state.refused = false
  step := fun state act next => state.run shift act = some next

/-! ## The pacer stays behind -/

/-- What the pacer would release at once. -/
def Pacer.ready (pacer : Pacer) (clock : ℚ) : ℚ :=
  topUp PACER_BURST_BYTES
    ((clock - pacer.last) / 1000 * PACER_BYTES_PER_SEC) pacer.tokens

/-- What the relay would accept at once, at the tightened rate. -/
def acceptable (limiter : TokenBucket) (now : ℚ) : ℚ :=
  topUp (byteRate maxBytesPerSecConn true * 2)
    ((now - limiter.last) * byteRate maxBytesPerSecConn true) limiter.tokens

structure PacedWithin (shift : ℚ) (state : PacedConnection) : Prop where
  accepted : state.refused = false
  pacer : ∀ pacer, state.pacer = some pacer →
    pacer.rate = PACER_BYTES_PER_SEC ∧ pacer.burst = PACER_BURST_BYTES ∧
      pacer.last ≤ state.clock
  limiter : ∀ limiter, state.limiter = some limiter →
    limiter.last ≤ state.arrival shift ∧
      (state.pacer = none →
        (PACER_BURST_BYTES : ℚ) ≤ acceptable limiter (state.arrival shift))
  ahead : ∀ pacer limiter, state.pacer = some pacer →
    state.limiter = some limiter →
      pacer.ready state.clock ≤ acceptable limiter (state.arrival shift)

/-- A burst fits into the tightened bucket. -/
theorem burst_le : (PACER_BURST_BYTES : ℚ) ≤
    byteRate maxBytesPerSecConn true * 2 := by
  norm_num [PACER_BURST_BYTES, byteRate, maxBytesPerSecConn]

/-- The pacer is slower than the tightened rate. -/
theorem rate_le : (PACER_BYTES_PER_SEC : ℚ) ≤
    byteRate maxBytesPerSecConn true := by
  norm_num [PACER_BYTES_PER_SEC, byteRate, maxBytesPerSecConn]

theorem tightened_le (botLike : Bool) :
    byteRate maxBytesPerSecConn true ≤ byteRate maxBytesPerSecConn botLike := by
  cases botLike <;> norm_num [byteRate, maxBytesPerSecConn]

theorem byteRate_pos (botLike : Bool) :
    0 < byteRate maxBytesPerSecConn botLike := by
  cases botLike <;> norm_num [byteRate, maxBytesPerSecConn]

theorem Pacer.ready_le (pacer : Pacer) (clock : ℚ) :
    pacer.ready clock ≤ PACER_BURST_BYTES :=
  min_le_left _ _

/-- A bucket that has a burst accepts it at any later time. -/
theorem acceptable_of_tokens {limiter : TokenBucket} {now : ℚ}
    (clock : limiter.last ≤ now)
    (enough : (PACER_BURST_BYTES : ℚ) ≤ limiter.tokens) :
    (PACER_BURST_BYTES : ℚ) ≤ acceptable limiter now := by
  apply le_min burst_le
  have gain : 0 ≤ (now - limiter.last) * byteRate maxBytesPerSecConn true :=
    mul_nonneg (sub_nonneg.mpr clock) (byteRate_pos true).le
  exact enough.trans (le_add_of_nonneg_right gain)

namespace PacedConnection

variable {shift : ℚ} {state : PacedConnection}

theorem arrival_pass (state : PacedConnection) (shift ms : ℚ) :
    ({ state with clock := state.clock + ms } : PacedConnection).arrival shift =
      state.arrival shift + ms / 1000 := by
  unfold arrival
  ring

end PacedConnection

open PacedConnection

/-- Time passes. -/
theorem PacedWithin.pass {shift ms : ℚ} {state : PacedConnection}
    (within : PacedWithin shift state) (later : 0 ≤ ms) :
    PacedWithin shift { state with clock := state.clock + ms } := by
  have seconds : 0 ≤ ms / 1000 := div_nonneg later (by norm_num)
  have gain : ms / 1000 * PACER_BYTES_PER_SEC ≤
      ms / 1000 * byteRate maxBytesPerSecConn true :=
    mul_le_mul_of_nonneg_left rate_le seconds
  have accepts : ∀ limiter : TokenBucket,
      acceptable limiter (state.arrival shift + ms / 1000) =
        topUp (byteRate maxBytesPerSecConn true * 2)
          ((state.arrival shift - limiter.last) *
              byteRate maxBytesPerSecConn true +
            ms / 1000 * byteRate maxBytesPerSecConn true) limiter.tokens := by
    intro limiter
    unfold acceptable
    congr 1
    ring
  constructor
  · exact within.accepted
  · intro pacer found
    obtain ⟨rate, burst, clock⟩ := within.pacer pacer found
    exact ⟨rate, burst, clock.trans (le_add_of_nonneg_right later)⟩
  · intro limiter found
    obtain ⟨clock, full⟩ := within.limiter limiter found
    rw [arrival_pass]
    refine ⟨clock.trans (le_add_of_nonneg_right seconds), fun none => ?_⟩
    have zero : 0 ≤ ms / 1000 * byteRate maxBytesPerSecConn true :=
      mul_nonneg seconds (byteRate_pos true).le
    rw [accepts, ← topUp_topUp zero]
    exact le_min burst_le
      ((full none).trans (le_add_of_nonneg_right zero))
  · intro pacer limiter paced limited
    rw [arrival_pass, accepts]
    have split : pacer.ready (state.clock + ms) =
        topUp (PACER_BURST_BYTES : ℚ)
          ((state.clock - pacer.last) / 1000 * PACER_BYTES_PER_SEC +
            ms / 1000 * PACER_BYTES_PER_SEC) pacer.tokens := by
      unfold Pacer.ready
      congr 1
      ring
    show pacer.ready (state.clock + ms) ≤ _
    rw [split]
    exact topUp_stays_ahead burst_le (within.ahead pacer limiter paced limited)
      (mul_nonneg seconds (Nat.cast_nonneg _)) gain

/-- What a round finds in the pacer. -/
theorem Pacer.refill_tokens {pacer : Pacer} (clock : ℚ)
    (rate : pacer.rate = PACER_BYTES_PER_SEC)
    (burst : pacer.burst = PACER_BURST_BYTES) :
    (pacer.refill clock).tokens = pacer.ready clock := by
  unfold Pacer.refill Pacer.ready topUp
  rw [rate, burst]

/-- A pacer that was looked at just now has what it holds. -/
theorem Pacer.ready_now {pacer : Pacer} {clock : ℚ}
    (last : pacer.last = clock) :
    pacer.ready clock = topUp (PACER_BURST_BYTES : ℚ) 0 pacer.tokens := by
  unfold Pacer.ready
  rw [last, sub_self, zero_div, zero_mul]

theorem acceptable_now {limiter : TokenBucket} {now : ℚ}
    (last : limiter.last = now) :
    acceptable limiter now =
      topUp (byteRate maxBytesPerSecConn true * 2) 0 limiter.tokens := by
  unfold acceptable
  rw [last, sub_self, zero_mul]

/-- The pacer is looked at, and has no more than before. -/
theorem PacedWithin.look {shift wakes : ℚ} {state : PacedConnection}
    {pacer : Pacer} {chain : List PacedFrame} (within : PacedWithin shift state)
    (found : state.pacer = some pacer) (pacer' : Pacer)
    (rate : pacer'.rate = pacer.rate) (burst : pacer'.burst = pacer.burst)
    (last : pacer'.last = state.clock)
    (less : pacer'.tokens ≤ pacer.ready state.clock) :
    PacedWithin shift { state with
      pacer := some pacer'
      chain := chain
      wakes := wakes } := by
  obtain ⟨known, full, -⟩ := within.pacer pacer found
  constructor
  · exact within.accepted
  · intro _ same
    obtain rfl := Option.some.inj same
    exact ⟨rate.trans known, burst.trans full, last.le⟩
  · intro limiter limited
    exact ⟨(within.limiter limiter limited).1, fun none => by cases none⟩
  · intro _ limiter same limited
    obtain rfl := Option.some.inj same
    have ready : pacer'.ready state.clock ≤ pacer.ready state.clock := by
      rw [Pacer.ready_now last]
      apply (min_le_right _ _).trans
      rw [add_zero]
      exact less
    exact ready.trans (within.ahead pacer limiter found limited)

/-- A frame that the pacer releases is accepted. -/
theorem PacedWithin.receive {shift : ℚ} {state : PacedConnection}
    {pacer : Pacer} {chain : List PacedFrame} {size : Nat} (botLike : Bool)
    (within : PacedWithin shift state) (found : state.pacer = some pacer)
    (enough : (size : ℚ) ≤ (pacer.refill state.clock).tokens) :
    PacedWithin shift
      (({ state with
          pacer := some { pacer.refill state.clock with
            tokens := (pacer.refill state.clock).tokens - size }
          chain := chain } : PacedConnection).receive shift size botLike) := by
  obtain ⟨rate, burst, -⟩ := within.pacer pacer found
  have ready := Pacer.refill_tokens state.clock rate burst
  unfold PacedConnection.receive
  dsimp only
  split
  · refine within.look found _ rfl rfl rfl ?_
    dsimp only
    rw [ready]
    exact sub_le_self _ (Nat.cast_nonneg size)
  · rename_i limiter limited
    have clock := (within.limiter limiter limited).1
    have ahead : (pacer.refill state.clock).tokens ≤
        (limiter.refill (state.arrival shift)
          (byteRate maxBytesPerSecConn botLike)).tokens := by
      rw [ready]
      exact (within.ahead pacer limiter found limited).trans
        (TokenBucket.topUp_le_refill clock (tightened_le botLike))
    have pays := TokenBucket.allow_pays (byteRate_pos botLike)
      (enough.trans ahead)
    have last : (limiter.refill (state.arrival shift)
        (byteRate maxBytesPerSecConn botLike)).last = state.arrival shift :=
      TokenBucket.refill_last clock
    simp only [TokenBucket.limitBytes, arrival] at pays ⊢
    rw [pays]
    constructor
    · show (state.refused || !true) = false
      rw [within.accepted]
      rfl
    · intro _ same
      obtain rfl := Option.some.inj same
      exact ⟨rate, burst, le_rfl⟩
    · intro _ same
      obtain rfl := Option.some.inj same
      exact ⟨last.le, fun none => by cases none⟩
    · intro _ _ same same'
      obtain rfl := Option.some.inj same
      obtain rfl := Option.some.inj same'
      refine (Pacer.ready_now rfl).le.trans
        (le_of_le_of_eq ?_ (Eq.symm (acceptable_now last)))
      exact topUp_mono burst_le le_rfl (sub_le_sub_right ahead _)

/-- Each step keeps the pacer behind the relay. -/
theorem PacedWithin.step {shift : ℚ} {state next : PacedConnection}
    {act : Pacing} (within : PacedWithin shift state)
    (taken : state.run shift act = some next) : PacedWithin shift next := by
  cases act with
  | pass ms =>
      simp only [run] at taken
      split at taken
      · rename_i later
        obtain rfl := Option.some.inj taken
        exact within.pass later
      · cases taken
  | newPacer =>
      simp only [run] at taken
      split at taken
      · rename_i none
        obtain rfl := Option.some.inj taken
        constructor
        · exact within.accepted
        · intro _ same
          obtain rfl := Option.some.inj same
          exact ⟨rfl, rfl, le_rfl⟩
        · intro limiter limited
          exact ⟨(within.limiter limiter limited).1, fun none => by cases none⟩
        · intro pacer limiter _ limited
          exact (pacer.ready_le _).trans
            ((within.limiter limiter limited).2 none)
      · cases taken
  | connect =>
      simp only [run] at taken
      split at taken
      · obtain rfl := Option.some.inj taken
        have full : (PACER_BURST_BYTES : ℚ) ≤ acceptable
            (byteLimiter maxBytesPerSecConn (state.arrival shift))
            (state.arrival shift) := by
          apply acceptable_of_tokens le_rfl
          norm_num [PACER_BURST_BYTES, byteLimiter, newTokenBucket,
            maxBytesPerSecConn]
        constructor
        · exact within.accepted
        · exact within.pacer
        · intro _ same
          obtain rfl := Option.some.inj same
          exact ⟨le_rfl, fun _ => full⟩
        · intro pacer _ _ same
          obtain rfl := Option.some.inj same
          exact (pacer.ready_le _).trans full
      · cases taken
  | take frame =>
      obtain rfl := Option.some.inj taken
      exact ⟨within.accepted, within.pacer, within.limiter, within.ahead⟩
  | round sent botLike =>
      simp only [run] at taken
      split at taken
      · rename_i pacer frame chain found _
        split at taken
        · obtain ⟨rate, burst, -⟩ := within.pacer pacer found
          have ready := Pacer.refill_tokens state.clock rate burst
          simp only [Pacer.round] at taken
          split at taken
          · rename_i _ after ms ended
            split at ended
            · cases ended
            · obtain ⟨rfl, -⟩ := Prod.mk.inj ended
              obtain rfl := Option.some.inj taken
              exact within.look found _ rfl rfl rfl ready.le
          · rename_i _ after ended
            split at ended
            · rename_i serves
              obtain ⟨rfl, -⟩ := Prod.mk.inj ended
              obtain rfl := Option.some.inj taken
              have enough : (frame.cost : ℚ) ≤
                  (pacer.refill state.clock).tokens := by
                rcases serves with paid | full
                · exact paid
                · have fits : (frame.cost : ℚ) ≤ PACER_BURST_BYTES :=
                    Nat.cast_le.mpr frame.fits
                  have capped : (pacer.refill state.clock).burst =
                      PACER_BURST_BYTES := burst
                  exact fits.trans (capped ▸ full)
              split
              · exact within.receive botLike found enough
              · refine within.look found _ rfl rfl rfl ?_
                dsimp only
                rw [ready]
                exact sub_le_self _ (Nat.cast_nonneg _)
            · cases ended
        · cases taken
      · cases taken

/-- The relay never refuses a frame. -/
theorem never_refused (shift : ℚ) {state : PacedConnection}
    (reachable : (pacedConnection shift).Reachable state) :
    state.refused = false := by
  refine (Lts.Reachable.invariant (PacedWithin shift) ?_ ?_ reachable).accepted
  · rintro state ⟨pacer, limiter, accepted⟩
    constructor
    · exact accepted
    · intro _ found
      rw [pacer] at found
      cases found
    · intro _ found
      rw [limiter] at found
      cases found
    · intro _ _ found
      rw [pacer] at found
      cases found
  · intro state act next within taken
    exact within.step taken

/-- Run a list of steps. -/
def PacedConnection.runs (shift : ℚ) (state : PacedConnection)
    (acts : List Pacing) : Option PacedConnection :=
  acts.foldlM (PacedConnection.run shift) state

/-- Half a burst. -/
private def halfBurst : PacedFrame :=
  ⟨256 * 1024, by decide⟩

/-- Two frames are released at once, and a third one after a sleep. -/
private def threeFrames : List Pacing :=
  [.connect, .newPacer, .take halfBurst, .round true false, .take halfBurst,
    .round true true, .take halfBurst, .round true false, .pass 1280,
    .round true true]

theorem never_refused_three_frames :
    ∃ state limiter,
      (pacedConnection 40).Reachable state ∧ state.limiter = some limiter ∧
        limiter.tokens = 262144 ∧ state.chain.length = 0 ∧
        state.refused = false := by
  have initial : (pacedConnection 40).Reachable ⟨0, none, [], 0, none, false⟩ :=
    .start ⟨rfl, rfl, rfl⟩
  have ran : ((⟨0, none, [], 0, none, false⟩ : PacedConnection).runs 40
      threeFrames).map (fun state => (state.limiter.map TokenBucket.tokens,
        state.chain.length)) = some (some 262144, 0) := by
    decide +kernel
  obtain ⟨state, ran, shown⟩ := Option.map_eq_some_iff.mp ran
  obtain ⟨tokens, idle⟩ := Prod.mk.inj shown
  obtain ⟨limiter, found, tokens⟩ := Option.map_eq_some_iff.mp tokens
  have reachable := initial.foldlM (fun _ _ _ taken => taken) ran
  exact ⟨state, limiter, reachable, found, tokens, idle,
    never_refused 40 reachable⟩

end Byteln.Client

import Mathlib.Data.List.Chain
import Byteln.Client.Pacer
import Byteln.Library.Metering

/-!
# Calls that wait for a pacer

A pacer serves its calls one after the other, and looks at the clock in every
round of a call's loop.  All that it promises rests on a clock that does not
go back: nothing in the loop keeps a reading before the last one from taking
tokens away.
-/

namespace Byteln.Client

open Byteln.Library

/-- A pacer as its constructor leaves it. -/
def Pacer.new (rate burst now : ℚ) : Pacer :=
  ⟨rate, burst, burst, now⟩

/-- A call of `take`. -/
structure Take where
  id : Nat
  cost : ℚ
  positive : 0 ≤ cost
deriving DecidableEq

/-- A round of the loop of a call: the pacer before it, and what the clock
says. -/
structure Round where
  take : Take
  held : Pacer
  read : ℚ
deriving DecidableEq

namespace Round

variable (r : Round)

def after : Pacer :=
  (r.held.round r.read r.take.cost).1

/-- How long the call sleeps then, if it does not return. -/
def sleep : Option ℤ :=
  (r.held.round r.read r.take.cost).2

/-- What the round takes for the call. -/
def released : ℚ :=
  if r.sleep = none then r.take.cost else 0

def wait : ℤ :=
  r.sleep.getD 0

/-- The same round with the clock standing still. -/
def standing : Round :=
  { r with read := r.held.last }

/-- The seconds of a round, and what it takes. -/
def payment : ℚ × ℚ :=
  (r.read / 1000, r.released)

end Round

/-- A pacer and its calls. -/
structure PacedTakes where
  pacer : Pacer
  /-- Calls so far. -/
  calls : Nat
  /-- Those that wait, the oldest one in its loop. -/
  chain : List Take
  /-- All rounds so far; no code reads it. -/
  rounds : List Round
deriving DecidableEq

inductive Taking where
  | take (cost : ℚ) (positive : 0 ≤ cost)
  /-- The oldest call goes through its loop once. -/
  | round (read : ℚ)

def PacedTakes.run (state : PacedTakes) : Taking → Option PacedTakes
  | .take cost positive =>
      some { state with
        calls := state.calls + 1
        chain := state.chain ++ [⟨state.calls, cost, positive⟩] }
  | .round read =>
      match state.chain with
      | [] => none
      | take :: chain =>
          let r : Round := ⟨take, state.pacer, read⟩
          some { state with
            pacer := r.after
            chain := if r.sleep = none then chain else take :: chain
            rounds := state.rounds ++ [r] }

/-- Calls come at any time, and the clock says anything. -/
def pacedTakes (rate burst now : ℚ) : Lts PacedTakes Taking where
  init := fun state => state = ⟨.new rate burst now, 0, [], []⟩
  step := fun state act next => state.run act = some next

/-- The readings of the clock never go back. -/
def Forward (now : ℚ) (rounds : List Round) : Prop :=
  (now :: rounds.map Round.read).IsChain (· ≤ ·)

/-- The calls that returned, in that order. -/
def resolved (rounds : List Round) : List Take :=
  (rounds.filter fun r => r.sleep = none).map Round.take

/-- Whether a round follows another as it should: in the same call, if that
one slept, and without another sleep, if it slept long enough. -/
def Round.Follows (r r' : Round) : Prop :=
  ∀ ms, r.sleep = some ms →
    r'.take = r.take ∧ (r.read + ms ≤ r'.read → r'.sleep = none)

/-- What `take` is to do. -/
structure Keeps (rate burst now : ℚ) (state : PacedTakes) : Prop where
  order : (resolved state.rounds ++ state.chain).map Take.id =
    List.range state.calls
  bound : Forward now state.rounds → ∀ start t largest : ℚ, 0 ≤ t →
    (∀ r ∈ state.rounds, InWindow start t (r.read / 1000) →
      r.released ≤ largest) →
    spentWithin start t (state.rounds.map Round.payment) ≤
      max burst largest + rate * t
  once : state.rounds.IsChain Round.Follows
  balance : ∀ r ∈ state.rounds, r.held.tokens - r.released ≤ r.after.tokens
  patient : ∀ r ∈ state.rounds, r.wait ≤ r.standing.wait

/-! ## One round -/

namespace Pacer

variable (pacer : Pacer) {t cost : ℚ}

theorem round_cases (t cost : ℚ) :
    (cost ≤ (pacer.refill t).tokens ∨ pacer.burst ≤ (pacer.refill t).tokens) ∧
      pacer.round t cost =
        ({ pacer.refill t with tokens := (pacer.refill t).tokens - cost },
          none) ∨
    (pacer.refill t).tokens < cost ∧ (pacer.refill t).tokens < pacer.burst ∧
      pacer.round t cost = (pacer.refill t,
        some ⌈(min cost pacer.burst - (pacer.refill t).tokens) / pacer.rate *
          1000⌉) := by
  unfold round
  dsimp only
  by_cases serves : cost ≤ (pacer.refill t).tokens ∨
      pacer.burst ≤ (pacer.refill t).tokens
  · exact .inl ⟨serves, if_pos serves⟩
  · have waits := serves
    rw [not_or, not_le, not_le] at waits
    exact .inr ⟨waits.1, waits.2, if_neg serves⟩

end Pacer

namespace Round

variable {r r' : Round}

/-- What the pacer has when the round looks at the cost. -/
def looks (r : Round) : ℚ :=
  (r.held.refill r.read).tokens

theorem after_eq (r : Round) :
    r.after = { r.held.refill r.read with tokens := r.looks - r.released } := by
  unfold after released sleep looks
  rcases r.held.round_cases r.read r.take.cost with
    ⟨-, same⟩ | ⟨-, -, same⟩
  · rw [same, if_pos rfl]
  · rw [same, if_neg (Option.some_ne_none _), sub_zero]

theorem released_nonneg (r : Round) : 0 ≤ r.released := by
  unfold released
  split
  · exact r.take.positive
  · exact le_rfl

/-- The elapsed time is worth something exactly if the clock did not go
back. -/
theorem gain_nonneg (rate : 0 < r.held.rate) :
    0 ≤ (r.read - r.held.last) / 1000 * r.held.rate ↔
      r.held.last ≤ r.read := by
  have thousand : (0 : ℚ) < 1000 := by norm_num
  rw [mul_nonneg_iff_of_pos_right rate, le_div_iff₀ thousand, zero_mul,
    sub_nonneg]

theorem tokens_le_looks (rate : 0 < r.held.rate)
    (full : r.held.tokens ≤ r.held.burst) :
    r.held.tokens ≤ r.looks ↔ r.held.last ≤ r.read := by
  unfold looks Pacer.refill
  rw [← gain_nonneg rate]
  dsimp only
  constructor
  · intro more
    exact nonneg_of_le_add_right (more.trans (min_le_right _ _))
  · intro gain
    exact le_min full (le_add_of_nonneg_right gain)

/-- The balance falls by no more than what is released exactly if the clock
did not go back. -/
theorem balance_iff (rate : 0 < r.held.rate)
    (full : r.held.tokens ≤ r.held.burst) :
    r.held.tokens - r.released ≤ r.after.tokens ↔ r.held.last ≤ r.read := by
  rw [← tokens_le_looks rate full, after_eq]
  exact sub_le_sub_iff_right _

theorem standing_looks (full : r.held.tokens ≤ r.held.burst) :
    r.standing.looks = r.held.tokens := by
  unfold looks standing Pacer.refill
  simpa using full

/-- A round with more tokens does not wait longer. -/
theorem wait_anti (same : r'.take = r.take) (rate : r'.held.rate = r.held.rate)
    (burst : r'.held.burst = r.held.burst) (positive : 0 < r.held.rate)
    (more : r.looks ≤ r'.looks) : r'.wait ≤ r.wait := by
  unfold wait sleep
  unfold looks at more
  rcases r'.held.round_cases r'.read r'.take.cost with
    ⟨-, releases⟩ | ⟨poor, drained, sleeps⟩
  · rw [releases]
    rcases r.held.round_cases r.read r.take.cost with
      ⟨-, same⟩ | ⟨less, drained, same⟩
    · rw [same]
    · rw [same]
      apply Int.ceil_nonneg
      apply mul_nonneg (div_nonneg _ positive.le) (by norm_num)
      exact sub_nonneg.mpr (le_min less.le drained.le)
  · rw [same] at poor
    rw [burst] at drained
    rw [sleeps, same, rate, burst]
    rcases r.held.round_cases r.read r.take.cost with
      ⟨serves, -⟩ | ⟨-, -, again⟩
    · rcases serves with paid | full
      · exact absurd (paid.trans more) (not_le.mpr poor)
      · exact absurd (full.trans more) (not_le.mpr drained)
    · rw [again]
      apply Int.ceil_mono
      apply mul_le_mul_of_nonneg_right _ (by norm_num)
      exact div_le_div_of_nonneg_right (sub_le_sub_left more _) positive.le

theorem patient (rate : 0 < r.held.rate)
    (full : r.held.tokens ≤ r.held.burst) (forward : r.held.last ≤ r.read) :
    r.wait ≤ r.standing.wait := by
  apply @wait_anti r.standing r rfl rfl rfl rate
  rw [standing_looks full]
  exact (tokens_le_looks rate full).mpr forward

theorem sleep_eq {ms : ℤ} (sleeps : r.sleep = some ms) :
    r.after = r.held.refill r.read ∧
      ms = ⌈(min r.take.cost r.held.burst - r.looks) / r.held.rate * 1000⌉ := by
  unfold sleep at sleeps
  unfold after looks
  rcases r.held.round_cases r.read r.take.cost with
    ⟨-, releases⟩ | ⟨-, -, same⟩
  · rw [releases] at sleeps
    cases sleeps
  · rw [same] at sleeps ⊢
    exact ⟨rfl, (Option.some.inj sleeps).symm⟩

/-- After a sleep that lasted as long as it should, the call returns. -/
theorem follows (positive : 0 < r.held.rate) (same : r'.take = r.take)
    (held : r'.held = r.after) {ms : ℤ} (sleeps : r.sleep = some ms)
    (long : r.read + ms ≤ r'.read) : r'.sleep = none := by
  obtain ⟨after, asked⟩ := sleep_eq sleeps
  have gain : min r.take.cost r.held.burst - r.looks ≤
      (r'.read - r.read) / 1000 * r.held.rate := by
    have enough : (min r.take.cost r.held.burst - r.looks) / r.held.rate * 1000
        ≤ r'.read - r.read := by
      apply (Int.le_ceil _).trans
      rw [← asked]
      linarith
    rw [div_mul_eq_mul_div, div_le_iff₀ positive] at enough
    rw [div_mul_eq_mul_div, le_div_iff₀ (by norm_num)]
    exact enough
  have looks : min r.take.cost r.held.burst ≤ r'.looks := by
    unfold Round.looks
    rw [held, after]
    apply le_min (min_le_right _ _)
    show _ ≤ r.looks + (r'.read - r.read) / 1000 * r.held.rate
    linarith
  unfold sleep
  rcases r'.held.round_cases r'.read r'.take.cost with
    ⟨-, releases⟩ | ⟨poor, drained, -⟩
  · rw [releases]
  · rw [same] at poor
    rw [held, after] at poor drained
    unfold Round.looks at looks
    rw [held, after] at looks
    exact absurd (lt_min poor drained) (not_lt.mpr looks)

/-- A call that returns leaves no less than what its cost was over the
burst. -/
theorem floor_le {largest : ℚ} (returns : r.sleep = none)
    (small : r.released ≤ largest) :
    min 0 (r.held.burst - largest) ≤ r.after.tokens := by
  rw [after_eq]
  have paid : r.released = r.take.cost := if_pos returns
  unfold sleep at returns
  unfold looks
  rcases r.held.round_cases r.read r.take.cost with
    ⟨enough | full, -⟩ | ⟨-, -, sleeps⟩
  · apply (min_le_left _ _).trans
    dsimp only
    rw [paid]
    exact sub_nonneg.mpr enough
  · apply (min_le_right _ _).trans
    exact sub_le_sub full small
  · rw [sleeps] at returns
    cases returns

end Round

/-! ## Runs -/

section Runs

variable {rate burst now : ℚ} {state next : PacedTakes}

/-- What the clock said last. -/
def lastReading (now : ℚ) (rounds : List Round) : ℚ :=
  (rounds.map Round.read).getLastD now

theorem lastReading_snoc (now : ℚ) (rounds : List Round) (r : Round) :
    lastReading now (rounds ++ [r]) = r.read := by
  simp [lastReading]

theorem forward_snoc {rounds : List Round} {r : Round} :
    Forward now (rounds ++ [r]) ↔
      Forward now rounds ∧ lastReading now rounds ≤ r.read := by
  unfold Forward lastReading
  rw [List.map_append, ← List.cons_append, List.isChain_append]
  simp [List.getLast?_cons, List.getLastD_eq_getLast?]

structure PacedTakes.Sound (rate burst now : ℚ) (state : PacedTakes) :
    Prop where
  sameRate : state.pacer.rate = rate
  sameBurst : state.pacer.burst = burst
  capped : state.pacer.tokens ≤ burst
  last : state.pacer.last = lastReading now state.rounds
  held : ∀ r ∈ state.rounds, r.held.rate = rate ∧ r.held.burst = burst ∧
    r.held.tokens ≤ burst
  forward : Forward now state.rounds ↔
    ∀ r ∈ state.rounds, r.held.last ≤ r.read
  order : (resolved state.rounds ++ state.chain).map Take.id =
    List.range state.calls
  once : state.rounds.IsChain Round.Follows
  current : ∀ r ∈ state.rounds.getLast?, state.pacer = r.after ∧
    (r.sleep ≠ none → state.chain.head? = some r.take)
  metered : Forward now state.rounds → ∀ start t largest : ℚ, 0 ≤ t →
    (∀ r ∈ state.rounds, InWindow start t (r.read / 1000) →
      r.released ≤ largest) →
    Metered rate burst (min 0 (burst - largest)) start t
      (spentWithin start t (state.rounds.map Round.payment))
      (state.pacer.last / 1000) state.pacer.tokens

namespace PacedTakes.Sound

theorem initial (gains : 0 < rate) (fits : 0 < burst) :
    Sound rate burst now ⟨.new rate burst now, 0, [], []⟩ := by
  constructor
  · rfl
  · rfl
  · exact le_rfl
  · rfl
  · intro r none
    cases none
  · exact ⟨fun _ r none => (nomatch none), fun _ => .singleton _⟩
  · rfl
  · exact .nil
  · intro r none
    cases none
  · intro _ start t largest long _
    exact .initial le_rfl ((min_le_left _ _).trans fits.le) gains.le long

theorem take (sound : state.Sound rate burst now) {cost : ℚ}
    {positive : 0 ≤ cost}
    (taken : state.run (.take cost positive) = some next) :
    next.Sound rate burst now := by
  obtain rfl := Option.some.inj taken
  refine ⟨sound.sameRate, sound.sameBurst, sound.capped, sound.last, sound.held,
    sound.forward, ?_, sound.once, ?_, sound.metered⟩
  · dsimp only
    rw [← List.append_assoc, List.map_append, sound.order, List.range_succ]
    rfl
  · intro r last
    obtain ⟨pacer, head⟩ := sound.current r last
    refine ⟨pacer, ?_⟩
    intro sleeps
    rw [List.head?_append, head sleeps]
    rfl

/-- The budget of the pacer after one more round. -/
theorem serves (sound : state.Sound rate burst now) (gains : 0 < rate)
    {r : Round} (held : r.held = state.pacer)
    (forward : Forward now (state.rounds ++ [r])) {start t largest : ℚ}
    (long : 0 ≤ t)
    (small : ∀ c ∈ state.rounds ++ [r], InWindow start t (c.read / 1000) →
      c.released ≤ largest) :
    Metered rate burst (min 0 (burst - largest)) start t
      (spentWithin start t ((state.rounds ++ [r]).map Round.payment))
      (r.read / 1000) r.after.tokens := by
  obtain ⟨before, reads⟩ := forward_snoc.mp forward
  rw [← sound.last, ← held] at reads
  have metered := sound.metered before start t largest long fun c known =>
    small c (List.mem_append_left _ known)
  rw [← held] at metered
  have order : r.held.last / 1000 ≤ r.read / 1000 :=
    div_le_div_of_nonneg_right reads (by norm_num)
  have left : r.after.tokens + r.released = r.looks := by
    rw [r.after_eq]
    exact sub_add_cancel _ _
  have known : r.held.burst = burst := held ▸ sound.sameBurst
  have most : r.looks ≤ burst := known ▸ min_le_left _ _
  have gained : r.looks ≤
      r.held.tokens + rate * (r.read / 1000 - r.held.last / 1000) := by
    apply (min_le_right _ _).trans
    rw [held, sound.sameRate]
    apply le_of_eq
    ring
  rw [List.map_append, List.map_singleton]
  show Metered _ _ _ _ _ (spentWithin start t
    (state.rounds.map Round.payment ++ [(r.read / 1000, r.released)])) _ _
  rw [spentWithin_snoc]
  by_cases returns : r.sleep = none
  · apply metered.pay order gains.le
    · intro within
      rw [← known]
      exact Round.floor_le returns (small r (by simp) within)
    · exact left.trans_le most
    · exact left.trans_le gained
  · have nothing : r.released = 0 := if_neg returns
    rw [nothing, add_zero] at left
    rw [nothing, ite_self, add_zero]
    apply metered.gain order gains.le
    · exact left.trans_le most
    · exact left.trans_le gained

/-- A round of the oldest call. -/
theorem served (sound : state.Sound rate burst now) (gains : 0 < rate)
    {r : Round} {chain : List Take} (held : r.held = state.pacer)
    (waiting : state.chain = r.take :: chain) :
    PacedTakes.Sound rate burst now { state with
      pacer := r.after
      chain := if r.sleep = none then chain else r.take :: chain
      rounds := state.rounds ++ [r] } := by
  have rateIs : r.held.rate = rate := held ▸ sound.sameRate
  have burstIs : r.held.burst = burst := held ▸ sound.sameBurst
  have capped : r.held.tokens ≤ burst := held ▸ sound.capped
  have lastIs : r.held.last = lastReading now state.rounds :=
    held ▸ sound.last
  constructor
  · dsimp only
    rw [r.after_eq]
    exact rateIs
  · dsimp only
    rw [r.after_eq]
    exact burstIs
  · dsimp only
    rw [r.after_eq]
    have most : r.looks ≤ burst := burstIs ▸ min_le_left _ _
    exact (sub_le_self _ r.released_nonneg).trans most
  · dsimp only
    rw [r.after_eq, lastReading_snoc]
    rfl
  · intro c member
    rcases List.mem_append.mp member with before | new
    · exact sound.held c before
    · obtain rfl := List.mem_singleton.mp new
      exact ⟨rateIs, burstIs, capped⟩
  · dsimp only
    rw [forward_snoc, sound.forward, ← lastIs]
    simp [or_imp, forall_and]
  · have order := sound.order
    rw [waiting] at order
    dsimp only
    rw [← order]
    unfold resolved
    by_cases returns : r.sleep = none <;> simp [returns]
  · dsimp only
    rw [List.isChain_append]
    refine ⟨sound.once, .singleton _, ?_⟩
    intro previous last _ same ms sleeps
    obtain rfl := Option.some.inj same
    obtain ⟨pacer, head⟩ := sound.current previous last
    rw [waiting] at head
    have sleeping : previous.sleep ≠ none := by
      rw [sleeps]
      exact Option.some_ne_none ms
    have take := Option.some.inj (head sleeping)
    have positive : 0 < previous.held.rate := by
      rw [(sound.held previous (List.mem_of_mem_getLast? last)).1]
      exact gains
    refine ⟨take, ?_⟩
    exact Round.follows positive take (held.trans pacer) sleeps
  · intro last same
    rw [List.getLast?_concat] at same
    obtain rfl := Option.some.inj same
    refine ⟨rfl, ?_⟩
    intro sleeps
    dsimp only
    rw [if_neg sleeps]
    rfl
  · intro forward start t largest long small
    have served := sound.serves gains held forward long small
    dsimp only
    have reads : r.after.last = r.read := by
      rw [r.after_eq]
      rfl
    rw [reads]
    exact served

theorem step (sound : state.Sound rate burst now) (gains : 0 < rate)
    {act : Taking} (taken : state.run act = some next) :
    next.Sound rate burst now := by
  cases act with
  | take cost positive => exact sound.take taken
  | round read =>
      unfold run at taken
      dsimp only at taken
      split at taken
      · cases taken
      · rename_i take chain waiting
        obtain rfl := Option.some.inj taken
        exact sound.served gains rfl waiting

end PacedTakes.Sound

/-- The pacer does what it is to do exactly as long as its clock does not go
back. -/
theorem takes_keep_iff (gains : 0 < rate) (fits : 0 < burst)
    (reachable : (pacedTakes rate burst now).Reachable state) :
    Keeps rate burst now state ↔ Forward now state.rounds := by
  have sound : state.Sound rate burst now := by
    apply Lts.Reachable.invariant (PacedTakes.Sound rate burst now) _ _
      reachable
    · intro state initial
      rw [initial]
      exact .initial gains fits
    · intro state act next sound taken
      exact sound.step gains taken
  have positive : ∀ r ∈ state.rounds, 0 < r.held.rate := by
    intro r known
    rw [(sound.held r known).1]
    exact gains
  have full : ∀ r ∈ state.rounds, r.held.tokens ≤ r.held.burst := by
    intro r known
    obtain ⟨-, burstIs, capped⟩ := sound.held r known
    exact burstIs ▸ capped
  constructor
  · intro keeps
    rw [sound.forward]
    intro r known
    exact (Round.balance_iff (positive r known) (full r known)).mp
      (keeps.balance r known)
  · intro forward
    have reads := sound.forward.mp forward
    constructor
    · exact sound.order
    · intro _ start t largest long small
      have total := (sound.metered forward start t largest long small).total
      rcases le_total burst largest with larger | smaller
      · rw [min_eq_right (sub_nonpos.mpr larger)] at total
        rw [max_eq_right larger]
        linarith
      · rw [min_eq_left (sub_nonneg.mpr smaller)] at total
        rw [max_eq_left smaller]
        linarith
    · exact sound.once
    · intro r known
      exact (Round.balance_iff (positive r known) (full r known)).mpr
        (reads r known)
    · intro r known
      exact Round.patient (positive r known) (full r known) (reads r known)

end Runs

/-- A kilobyte. -/
private def thousand : Taking :=
  .take 1000 (by norm_num)

/-- Three calls, the last of which sleeps for a second. -/
theorem takes_keep_three :
    ∃ state, (pacedTakes 1000 2000 0).Reachable state ∧
      state.rounds.map Round.sleep = [none, none, some 1000, none] ∧
      Keeps 1000 2000 0 state := by
  have initial : (pacedTakes 1000 2000 0).Reachable
      ⟨.new 1000 2000 0, 0, [], []⟩ := .start rfl
  have ran : (([thousand, .round 0, thousand, .round 0, thousand, .round 0,
      .round 1000] : List Taking).foldlM PacedTakes.run
        ⟨.new 1000 2000 0, 0, [], []⟩).map
          (fun state => state.rounds.map fun r => (r.read, r.sleep)) =
      some [(0, none), (0, none), (0, some 1000), (1000, none)] := by
    decide +kernel
  obtain ⟨state, ran, shown⟩ := Option.map_eq_some_iff.mp ran
  have reachable := initial.foldlM (fun _ _ _ taken => taken) ran
  have reads : state.rounds.map Round.read = [0, 0, 0, 1000] := by
    simpa [Function.comp_def] using congrArg (List.map Prod.fst) shown
  have sleeps : state.rounds.map Round.sleep =
      [none, none, some 1000, none] := by
    simpa [Function.comp_def] using congrArg (List.map Prod.snd) shown
  refine ⟨state, reachable, sleeps, ?_⟩
  apply (takes_keep_iff (by norm_num) (by norm_num) reachable).mpr
  unfold Forward
  rw [reads]
  decide +kernel

/-- A call for which the clock went back ten seconds after the constructor. -/
def lateCall : Round :=
  ⟨⟨0, 1000, by norm_num⟩, .new 1000 2000 0, -10000⟩

/-- A clock that goes back takes tokens away, and a call waits that would have
returned at once. -/
theorem backward_clock_takes_tokens :
    ∃ state, (pacedTakes 1000 2000 0).Reachable state ∧
      (∃ r ∈ state.rounds, r.wait = 9000 ∧ r.standing.wait = 0 ∧
        r.released = 0 ∧ r.after.tokens < r.held.tokens) ∧
      ¬Keeps 1000 2000 0 state := by
  have waits : lateCall.wait = 9000 ∧ lateCall.standing.wait = 0 ∧
      lateCall.released = 0 ∧ lateCall.after.tokens < lateCall.held.tokens := by
    decide +kernel
  have sleeps : lateCall.sleep ≠ none := by
    decide +kernel
  have called : (PacedTakes.mk (.new 1000 2000 0) 0 [] []).run thousand =
      some ⟨.new 1000 2000 0, 1, [lateCall.take], []⟩ := rfl
  have served : (PacedTakes.mk (.new 1000 2000 0) 1 [lateCall.take] []).run
      (.round (-10000)) =
        some ⟨lateCall.after, 1, [lateCall.take], [lateCall]⟩ := by
    have stays : (if lateCall.sleep = none then [] else [lateCall.take]) =
        [lateCall.take] := if_neg sleeps
    exact congrArg (fun chain => some (PacedTakes.mk lateCall.after 1 chain
      [lateCall])) stays
  have reachable : (pacedTakes 1000 2000 0).Reachable
      ⟨lateCall.after, 1, [lateCall.take], [lateCall]⟩ :=
    ((Lts.Reachable.start rfl).step called).step served
  refine ⟨_, reachable, ⟨lateCall, List.mem_singleton.mpr rfl, waits⟩, ?_⟩
  intro keeps
  have balance := keeps.balance lateCall (List.mem_singleton.mpr rfl)
  rw [waits.2.2.1, sub_zero] at balance
  exact absurd waits.2.2.2 (not_lt.mpr balance)

end Byteln.Client

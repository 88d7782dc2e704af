import Mathlib.Analysis.Real.Sqrt
import Mathlib.Tactic.NormNum
import Byteln.Library.MovingAverage

/-!
# The shape of traffic

The verdict that tightens the limits of a connection: whether its frames are
large and follow one another evenly, as those of a transfer do.  Arithmetic is
that of the real numbers.
-/

namespace Byteln.Server

open Byteln.Library

noncomputable section

/-- Times are in seconds. -/
structure ShapeStats where
  haveLast : Bool
  lastAt : ℝ
  emaIntervalMs : ℝ
  emaIntervalVarMs : ℝ
  emaSize : ℝ
  emaSizeVar : ℝ
  samples : ℕ

namespace ShapeStats

def new : ShapeStats :=
  ⟨false, 0, 0, 0, 0, 0, 0⟩

def shapeEMAAlpha : ℝ :=
  2 / 10

def shapeMinSamples : ℕ :=
  8

def lowIntervalCV : ℝ :=
  15 / 100

def lowSizeCV : ℝ :=
  10 / 100

/-- 32 KiB, well above typical chat text. -/
def botLikeMinSize : ℕ :=
  32 * 1024

/-- The coefficient of variation. -/
def cv (mean variance : ℝ) : ℝ :=
  if 0 < mean then √variance / mean else 0

/-- The means after a frame, the first one apart. -/
def sample (s : ShapeStats) (now : ℝ) (size : ℕ) : ShapeStats :=
  let sz : ℝ := size
  let intervalMs := (now - s.lastAt) * 1000
  let di := intervalMs - s.emaIntervalMs
  let ds := sz - s.emaSize
  { haveLast := s.haveLast
    lastAt := now
    emaIntervalMs := s.emaIntervalMs + shapeEMAAlpha * di
    emaIntervalVarMs :=
      (1 - shapeEMAAlpha) * (s.emaIntervalVarMs + shapeEMAAlpha * di * di)
    emaSize := s.emaSize + shapeEMAAlpha * ds
    emaSizeVar := (1 - shapeEMAAlpha) * (s.emaSizeVar + shapeEMAAlpha * ds * ds)
    samples := s.samples + 1 }

/-- Whether the connection looks bot-like. -/
def verdict (s : ShapeStats) : Prop :=
  shapeMinSamples ≤ s.samples ∧
    cv s.emaIntervalMs s.emaIntervalVarMs < lowIntervalCV ∧
    cv s.emaSize s.emaSizeVar < lowSizeCV ∧ botLikeMinSize < s.emaSize

instance (s : ShapeStats) : Decidable s.verdict :=
  inferInstanceAs (Decidable (_ ∧ _))

/-- A frame, and whether the connection currently looks bot-like. -/
def observe (s : ShapeStats) (now : ℝ) (size : ℕ) : ShapeStats × Bool :=
  if s.haveLast then
    let s := s.sample now size
    (s, decide s.verdict)
  else ({ s with haveLast := true, lastAt := now, emaSize := size }, false)

/-- The verdicts on a run of frames. -/
def observeAll (s : ShapeStats) : List (ℝ × ℕ) → List Bool
  | [] => []
  | (now, size) :: frames =>
      (s.observe now size).2 :: (s.observe now size).1.observeAll frames

variable {s : ShapeStats} {now : ℝ} {size : ℕ}

/-! ## The two means -/

def interval (s : ShapeStats) : Moments ℝ :=
  ⟨s.emaIntervalMs, s.emaIntervalVarMs⟩

def sizes (s : ShapeStats) : Moments ℝ :=
  ⟨s.emaSize, s.emaSizeVar⟩

theorem interval_sample :
    (s.sample now size).interval =
      s.interval.observe shapeEMAAlpha ((now - s.lastAt) * 1000) :=
  rfl

theorem sizes_sample :
    (s.sample now size).sizes = s.sizes.observe shapeEMAAlpha size :=
  rfl

/-! ## Chat -/

theorem alpha_nonneg : 0 ≤ shapeEMAAlpha := by
  unfold shapeEMAAlpha
  norm_num

theorem alpha_le_one : shapeEMAAlpha ≤ 1 := by
  unfold shapeEMAAlpha
  norm_num

/-- No frame so far was large. -/
def Chat (s : ShapeStats) : Prop :=
  s.sizes.mean ≤ botLikeMinSize

theorem Chat.sample (chat : s.Chat) (small : size ≤ botLikeMinSize) :
    (s.sample now size).Chat := by
  unfold Chat
  rw [sizes_sample]
  exact Moments.observe_le alpha_nonneg alpha_le_one chat
    (Nat.cast_le.mpr small)

theorem Chat.not_verdict (chat : s.Chat) : ¬ s.verdict := by
  intro verdict
  exact not_lt.mpr chat verdict.2.2.2

theorem Chat.observe (chat : s.Chat) (now : ℝ)
    (small : size ≤ botLikeMinSize) :
    (s.observe now size).1.Chat ∧ (s.observe now size).2 = false := by
  unfold ShapeStats.observe
  split
  · have after : (s.sample now size).Chat := chat.sample small
    exact ⟨after, decide_eq_false after.not_verdict⟩
  · exact ⟨Nat.cast_le.mpr small, rfl⟩

theorem Chat.observeAll (chat : s.Chat) {frames : List (ℝ × ℕ)}
    (small : ∀ frame ∈ frames, frame.2 ≤ botLikeMinSize) :
    ∀ flag ∈ s.observeAll frames, flag = false := by
  induction frames generalizing s with
  | nil =>
      intro flag member
      cases member
  | cons frame frames induction =>
      obtain ⟨now, size⟩ := frame
      obtain ⟨first, later⟩ := List.forall_mem_cons.mp small
      obtain ⟨after, silent⟩ := chat.observe now first
      exact List.forall_mem_cons.mpr ⟨silent, induction after later⟩

theorem chat_new : new.Chat := by
  show (0 : ℝ) ≤ (botLikeMinSize : ℝ)
  exact Nat.cast_nonneg _

/-! ## Bulk -/

/-- The share of the initial mean, after some samples. -/
def remainder (count : ℕ) : ℝ :=
  (1 - shapeEMAAlpha) ^ count

theorem remainder_pos (count : ℕ) : 0 < remainder count := by
  unfold remainder shapeEMAAlpha
  positivity

theorem remainder_le {count : ℕ} (enough : 18 ≤ count) :
    remainder count ≤ 181 / 10000 := by
  unfold remainder shapeEMAAlpha
  have fewer : (1 - 2 / 10 : ℝ) ^ count ≤ (1 - 2 / 10) ^ 18 :=
    pow_le_pow_of_le_one (by norm_num) (by norm_num) enough
  exact fewer.trans (by norm_num)

/-- The statistics after one frame and `count` more, of one size and each
`gap` seconds after the other. -/
structure Regular (gap : ℝ) (size count : ℕ) (at_ : ℝ) (s : ShapeStats) :
    Prop where
  haveLast : s.haveLast = true
  lastAt : s.lastAt = at_
  interval : s.interval =
    ⟨gap * 1000 * (1 - remainder count),
      (gap * 1000) ^ 2 * remainder count * (1 - remainder count)⟩
  sizes : s.sizes = ⟨size, 0⟩
  samples : s.samples = count

theorem regular_first (gap start : ℝ) (size : ℕ) :
    Regular gap size 0 start (new.observe start size).1 := by
  constructor
  · rfl
  · rfl
  · simp [remainder, new, observe, interval]
  · rfl
  · rfl

theorem Regular.sample {gap at_ : ℝ} {count : ℕ}
    (regular : Regular gap size count at_ s) :
    Regular gap size (count + 1) (at_ + gap) (s.sample (at_ + gap) size) := by
  constructor
  · exact regular.haveLast
  · rfl
  · rw [interval_sample, regular.interval, regular.lastAt,
      add_sub_cancel_left]
    exact Moments.observe_constant _ _ _
  · rw [sizes_sample, regular.sizes]
    exact Moments.observe_mean _ _
  · exact congrArg (· + 1) regular.samples

theorem cv_interval_lt {gap at_ : ℝ} {count : ℕ} (positive : 0 < gap)
    (enough : 18 ≤ count) (regular : Regular gap size count at_ s) :
    cv s.emaIntervalMs s.emaIntervalVarMs < lowIntervalCV := by
  have small := remainder_le enough
  have some_ := remainder_pos count
  have rest : 0 < 1 - remainder count := by linarith
  have mean : s.emaIntervalMs = gap * 1000 * (1 - remainder count) :=
    congrArg Moments.mean regular.interval
  have variance : s.emaIntervalVarMs =
      (gap * 1000) ^ 2 * remainder count * (1 - remainder count) :=
    congrArg Moments.variance regular.interval
  have ms : 0 < gap * 1000 := by positivity
  have mean_pos : 0 < s.emaIntervalMs := by
    rw [mean]
    positivity
  have squares : s.emaIntervalVarMs <
      (lowIntervalCV * s.emaIntervalMs) ^ 2 := by
    have share : remainder count <
        (15 / 100) ^ 2 * (1 - remainder count) := by linarith
    calc s.emaIntervalVarMs
        = (gap * 1000) ^ 2 * (1 - remainder count) * remainder count := by
          rw [variance]
          ring
      _ < (gap * 1000) ^ 2 * (1 - remainder count) *
            ((15 / 100) ^ 2 * (1 - remainder count)) :=
          mul_lt_mul_of_pos_left share (by positivity)
      _ = (lowIntervalCV * s.emaIntervalMs) ^ 2 := by
          rw [mean, lowIntervalCV]
          ring
  have low : 0 < lowIntervalCV * s.emaIntervalMs := by
    unfold lowIntervalCV
    positivity
  unfold cv
  rw [if_pos mean_pos, div_lt_iff₀ mean_pos]
  exact (Real.sqrt_lt' low).mpr squares

theorem Regular.verdict {gap at_ : ℝ} {count : ℕ} (positive : 0 < gap)
    (large : botLikeMinSize < size) (enough : 18 ≤ count)
    (regular : Regular gap size count at_ s) : s.verdict := by
  have mean : s.emaSize = size := congrArg Moments.mean regular.sizes
  have variance : s.emaSizeVar = 0 :=
    congrArg Moments.variance regular.sizes
  refine ⟨?_, cv_interval_lt positive enough regular, ?_, ?_⟩
  · rw [regular.samples]
    unfold shapeMinSamples
    omega
  · unfold cv lowSizeCV
    rw [mean, variance, Real.sqrt_zero, zero_div, ite_self]
    norm_num
  · rw [mean]
    exact Nat.cast_lt.mpr large

theorem Regular.observeAll {gap at_ : ℝ} {count : ℕ} (positive : 0 < gap)
    (large : botLikeMinSize < size)
    (regular : Regular gap size count at_ s) (more n : ℕ)
    (inside : n < more) (enough : 18 ≤ count + n + 1) :
    (s.observeAll ((List.range more).map fun i =>
      (at_ + (i + 1 : ℕ) * gap, size)))[n]? = some true := by
  induction more generalizing s count at_ n with
  | zero => omega
  | succ more induction =>
      have next := regular.sample
      have first : (s.observe (at_ + gap) size) =
          (s.sample (at_ + gap) size,
            (s.observe (at_ + gap) size).2) := by
        unfold observe
        rw [if_pos regular.haveLast]
      rw [List.range_succ_eq_map, List.map_cons, List.map_map, zero_add,
        Nat.cast_one, one_mul]
      cases n with
      | zero =>
          have flagged : (s.sample (at_ + gap) size).verdict :=
            next.verdict positive large (by omega)
          show some (s.observe (at_ + gap) size).2 = some true
          unfold observe
          rw [if_pos regular.haveLast]
          exact congrArg some (decide_eq_true flagged)
      | succ n =>
          show ((s.observe (at_ + gap) size).1.observeAll _)[n]? = some true
          rw [first]
          have later := induction next n (by omega) (by omega)
          have times : ((List.range more).map
              ((fun i : ℕ => (at_ + (i + 1 : ℕ) * gap, size)) ∘ Nat.succ)) =
              (List.range more).map fun i : ℕ =>
                (at_ + gap + (i + 1 : ℕ) * gap, size) := by
            apply List.map_congr_left
            intro i _
            have time : at_ + ((i.succ + 1 : ℕ) : ℝ) * gap =
                at_ + gap + ((i + 1 : ℕ) : ℝ) * gap := by
              push_cast
              ring
            exact congrArg (·, size) time
          rw [times]
          exact later

/-- Chat is never flagged, and even bulk traffic is from its nineteenth frame
on. -/
theorem shape_tells_bulk_from_chat :
    (∀ frames : List (ℝ × ℕ), (∀ frame ∈ frames, frame.2 ≤ 32 * 1024) →
      ∀ flag ∈ new.observeAll frames, flag = false) ∧
    ∀ (size : ℕ) (gap start : ℝ), 32 * 1024 < size → 0 < gap →
      ∀ count n : ℕ, 18 ≤ n → n < count →
        (new.observeAll ((List.range count).map fun i =>
          (start + (i : ℕ) * gap, size)))[n]? = some true := by
  constructor
  · intro frames small
    exact chat_new.observeAll small
  · intro size gap start large positive count n enough inside
    cases count with
    | zero => omega
    | succ count =>
        cases n with
        | zero => omega
        | succ n =>
            have first := regular_first gap start size
            rw [List.range_succ_eq_map, List.map_cons, List.map_map,
              Nat.cast_zero, zero_mul, add_zero]
            exact first.observeAll positive large count n (by omega)
              (by omega)

/-- Nineteen frames of 33 KiB, one each second, and nineteen of 1 KiB. -/
theorem shape_tells_bulk_from_chat_nineteen :
    (∀ flag ∈ new.observeAll (List.replicate 19 (0, 1024)),
      flag = false) ∧
    (new.observeAll ((List.range 19).map fun i =>
      (0 + (i : ℕ) * 1, 33 * 1024)))[18]? = some true := by
  obtain ⟨chat, bulk⟩ := shape_tells_bulk_from_chat
  constructor
  · apply chat
    intro frame member
    rw [List.eq_of_mem_replicate member]
    decide
  · exact bulk (33 * 1024) 1 0 (by decide) one_pos 19 18 (by decide)
      (by decide)

end ShapeStats

end

end Byteln.Server

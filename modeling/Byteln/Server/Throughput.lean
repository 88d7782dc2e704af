import Byteln.Library.Metering
import Byteln.Server.Throttle

/-!
# What a connection gets through

The two limiters of a connection, in the order in which `readPeer` asks them.
Whatever they let through, and whatever becomes of it then, is bounded within
every window of time.
-/

namespace Byteln.Server

open Byteln.Library

/-- The settings that the frames of a connection are checked against. -/
structure FrameLimits where
  maxFrameBytes : Int
  maxBytesPerSecConn : Nat
  maxFramesPerSecConn : Nat

/-- The limiters of a `Peer`. -/
structure PeerLimiters where
  byteLimiter : TokenBucket
  frameLimiter : TokenBucket
deriving DecidableEq

/-- The limiters that `handleConn` seeds. -/
def newPeerLimiters (limits : FrameLimits) (now : ℚ) : PeerLimiters where
  byteLimiter := byteLimiter limits.maxBytesPerSecConn now
  frameLimiter := newTokenBucket ((limits.maxFramesPerSecConn : ℚ) * 2) now

def frameRate (maxFramesPerSecConn : Nat) (botLike : Bool) : ℚ :=
  let rate : ℚ := maxFramesPerSecConn
  if botLike then rate / 2 else rate

/-- What becomes of a frame that the limiters let through: its bucket is gone
or over a lifetime cap, or keeps it for an absent device, or it goes to the
other device, or that one has just left. -/
inductive Onward where
  | gone
  | capped
  | buffered
  | forwarded
  | unheard
deriving DecidableEq

/-- An application frame as `readPeer` sees it. -/
structure ReadFrame where
  now : ℚ
  size : Nat
  botLike : Bool
  onward : Onward
deriving DecidableEq

/-- The frame is forwarded or buffered, if the limiters let it through. -/
def ReadFrame.Kept (frame : ReadFrame) : Prop :=
  frame.onward = .buffered ∨ frame.onward = .forwarded

instance (frame : ReadFrame) : Decidable frame.Kept :=
  inferInstanceAs (Decidable (_ ∨ _))

/-- Whether the limiters let a frame through.  The second one is asked only if
the first one does. -/
def PeerLimiters.admit (limits : FrameLimits) (peer : PeerLimiters)
    (frame : ReadFrame) : PeerLimiters × Bool :=
  if (frame.size : Int) > limits.maxFrameBytes then (peer, false)
  else
    let (byteLimiter, allowed) := peer.byteLimiter.limitBytes
      limits.maxBytesPerSecConn frame.now frame.size frame.botLike
    if allowed then
      let (frameLimiter, allowed) := peer.frameLimiter.allow frame.now 1
        (frameRate limits.maxFramesPerSecConn frame.botLike)
      (⟨byteLimiter, frameLimiter⟩, allowed)
    else ({ peer with byteLimiter := byteLimiter }, false)

/-- A connection and the frames of it that were forwarded or buffered.  Frames
may follow a refused one here, although a refusal closes the connection. -/
structure Reading where
  peer : PeerLimiters
  relayed : List ReadFrame
deriving DecidableEq

namespace Reading

def read (limits : FrameLimits) (reading : Reading) (frame : ReadFrame) :
    Reading :=
  let (peer, allowed) := reading.peer.admit limits frame
  { peer := peer
    relayed := if allowed ∧ frame.Kept then reading.relayed ++ [frame]
      else reading.relayed }

def readAll (limits : FrameLimits) (reading : Reading)
    (frames : List ReadFrame) : Reading :=
  frames.foldl (read limits) reading

/-- The sizes of the relayed frames and the times they were read at. -/
def bytes (reading : Reading) : List (ℚ × ℚ) :=
  reading.relayed.map fun frame => (frame.now, (frame.size : ℚ))

/-- One for each relayed frame. -/
def count (reading : Reading) : List (ℚ × ℚ) :=
  reading.relayed.map fun frame => (frame.now, 1)

end Reading

/-! ## One limiter -/

/-- A limiter that has paid for some cost within a window. -/
structure TokenBucket.Pays (rate start length spent time : ℚ)
    (t : TokenBucket) : Prop where
  floor : 0 ≤ t.tokens
  cap : t.tokens ≤ 2 * rate
  last : time ≤ t.last
  metered : Metered rate (2 * rate) 0 start length spent time t.tokens

namespace TokenBucket

variable {rate ratePerSec start length spent time now cost paid : ℚ}
  {t : TokenBucket}

theorem pays_new (gains : 0 ≤ rate) (long : 0 ≤ length) (early : time ≤ now) :
    (newTokenBucket (rate * 2) now).Pays rate start length 0 time := by
  have double : rate * 2 = 2 * rate := mul_comm rate 2
  have floor : 0 ≤ 2 * rate := mul_nonneg (by norm_num) gains
  constructor
  · exact floor.trans double.ge
  · exact double.le
  · exact early
  · exact .initial double.le floor gains long

/-- What the limiter holds when it looks at the cost. -/
theorem Pays.refill (pays : t.Pays rate start length spent time)
    (order : time ≤ now) (positive : 0 < ratePerSec)
    (slower : ratePerSec ≤ rate) :
    0 ≤ (t.refill now ratePerSec).tokens ∧
      (t.refill now ratePerSec).tokens ≤ 2 * rate ∧
      (t.refill now ratePerSec).tokens ≤ t.tokens + rate * (now - time) ∧
      now ≤ (t.refill now ratePerSec).last := by
  have floor := pays.floor
  have cap := pays.cap
  have last := pays.last
  have most : 0 ≤ rate * (now - time) :=
    mul_nonneg (positive.le.trans slower) (sub_nonneg.mpr order)
  unfold TokenBucket.refill
  dsimp only
  split
  · rename_i elapsed
    have gain : 0 ≤ (now - t.last) * ratePerSec :=
      mul_nonneg elapsed.le positive.le
    have slow : (now - t.last) * ratePerSec ≤ rate * (now - time) := by
      rw [mul_comm]
      apply mul_le_mul slower _ elapsed.le (positive.le.trans slower)
      linarith
    refine ⟨?_, ?_, ?_, le_rfl⟩
    · split <;> linarith
    · split <;> linarith
    · split <;> linarith
  · rename_i still
    exact ⟨floor, cap, by linarith, sub_nonpos.mp (not_lt.mp still)⟩

/-- A verdict of the limiter on a cost of which no more is counted than was
paid. -/
theorem Pays.allow (pays : t.Pays rate start length spent time)
    (order : time ≤ now) (positive : 0 < ratePerSec)
    (slower : ratePerSec ≤ rate) (more : 0 ≤ cost)
    (counted : paid ≤ if (t.allow now cost ratePerSec).2 then cost else 0) :
    (t.allow now cost ratePerSec).1.Pays rate start length
      (spent + if InWindow start length now then paid else 0) now := by
  have gains : 0 ≤ rate := positive.le.trans slower
  obtain ⟨floor, cap, gain, last⟩ := pays.refill order positive slower
  unfold TokenBucket.allow at counted ⊢
  rw [if_neg (not_le.mpr positive)] at counted ⊢
  dsimp only at counted ⊢
  by_cases enough : cost ≤ (t.refill now ratePerSec).tokens
  · rw [if_pos enough] at counted ⊢
    rw [if_pos rfl] at counted
    have left := sub_nonneg.mpr enough
    constructor
    · exact left
    · exact (sub_le_self _ more).trans cap
    · exact last
    · apply pays.metered.pay order gains (fun _ => left) <;> linarith
  · rw [if_neg enough] at counted ⊢
    rw [if_neg Bool.false_ne_true] at counted
    constructor
    · exact floor
    · exact cap
    · exact last
    · apply pays.metered.pay order gains (fun _ => floor) <;> linarith

/-- A verdict of which nothing is counted. -/
theorem Pays.ask (pays : t.Pays rate start length spent time)
    (order : time ≤ now) (positive : 0 < ratePerSec)
    (slower : ratePerSec ≤ rate) (more : 0 ≤ cost) :
    (t.allow now cost ratePerSec).1.Pays rate start length spent now := by
  have counted : 0 ≤ if (t.allow now cost ratePerSec).2 then cost else 0 := by
    split
    · exact more
    · exact le_rfl
  have asked := pays.allow order positive slower more counted
  rwa [ite_self, add_zero] at asked

end TokenBucket

/-! ## Both limiters -/

section Throughput

variable {limits : FrameLimits} {start length : ℚ} {reading : Reading}
  {frame : ReadFrame}

theorem byteRate_bounds (positive : 0 < limits.maxBytesPerSecConn)
    (botLike : Bool) :
    0 < byteRate limits.maxBytesPerSecConn botLike ∧
      byteRate limits.maxBytesPerSecConn botLike ≤
        limits.maxBytesPerSecConn := by
  have rate : (0 : ℚ) < limits.maxBytesPerSecConn := Nat.cast_pos.mpr positive
  cases botLike with
  | false => exact ⟨rate, le_rfl⟩
  | true => exact ⟨half_pos rate, half_le_self rate.le⟩

theorem frameRate_bounds (positive : 0 < limits.maxFramesPerSecConn)
    (botLike : Bool) :
    0 < frameRate limits.maxFramesPerSecConn botLike ∧
      frameRate limits.maxFramesPerSecConn botLike ≤
        limits.maxFramesPerSecConn := by
  have rate : (0 : ℚ) < limits.maxFramesPerSecConn := Nat.cast_pos.mpr positive
  cases botLike with
  | false => exact ⟨rate, le_rfl⟩
  | true => exact ⟨half_pos rate, half_le_self rate.le⟩

/-- What was relayed within a window has been paid for, and both limiters were
last asked at some time before. -/
structure Reading.Paid (limits : FrameLimits) (start length time : ℚ)
    (reading : Reading) : Prop where
  bytes : ∃ asked ≤ time, reading.peer.byteLimiter.Pays
    limits.maxBytesPerSecConn start length
    (spentWithin start length reading.bytes) asked
  count : ∃ asked ≤ time, reading.peer.frameLimiter.Pays
    limits.maxFramesPerSecConn start length
    (spentWithin start length reading.count) asked

theorem Reading.Paid.later {time now : ℚ}
    (paid : reading.Paid limits start length time) (order : time ≤ now) :
    reading.Paid limits start length now := by
  obtain ⟨asked, before, bytes⟩ := paid.bytes
  obtain ⟨counted, earlier, count⟩ := paid.count
  exact ⟨⟨asked, before.trans order, bytes⟩,
    ⟨counted, earlier.trans order, count⟩⟩

/-- What a frame adds to a tally, relayed or not. -/
theorem spentWithin_relayed (weight : ReadFrame → ℚ) (kept : Prop)
    [Decidable kept] (relayed : List ReadFrame) :
    spentWithin start length
        ((if kept then relayed ++ [frame] else relayed).map
          fun frame => (frame.now, weight frame)) =
      spentWithin start length
          (relayed.map fun frame => (frame.now, weight frame)) +
        if InWindow start length frame.now then
          if kept then weight frame else 0
        else 0 := by
  by_cases was : kept
  · rw [if_pos was, if_pos was, List.map_append]
    exact spentWithin_snoc _
  · rw [if_neg was, if_neg was, ite_self, add_zero]

/-- A frame is too large for the limiters to be asked, or the first one
refuses it, or the second one decides. -/
theorem PeerLimiters.admit_cases (limits : FrameLimits) (peer : PeerLimiters)
    (frame : ReadFrame) :
    let first := peer.byteLimiter.allow frame.now frame.size
      (byteRate limits.maxBytesPerSecConn frame.botLike)
    let second := peer.frameLimiter.allow frame.now 1
      (frameRate limits.maxFramesPerSecConn frame.botLike)
    peer.admit limits frame = (peer, false) ∨
      peer.admit limits frame =
        ({ peer with byteLimiter := first.1 }, false) ∨
      first.2 = true ∧
        peer.admit limits frame = (⟨first.1, second.1⟩, second.2) := by
  unfold PeerLimiters.admit TokenBucket.limitBytes
  dsimp only
  split
  · exact .inl rfl
  · split
    · rename_i passed
      exact .inr (.inr ⟨passed, rfl⟩)
    · exact .inr (.inl rfl)

/-- Only what a limiter lets through is counted. -/
theorem counted_le {weight : ℚ} {kept allowed : Prop} [Decidable kept]
    [Decidable allowed] (positive : 0 ≤ weight) (only : kept → allowed) :
    (if kept then weight else 0) ≤ if allowed then weight else 0 := by
  by_cases was : kept
  · rw [if_pos was, if_pos (only was)]
  · rw [if_neg was]
    split
    · exact positive
    · exact le_rfl

/-- Reading one frame. -/
theorem Reading.Paid.read (paid : reading.Paid limits start length frame.now)
    (bytes : 0 < limits.maxBytesPerSecConn)
    (count : 0 < limits.maxFramesPerSecConn) :
    (reading.read limits frame).Paid limits start length frame.now := by
  obtain ⟨asked, before, byBytes⟩ := paid.bytes
  obtain ⟨counted, earlier, byCount⟩ := paid.count
  obtain ⟨byteRate, bytesSlower⟩ := byteRate_bounds bytes frame.botLike
  obtain ⟨frameRate, countSlower⟩ := frameRate_bounds count frame.botLike
  have size : (0 : ℚ) ≤ frame.size := Nat.cast_nonneg _
  have admitted := PeerLimiters.admit_cases limits reading.peer frame
  dsimp only at admitted
  unfold Reading.read
  rcases admitted with same | same | ⟨passed, same⟩
  · rw [same]
    simpa using paid
  · rw [same]
    dsimp only
    rw [if_neg fun both => Bool.false_ne_true both.1]
    exact ⟨⟨frame.now, le_rfl, byBytes.ask before byteRate bytesSlower size⟩,
      paid.count⟩
  · rw [same]
    dsimp only
    constructor
    · refine ⟨frame.now, le_rfl, ?_⟩
      rw [Reading.bytes, spentWithin_relayed fun frame => (frame.size : ℚ)]
      apply byBytes.allow before byteRate bytesSlower size
      exact counted_le size fun _ => passed
    · refine ⟨frame.now, le_rfl, ?_⟩
      rw [Reading.count, spentWithin_relayed fun _ => 1]
      apply byCount.allow earlier frameRate countSlower zero_le_one
      exact counted_le zero_le_one And.left

/-- Reading any number of frames. -/
theorem Reading.Paid.readAll {frames : List ReadFrame} {time : ℚ}
    (paid : reading.Paid limits start length time)
    (bytes : 0 < limits.maxBytesPerSecConn)
    (count : 0 < limits.maxFramesPerSecConn)
    (since : ∀ frame ∈ frames, time ≤ frame.now)
    (ordered : (frames.map ReadFrame.now).Pairwise (· ≤ ·)) :
    ∃ time, (reading.readAll limits frames).Paid limits start length time := by
  induction frames generalizing reading time with
  | nil => exact ⟨time, paid⟩
  | cons frame frames induction =>
      rw [List.map_cons, List.pairwise_cons] at ordered
      have order := since frame List.mem_cons_self
      apply induction ((paid.later order).read bytes count) _ ordered.2
      intro next member
      exact ordered.1 _ (List.mem_map_of_mem member)

/-- What is forwarded or buffered within any time is bounded, and the tokens
stay within their bounds. -/
theorem throughput_bounded (limits : FrameLimits) (seeded : ℚ)
    {frames : List ReadFrame}
    (bytes : 0 < limits.maxBytesPerSecConn)
    (count : 0 < limits.maxFramesPerSecConn)
    (ordered : (frames.map ReadFrame.now).Pairwise (· ≤ ·)) :
    let reading := (Reading.mk (newPeerLimiters limits seeded) []).readAll
      limits frames
    (∀ start t : ℚ, 0 ≤ t →
      spentWithin start t reading.bytes ≤
          2 * limits.maxBytesPerSecConn + limits.maxBytesPerSecConn * t ∧
        spentWithin start t reading.count ≤
          2 * limits.maxFramesPerSecConn + limits.maxFramesPerSecConn * t) ∧
      (0 ≤ reading.peer.byteLimiter.tokens ∧
        reading.peer.byteLimiter.tokens ≤ 2 * limits.maxBytesPerSecConn) ∧
      0 ≤ reading.peer.frameLimiter.tokens ∧
        reading.peer.frameLimiter.tokens ≤ 2 * limits.maxFramesPerSecConn := by
  intro reading
  have windows : ∀ start t : ℚ, 0 ≤ t →
      ∃ time, reading.Paid limits start t time := by
    intro start t long
    obtain ⟨time, early, since⟩ : ∃ time ≤ seeded,
        ∀ frame ∈ frames, time ≤ frame.now := by
      cases frames with
      | nil => exact ⟨seeded, le_rfl, fun _ none => (nomatch none)⟩
      | cons first frames =>
          rw [List.map_cons, List.pairwise_cons] at ordered
          refine ⟨min seeded first.now, min_le_left _ _, ?_⟩
          intro frame member
          apply (min_le_right _ _).trans
          rcases List.mem_cons.mp member with rfl | later
          · exact le_rfl
          · exact ordered.1 _ (List.mem_map_of_mem later)
    have initial : (Reading.mk (newPeerLimiters limits seeded) []).Paid limits
        start t time :=
      ⟨⟨time, le_rfl, TokenBucket.pays_new (Nat.cast_nonneg _) long early⟩,
        ⟨time, le_rfl, TokenBucket.pays_new (Nat.cast_nonneg _) long early⟩⟩
    exact initial.readAll bytes count since ordered
  refine ⟨?_, ?_⟩
  · intro start t long
    obtain ⟨time, ⟨_, _, byBytes⟩, _, _, byCount⟩ := windows start t long
    have bytesTotal := byBytes.metered.total
    have countTotal := byCount.metered.total
    rw [sub_zero] at bytesTotal countTotal
    exact ⟨bytesTotal, countTotal⟩
  · obtain ⟨time, ⟨_, _, byBytes⟩, _, _, byCount⟩ := windows 0 0 le_rfl
    exact ⟨⟨byBytes.floor, byBytes.cap⟩, byCount.floor, byCount.cap⟩

/-- Two frames of the size of the burst, one of which is relayed. -/
theorem throughput_bounded_two :
    let limits : FrameLimits := ⟨4096, 1000, 10⟩
    let frames : List ReadFrame :=
      [⟨0, 2000, false, .forwarded⟩, ⟨1, 2000, false, .forwarded⟩]
    let reading := (Reading.mk (newPeerLimiters limits 0) []).readAll
      limits frames
    reading.relayed.length = 1 ∧
      spentWithin 0 1 reading.bytes ≤ 2 * (1000 : Nat) + (1000 : Nat) * 1 := by
  intro limits frames reading
  refine ⟨by decide +kernel, ?_⟩
  exact ((throughput_bounded limits 0 (by decide) (by decide)
    (by decide +kernel)).1 0 1 zero_le_one).1

end Throughput

end Byteln.Server

import Mathlib.Algebra.Order.Field.Rat
import Mathlib.Tactic.NormNum
import Byteln.Library.Refill

/-!
# Throughput of a connection

The token bucket that limits the bytes of a connection, with exact arithmetic.
Whether the traffic looks like a chunked transfer is a verdict on sizes and
times that is left open here.
-/

namespace Byteln.Server

open Byteln.Library

/-- Times are in seconds. -/
structure TokenBucket where
  tokens : ℚ
  last : ℚ
deriving DecidableEq

def newTokenBucket (initialTokens now : ℚ) : TokenBucket :=
  ⟨initialTokens, now⟩

namespace TokenBucket

/-- What `allow` does before it looks at the cost. -/
def refill (t : TokenBucket) (now ratePerSec : ℚ) : TokenBucket :=
  let elapsed := now - t.last
  if 0 < elapsed then
    let tokens := t.tokens + elapsed * ratePerSec
    let cap := ratePerSec * 2
    { tokens := if cap < tokens then cap else tokens, last := now }
  else t

def allow (t : TokenBucket) (now cost ratePerSec : ℚ) : TokenBucket × Bool :=
  if ratePerSec ≤ 0 then (t, true)
  else
    let t := t.refill now ratePerSec
    if cost ≤ t.tokens then ({ t with tokens := t.tokens - cost }, true)
    else (t, false)

end TokenBucket

/-- The default of `BYTELN_MAX_BYTES_PER_SEC_CONN`. -/
def maxBytesPerSecConn : Nat :=
  512 * 1024

/-- The limiter of a new peer. -/
def byteLimiter (maxBytesPerSecConn : Nat) (now : ℚ) : TokenBucket :=
  newTokenBucket ((maxBytesPerSecConn : ℚ) * 2) now

/-- The rate for a frame, which a bot-like shape of the traffic tightens. -/
def byteRate (maxBytesPerSecConn : Nat) (botLike : Bool) : ℚ :=
  let rate : ℚ := maxBytesPerSecConn
  if botLike then rate / 2 else rate

/-- What `readPeer` asks the limiter for a frame of `size` bytes. -/
def TokenBucket.limitBytes (limiter : TokenBucket) (maxBytesPerSecConn : Nat)
    (now : ℚ) (size : Nat) (botLike : Bool) : TokenBucket × Bool :=
  limiter.allow now size (byteRate maxBytesPerSecConn botLike)

namespace TokenBucket

variable {t : TokenBucket} {now ratePerSec : ℚ}

theorem refill_last (clock : t.last ≤ now) :
    (t.refill now ratePerSec).last = now := by
  unfold refill
  dsimp only
  split
  · rfl
  · rename_i still
    exact le_antisymm clock (sub_nonpos.mp (not_lt.mp still))

/-- The bucket has no less than one that is capped at twice a lower rate. -/
theorem topUp_le_refill {rate : ℚ} (clock : t.last ≤ now)
    (slower : rate ≤ ratePerSec) :
    topUp (rate * 2) ((now - t.last) * rate) t.tokens ≤
      (t.refill now ratePerSec).tokens := by
  have elapsed : 0 ≤ now - t.last := sub_nonneg.mpr clock
  have gains : (now - t.last) * rate ≤ (now - t.last) * ratePerSec :=
    mul_le_mul_of_nonneg_left slower elapsed
  unfold refill
  dsimp only
  split
  · have ahead := topUp_mono
      (mul_le_mul_of_nonneg_right slower (by norm_num : (0 : ℚ) ≤ 2)) gains
      (le_refl t.tokens)
    apply ahead.trans
    unfold topUp
    split
    · exact min_le_left _ _
    · exact min_le_right _ _
  · rename_i still
    have stopped : now - t.last = 0 := le_antisymm (not_lt.mp still) elapsed
    rw [stopped, zero_mul]
    unfold topUp
    rw [add_zero]
    exact min_le_right _ _

/-- The bucket pays what it has. -/
theorem allow_pays {cost : ℚ} (positive : 0 < ratePerSec)
    (enough : cost ≤ (t.refill now ratePerSec).tokens) :
    t.allow now cost ratePerSec =
      ({ t.refill now ratePerSec with
        tokens := (t.refill now ratePerSec).tokens - cost }, true) := by
  unfold allow
  rw [if_neg (not_le.mpr positive)]
  exact if_pos enough

end TokenBucket

end Byteln.Server

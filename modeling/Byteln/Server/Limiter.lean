import Byteln.Server.Registry

/-!
# Per-address quotas

The create rate of an address (a fixed window) and the number of buckets it
owns.  A key that is missing from the Go map counts as zero.
-/

namespace Byteln.Server

structure Window where
  start : Time
  count : Int

structure Limiter where
  createWindow : Duration
  createLimit : Int
  creates : String → Option Window
  maxBuckets : Int
  buckets : String → Nat

namespace Limiter

def new (createPerMin maxBuckets : Int) : Limiter where
  createWindow := 60 * 10 ^ 9
  createLimit := createPerMin
  creates := fun _ => none
  maxBuckets := maxBuckets
  buckets := fun _ => 0

def allowCreate (l : Limiter) (now : Time) (ip : String) : Limiter × Bool :=
  let fresh : Limiter :=
    { l with creates := Function.update l.creates ip (some ⟨now, 1⟩) }
  match l.creates ip with
  | none => (fresh, true)
  | some w =>
      if now - w.start ≥ l.createWindow then (fresh, true)
      else if w.count ≥ l.createLimit then (l, false)
      else
        ({ l with creates :=
            Function.update l.creates ip (some { w with count := w.count + 1 })
          }, true)

def tryAcquireBucket (l : Limiter) (ip : String) : Limiter × Bool :=
  if l.buckets ip ≥ l.maxBuckets then (l, false)
  else
    ({ l with buckets := Function.update l.buckets ip (l.buckets ip + 1) },
      true)

def releaseBucket (l : Limiter) (ip : String) : Limiter :=
  { l with buckets := Function.update l.buckets ip (l.buckets ip - 1) }

@[simp] theorem allowCreate_buckets (l : Limiter) (now : Time) (ip : String) :
    (l.allowCreate now ip).1.buckets = l.buckets := by
  unfold allowCreate
  split
  · rfl
  · split_ifs <;> rfl

/-- A granted acquisition counts one bucket more for its address. -/
theorem tryAcquireBucket_buckets {l : Limiter} {ip : String}
    (granted : (l.tryAcquireBucket ip).2 = true) (other : String) :
    (l.tryAcquireBucket ip).1.buckets other =
      l.buckets other + if other = ip then 1 else 0 := by
  unfold tryAcquireBucket at granted ⊢
  split_ifs at granted ⊢ with full same
  · simp [same]
  · simp [Function.update_of_ne same]

theorem tryAcquireBucket_refused {l : Limiter} {ip : String}
    (refused : (l.tryAcquireBucket ip).2 = false) :
    (l.tryAcquireBucket ip).1 = l := by
  unfold tryAcquireBucket at refused ⊢
  split_ifs at refused ⊢
  rfl

theorem releaseBucket_buckets (l : Limiter) (ip other : String) :
    (l.releaseBucket ip).buckets other =
      l.buckets other - if other = ip then 1 else 0 := by
  by_cases same : other = ip
  · simp [releaseBucket, same]
  · simp [releaseBucket, same]

end Limiter

end Byteln.Server

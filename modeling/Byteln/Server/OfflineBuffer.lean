import Byteln.Library.Slice
import Byteln.Server.Operations

/-!
# The offline buffer

What a bucket keeps for a seat that is away: the newest of the frames that
have not expired, as many as fit under both caps together with one more.  The
Go code filters, shortens and extends one slice for this; its list is what the
registry's model keeps.
-/

namespace Byteln.Server

open Byteln.Library

variable {κ δ : Type}

/-- What `pruneBufferLocked` makes of the slice behind a buffer. -/
def pruneBufferLocked (now : Time) (buffer : Slice (BufferedFrame δ)) :
    Slice (BufferedFrame δ) :=
  if buffer.len = 0 then buffer
  else buffer.compact fun f => now < f.expiresAt

theorem toList_pruneBufferLocked (now : Time)
    (buffer : Slice (BufferedFrame δ)) :
    (pruneBufferLocked now buffer).toList =
      pruneBuffer now buffer.toList := by
  unfold pruneBufferLocked
  split
  · rename_i empty
    have none : buffer.toList = [] := by
      apply List.eq_nil_of_length_eq_zero
      rw [buffer.length_toList, empty]
    rw [none]
    rfl
  · exact Slice.toList_compact _ buffer

/-! ## The frames of a bucket -/

namespace Registry

/-- The frames of the bucket behind a reference. -/
def frames (r : Registry κ δ) (ref : Ref) : List (BufferedFrame δ) :=
  ((r.heap[ref]?).map Bucket.buffer).getD []

theorem frames_of_found {r : Registry κ δ} {ref : Ref} {b : Bucket κ δ}
    (found : r.heap[ref]? = some b) : r.frames ref = b.buffer := by
  simp [frames, found]

theorem frames_setBucket {r : Registry κ δ} {target : Ref} {b b' : Bucket κ δ}
    (found : r.heap[target]? = some b) (same : b'.buffer = b.buffer)
    (ref : Ref) : (r.setBucket target b').frames ref = r.frames ref := by
  unfold frames setBucket
  rw [List.getElem?_set]
  split
  · rename_i hit
    subst hit
    obtain ⟨inBounds, -⟩ := List.getElem?_eq_some_iff.mp found
    rw [if_pos inBounds, found]
    exact same
  · rfl

theorem frames_setBucket_self {r : Registry κ δ} {target : Ref}
    {b b' : Bucket κ δ} (found : r.heap[target]? = some b) :
    (r.setBucket target b').frames target = b'.buffer := by
  obtain ⟨inBounds, -⟩ := List.getElem?_eq_some_iff.mp found
  simp [frames, setBucket, inBounds]

theorem frames_setBucket_of_ne (r : Registry κ δ) {target ref : Ref}
    (b' : Bucket κ δ) (other : ref ≠ target) :
    (r.setBucket target b').frames ref = r.frames ref := by
  simp [frames, setBucket, List.getElem?_set_ne other.symm]

/-- A new bucket has no frames. -/
theorem frames_publish {r : Registry κ δ} {b : Bucket κ δ}
    (empty : b.buffer = []) (m : InsertionMap String Ref) (ref : Ref) :
    { r with heap := r.heap ++ [b], m := m }.frames ref = r.frames ref := by
  unfold frames
  by_cases inBounds : ref < r.heap.length
  · rw [List.getElem?_append_left inBounds]
  · have above := Nat.le_of_not_lt inBounds
    rw [List.getElem?_append_right above, List.getElem?_eq_none above,
      List.getElem?_singleton]
    split
    · exact empty
    · rfl

theorem frames_joinCreate (r : Registry κ δ) (now : Time) (args : JoinArgs κ)
    (target ref : Ref) :
    (r.joinCreate now args target).1.frames ref = r.frames ref := by
  have kept : ∀ b : Bucket κ δ,
      (if target = ref then b.setPeer 0 (some (args.peer now))
        else b).buffer = b.buffer := by
    intro b
    split <;> rfl
  unfold frames
  simp only [joinCreate, List.getElem?_modify, Option.map_eq_map,
    Option.map_map, Function.comp_def, kept]

theorem frames_joinAttach (r : Registry κ δ) (now : Time) (args : JoinArgs κ)
    (target ref : Ref) :
    (r.joinAttach now args target).1.frames ref = r.frames ref := by
  unfold joinAttach
  cases found : r.heap[target]? with
  | none => rfl
  | some b =>
      obtain ⟨peers, joined⟩ := join_frame r.cfg now args b
      exact frames_setBucket found (by rw [joined]) ref

theorem frames_leaveSection (r : Registry κ δ) (now : Time) (id : String)
    (slot : Slot) (target ref : Ref) :
    (r.leaveSection now id slot target).1.frames ref = r.frames ref := by
  rcases r.leaveSection_cases now id slot target with
    ⟨-, same⟩ | ⟨b, p, found, -, -, heap, -, -⟩
  · rw [same]
  · have left : (b.markLeft slot p now).buffer = b.buffer := rfl
    have set := frames_setBucket found left ref
    unfold frames at set ⊢
    rw [heap]
    exact set

theorem frames_join (r : Registry κ δ) (now : Time) (args : JoinArgs κ)
    (ref : Ref) : (r.join now args).1.frames ref = r.frames ref := by
  unfold join joinEnter
  cases r.m.get? args.id with
  | none =>
      exact (frames_joinCreate _ now args _ ref).trans
        (frames_publish rfl _ ref)
  | some target => exact r.frames_joinAttach now args target ref

theorem frames_leave (r : Registry κ δ) (now : Time) (id : String)
    (slot : Slot) (ref : Ref) :
    (r.leave now id slot).1.frames ref = r.frames ref := by
  unfold leave
  split
  · rfl
  · exact r.frames_leaveSection now id slot _ ref

/-- The sections of the registry's calls leave all buffers alone. -/
theorem frames_callStep {oracle : Oracle} {shared shared' : Shared κ δ}
    {call call' : Call κ} (step : CallStep oracle shared call shared' call')
    (ref : Ref) : shared'.reg.frames ref = shared.reg.frames ref := by
  cases step with
  | joinPublish _ _ _ _ empty _ => exact frames_publish empty _ ref
  | joinCreate => exact frames_joinCreate _ _ _ _ ref
  | joinAttach => exact frames_joinAttach _ _ _ _ ref
  | leaveMark => exact frames_leaveSection _ _ _ _ _ ref
  | joinFound | leaveMissing | leaveFound | sweepEnter | sweepEnd | sweepKeep
  | sweepCondemn | sweepDelete => rfl

theorem frames_sweepIdle (r : Registry κ δ) (now : Time) (ref : Ref) :
    (r.sweepIdle now).1.frames ref = r.frames ref := by
  unfold frames sweepIdle
  rw [(r.sweepKeys_frame now _).1]

theorem frames_updateBucket {r : Registry κ δ} {target ref : Ref}
    {b : Bucket κ δ} (found : r.heap[ref]? = some b)
    (f : Bucket κ δ → Bucket κ δ) :
    (r.updateBucket target f).frames ref =
      if target = ref then (f b).buffer else b.buffer := by
  unfold frames
  rw [updateBucket_heap, found]
  split <;> rfl

end Registry

variable [Payload δ]

/-! ## One more frame -/

/-- Frames that a buffer may hold. -/
def WithinCaps (cfg : Config) (frames : List (BufferedFrame δ)) : Prop :=
  (frames.length : Int) ≤ cfg.maxBufferFrames ∧
    (bufferBytes frames : Int) ≤ cfg.maxBufferBytes

@[simp] theorem bufferBytes_nil :
    bufferBytes ([] : List (BufferedFrame δ)) = 0 :=
  rfl

theorem bufferBytes_append (frames frames' : List (BufferedFrame δ)) :
    bufferBytes (frames ++ frames') =
      bufferBytes frames + bufferBytes frames' := by
  simp [bufferBytes]

@[simp] theorem bufferBytes_singleton (frame : BufferedFrame δ) :
    bufferBytes [frame] = Payload.len frame.data := by
  simp [bufferBytes]

/-- The loop's condition, for a frame that is still to come. -/
theorem withinCaps_snoc_iff (cfg : Config) (frames : List (BufferedFrame δ))
    (frame : BufferedFrame δ) :
    WithinCaps cfg (frames ++ [frame]) ↔
      ¬((frames.length : Int) ≥ cfg.maxBufferFrames ∨
        (bufferBytes frames + Payload.len frame.data : Int) >
          cfg.maxBufferBytes) := by
  unfold WithinCaps
  rw [bufferBytes_append, bufferBytes_singleton, List.length_append,
    List.length_singleton]
  omega

/-- Dropping the oldest frames ends at the longest suffix that leaves room. -/
theorem evict_longest {cfg : Config} {frame : BufferedFrame δ}
    (alone : WithinCaps cfg [frame]) (frames : List (BufferedFrame δ)) :
    IsLongestSuffix (fun kept => WithinCaps cfg (kept ++ [frame])) frames
      (evict cfg (Payload.len frame.data) frames) := by
  induction frames with
  | nil => exact .self alone
  | cons first frames induction =>
      unfold evict
      split
      · rename_i exceeds
        apply IsLongestSuffix.cons _ induction
        rw [withinCaps_snoc_iff, not_not]
        exact exceeds
      · rename_i fits
        exact .self ((withinCaps_snoc_iff cfg _ frame).mpr fits)

theorem evict_suffix (cfg : Config) (size : Nat)
    (frames : List (BufferedFrame δ)) : evict cfg size frames <:+ frames := by
  induction frames with
  | nil => exact List.suffix_refl []
  | cons first frames induction =>
      unfold evict
      split
      · exact induction.trans (List.suffix_cons first frames)
      · exact List.suffix_refl _

/-- No number of dropped frames makes room for an oversized one. -/
theorem evict_oversized {cfg : Config} {size : Nat}
    (oversized : (size : Int) > cfg.maxBufferBytes)
    (frames : List (BufferedFrame δ)) : evict cfg size frames = [] := by
  induction frames with
  | nil => rfl
  | cons first frames induction =>
      unfold evict
      rw [if_pos (.inr (by omega))]
      exact induction

/-! ## The slice behind the buffer -/

/-- The loop that makes room for `size` bytes. -/
def evictLocked (cfg : Config) (size : Nat)
    (buffer : Slice (BufferedFrame δ)) : Slice (BufferedFrame δ) :=
  if (buffer.len : Int) ≥ cfg.maxBufferFrames ∨
      (bufferBytes buffer.toList + size : Int) > cfg.maxBufferBytes then
    if occupied : buffer.len ≠ 0 then
      evictLocked cfg size (buffer.rest occupied)
    else buffer
  else buffer
termination_by buffer.len
decreasing_by
  simp only [Slice.rest]
  omega

/-- `BufferIfAlone` after it has found the other seat away.  An array that has
to be allocated for the longer slice has some spare cells. -/
def bufferLocked (cfg : Config) (now : Time)
    (buffer : Slice (BufferedFrame δ)) (data : δ) (binary : Bool)
    (spare : List (BufferedFrame δ)) : Slice (BufferedFrame δ) :=
  let buffer :=
    evictLocked cfg (Payload.len data) (pruneBufferLocked now buffer)
  if (Payload.len data : Int) > cfg.maxBufferBytes then buffer
  else
    buffer.append
      { data := data, binary := binary
        expiresAt := now + cfg.bufferTTL } spare

theorem toList_evictLocked (cfg : Config) (size : Nat)
    (buffer : Slice (BufferedFrame δ)) :
    (evictLocked cfg size buffer).toList = evict cfg size buffer.toList := by
  fun_induction evictLocked cfg size buffer with
  | case1 buffer exceeds occupied induction =>
      rw [induction, Slice.toList_rest]
      cases frames : buffer.toList with
      | nil =>
          have length := buffer.length_toList
          rw [frames] at length
          exact absurd length.symm occupied
      | cons first rest =>
          have length := buffer.length_toList
          rw [frames] at exceeds length
          rw [← length] at exceeds
          rw [List.tail_cons, evict, if_pos exceeds]
  | case2 buffer exceeds empty =>
      have none : buffer.toList = [] := by
        apply List.eq_nil_of_length_eq_zero
        rw [buffer.length_toList]
        exact not_not.mp empty
      rw [none]
      rfl
  | case3 buffer fits =>
      cases frames : buffer.toList with
      | nil => rfl
      | cons first rest =>
          have length := buffer.length_toList
          rw [frames] at fits length
          rw [← length] at fits
          rw [evict, if_neg fits]

/-- The slice holds what the model's buffer holds. -/
theorem toList_bufferLocked {cfg : Config} {now : Time} {b : Bucket κ δ}
    {slot : Slot} {data : δ} {binary : Bool}
    {buffer : Slice (BufferedFrame δ)}
    (away : (b.peers slot.other).any (fun p => p.connected) = false)
    (behind : buffer.toList = b.buffer) (spare : List (BufferedFrame δ)) :
    (bufferLocked cfg now buffer data binary spare).toList =
      (b.bufferIfAlone cfg now slot data binary).1.buffer := by
  have kept : (evictLocked cfg (Payload.len data)
      (pruneBufferLocked now buffer)).toList =
        evict cfg (Payload.len data) (pruneBuffer now b.buffer) := by
    rw [toList_evictLocked, toList_pruneBufferLocked, behind]
  unfold bufferLocked Bucket.bufferIfAlone
  rw [away]
  dsimp only
  split
  · simpa using kept
  · simpa [Slice.toList_append] using kept

/-! ## What is buffered -/

/-- The frame that `BufferIfAlone` appends. -/
def bufferedFrame (cfg : Config) (now : Time) (data : δ) (binary : Bool) :
    BufferedFrame δ :=
  { data := data, binary := binary, expiresAt := now + cfg.bufferTTL }

section

variable {cfg : Config} {b : Bucket κ δ} {slot : Slot} {data : δ}

theorem bufferIfAlone_fitting (now : Time) (binary : Bool)
    (capped : 0 < cfg.maxBufferFrames)
    (away : (b.peers slot.other).any (fun p => p.connected) = false)
    (fits : (Payload.len data : Int) ≤ cfg.maxBufferBytes) :
    ∃ kept,
      IsLongestSuffix
        (fun kept =>
          WithinCaps cfg (kept ++ [bufferedFrame cfg now data binary]))
        (pruneBuffer now b.buffer) kept ∧
      b.bufferIfAlone cfg now slot data binary =
        ({ b with buffer := kept ++ [bufferedFrame cfg now data binary] },
          true) := by
  have alone : WithinCaps cfg [bufferedFrame cfg now data binary] := by
    constructor
    · exact_mod_cast capped
    · rw [bufferBytes_singleton]
      exact fits
  refine ⟨_, evict_longest alone (pruneBuffer now b.buffer), ?_⟩
  unfold Bucket.bufferIfAlone
  rw [away]
  exact if_neg (not_lt.mpr fits)

theorem bufferIfAlone_oversized (now : Time) (binary : Bool)
    (away : (b.peers slot.other).any (fun p => p.connected) = false)
    (oversized : (Payload.len data : Int) > cfg.maxBufferBytes) :
    b.bufferIfAlone cfg now slot data binary =
      ({ b with buffer := [] }, true) := by
  unfold Bucket.bufferIfAlone
  rw [away, evict_oversized oversized]
  exact if_pos oversized

theorem bufferIfAlone_connected (now : Time) (data : δ) (binary : Bool)
    (connected : (b.peers slot.other).any (fun p => p.connected) = true) :
    b.bufferIfAlone cfg now slot data binary = (b, false) := by
  unfold Bucket.bufferIfAlone
  exact if_pos connected

end

/-- Frames go only by expiring or from the oldest on, and new ones come
last. -/
def DropsOldest (now : Time) (frames added after : List (BufferedFrame δ)) :
    Prop :=
  ∃ kept, kept <:+ pruneBuffer now frames ∧ after = kept ++ added

/-! ## Runs -/

/-- Operations on a new registry, at any times. -/
def registryRuns (κ δ : Type) [Payload δ] (cfg : Config) :
    Lts (Registry κ δ) (Op κ δ × Time) where
  init := fun r => r = newRegistry cfg
  step := fun r label next => next = label.1.run label.2 r

/-- What `BufferIfAlone` is given for a bucket. -/
def Op.arrival (ref : Ref) : Op κ δ → List (δ × Bool)
  | .bufferIfAlone target _ data binary =>
      if target = ref then [(data, binary)] else []
  | .join _ | .leave _ _ | .drainBuffer _ | .sweepIdle => []

/-- What it has been given during a run. -/
def arrivals (ref : Ref) (trace : List (Registry κ δ × (Op κ δ × Time))) :
    List (δ × Bool) :=
  trace.flatMap fun entry => entry.2.1.arrival ref

/-- The content of buffered frames. -/
def contents (frames : List (BufferedFrame δ)) : List (δ × Bool) :=
  frames.map fun f => (f.data, f.binary)

/-- Both caps are set. -/
structure Capped (cfg : Config) : Prop where
  frames : 0 < cfg.maxBufferFrames
  bytes : 0 < cfg.maxBufferBytes

omit [Payload δ] in
theorem newRegistry_capped (cfg : Config) :
    Capped (newRegistry cfg : Registry κ δ).cfg := by
  constructor
  · simp only [newRegistry]
    split <;> omega
  · simp only [newRegistry]
    split <;> omega

theorem Capped.nil {cfg : Config} (capped : Capped cfg) :
    WithinCaps cfg ([] : List (BufferedFrame δ)) :=
  ⟨capped.frames.le, capped.bytes.le⟩

/-- What one operation leaves of the frames of a bucket. -/
theorem Op.run_frames {r : Registry κ δ} {ref : Ref} {b : Bucket κ δ}
    (capped : Capped r.cfg) (found : r.heap[ref]? = some b) (op : Op κ δ)
    (now : Time) :
    (op.run now r).frames ref = b.buffer ∨
      op = .drainBuffer ref ∧ (op.run now r).frames ref = [] ∨
      ∃ added, DropsOldest now b.buffer added ((op.run now r).frames ref) ∧
        (contents added).Sublist (op.arrival ref) ∧
        WithinCaps r.cfg ((op.run now r).frames ref) := by
  have before := Registry.frames_of_found found
  cases op with
  | join args =>
      left
      exact (r.frames_join now args ref).trans before
  | leave id slot =>
      left
      exact (r.frames_leave now id slot ref).trans before
  | sweepIdle =>
      left
      exact (r.frames_sweepIdle now ref).trans before
  | drainBuffer target =>
      rw [run, Registry.frames_updateBucket found]
      split
      · rename_i hit
        exact .inr (.inl ⟨congrArg _ hit, rfl⟩)
      · exact .inl rfl
  | bufferIfAlone target slot data binary =>
      rw [run, Registry.frames_updateBucket found, arrival]
      split
      · cases away : (b.peers slot.other).any fun p => p.connected with
        | true =>
            left
            rw [bufferIfAlone_connected now data binary away]
        | false =>
            right
            right
            by_cases fits : (Payload.len data : Int) ≤ r.cfg.maxBufferBytes
            · obtain ⟨kept, longest, result⟩ :=
                bufferIfAlone_fitting now binary capped.frames away fits
              rw [result]
              exact ⟨_, ⟨kept, longest.isSuffix, rfl⟩, List.Sublist.refl _,
                longest.holds⟩
            · rw [bufferIfAlone_oversized now binary away (not_le.mp fits)]
              exact ⟨[], ⟨[], List.nil_suffix, rfl⟩, List.nil_sublist _,
                capped.nil⟩
      · exact .inl rfl

/-- A bucket that an operation publishes has no frames. -/
theorem Op.run_frames_absent {r : Registry κ δ} {ref : Ref}
    (absent : r.heap[ref]? = none) (op : Op κ δ) (now : Time) :
    (op.run now r).frames ref = [] := by
  have before : r.frames ref = [] := by simp [Registry.frames, absent]
  have updated : ∀ target f, (r.updateBucket target f).frames ref = [] := by
    intro target f
    unfold Registry.frames
    rw [Registry.updateBucket_heap, absent]
    split <;> rfl
  cases op with
  | join args => exact (r.frames_join now args ref).trans before
  | leave id slot => exact (r.frames_leave now id slot ref).trans before
  | sweepIdle => exact (r.frames_sweepIdle now ref).trans before
  | drainBuffer target => exact updated target _
  | bufferIfAlone target slot data binary => exact updated target _

/-- The caps hold, and the frames are in the order of their arrival. -/
structure Kept (cfg : Config) (arrived : Ref → List (δ × Bool))
    (r : Registry κ δ) : Prop where
  cfg : r.cfg = (newRegistry cfg : Registry κ δ).cfg
  caps : ∀ ref, WithinCaps r.cfg (r.frames ref)
  order : ∀ ref, (contents (r.frames ref)).Sublist (arrived ref)

theorem Kept.step {cfg : Config} {arrived : Ref → List (δ × Bool)}
    {r : Registry κ δ} (kept : Kept cfg arrived r) (op : Op κ δ)
    (now : Time) :
    Kept cfg (fun ref => arrived ref ++ op.arrival ref) (op.run now r) := by
  have capped : Capped r.cfg := kept.cfg ▸ newRegistry_capped cfg
  have same := op.run_cfg now r
  suffices each : ∀ ref, WithinCaps r.cfg ((op.run now r).frames ref) ∧
      (contents ((op.run now r).frames ref)).Sublist
        (arrived ref ++ op.arrival ref) by
    refine ⟨same.trans kept.cfg, fun ref => ?_, fun ref => (each ref).2⟩
    rw [same]
    exact (each ref).1
  intro ref
  cases found : r.heap[ref]? with
  | none =>
      rw [op.run_frames_absent found]
      exact ⟨capped.nil, List.nil_sublist _⟩
  | some b =>
      have before := Registry.frames_of_found found
      have ordered := kept.order ref
      rw [before] at ordered
      rcases op.run_frames capped found now with
        still | ⟨-, empty⟩ | ⟨added, ⟨rest, newest, after⟩, arrives, caps⟩
      · rw [still, ← before]
        exact ⟨kept.caps ref,
          (kept.order ref).trans (List.sublist_append_left _ _)⟩
      · rw [empty]
        exact ⟨capped.nil, List.nil_sublist _⟩
      · refine ⟨caps, ?_⟩
        rw [after]
        have older : (contents rest).Sublist (arrived ref) :=
          ((newest.sublist.trans List.filter_sublist).map _).trans ordered
        have split : contents (rest ++ added) =
            contents rest ++ contents added := List.map_append
        rw [split]
        exact older.append arrives

theorem kept_of_run {cfg : Config} {start r : Registry κ δ}
    {trace : List (Registry κ δ × (Op κ δ × Time))}
    (starts : (registryRuns κ δ cfg).init start)
    (run : (registryRuns κ δ cfg).Run start trace r) :
    Kept cfg (fun ref => arrivals ref trace) r := by
  induction run with
  | refl =>
      obtain rfl : start = newRegistry cfg := starts
      have none : ∀ ref, (newRegistry cfg : Registry κ δ).frames ref = [] :=
        fun _ => rfl
      constructor
      · rfl
      · intro ref
        rw [none]
        exact (newRegistry_capped cfg).nil
      · intro ref
        rw [none]
        exact List.nil_sublist _
  | snoc run step induction =>
      rename_i middle finish trace label
      obtain rfl : finish = label.1.run label.2 middle := step
      have next := induction.step label.1 label.2
      simpa [arrivals] using next

/-- In every registry that operations lead to, the frames of a bucket are
within both caps and in the order of their arrival.  A frame that fits is
appended to the longest suffix of the unexpired frames that leaves room for it,
in the slice as in its list, and no operation drops anything else than expired
or oldest frames, unless it hands all of them over. -/
theorem buffer_keeps_longest_suffix {cfg : Config} {start r : Registry κ δ}
    {trace : List (Registry κ δ × (Op κ δ × Time))} {ref : Ref}
    {b : Bucket κ δ} (starts : (registryRuns κ δ cfg).init start)
    (run : (registryRuns κ δ cfg).Run start trace r)
    (found : r.heap[ref]? = some b) :
    (∀ now slot data binary,
      (b.peers slot.other).any (fun p => p.connected) = false →
      (Payload.len data : Int) ≤ r.cfg.maxBufferBytes →
      ∃ kept after,
        IsLongestSuffix
          (fun kept => WithinCaps r.cfg
            (kept ++ [bufferedFrame r.cfg now data binary]))
          (b.buffer.filter fun f => now < f.expiresAt) kept ∧
        after = kept ++ [bufferedFrame r.cfg now data binary] ∧
        b.bufferIfAlone r.cfg now slot data binary =
          ({ b with buffer := after }, true) ∧
        ∀ buffer spare, buffer.toList = b.buffer →
          (bufferLocked r.cfg now buffer data binary spare).toList = after) ∧
    WithinCaps r.cfg b.buffer ∧
    (contents b.buffer).Sublist (arrivals ref trace) ∧
    ∀ (op : Op κ δ) now b', (op.run now r).heap[ref]? = some b' →
      b'.buffer = b.buffer ∨ op = .drainBuffer ref ∨
        ∃ added, DropsOldest now b.buffer added b'.buffer := by
  have kept := kept_of_run starts run
  have capped : Capped r.cfg := kept.cfg ▸ newRegistry_capped cfg
  have frames := Registry.frames_of_found found
  refine ⟨?_, frames ▸ kept.caps ref, frames ▸ kept.order ref, ?_⟩
  · intro now slot data binary away fits
    obtain ⟨suffix, longest, result⟩ :=
      bufferIfAlone_fitting now binary capped.frames away fits
    refine ⟨suffix, _, longest, rfl, result, ?_⟩
    intro buffer spare behind
    rw [toList_bufferLocked away behind spare, result]
  · intro op now b' found'
    have frames' := Registry.frames_of_found found'
    rcases op.run_frames capped found now with
      still | ⟨drains, -⟩ | ⟨added, drops, -, -⟩
    · exact .inl (frames' ▸ still)
    · exact .inr (.inl drains)
    · exact .inr (.inr ⟨added, frames' ▸ drops⟩)

/-! ## Frames that fit nowhere -/

/-- Refusing an oversized frame leaves the unexpired frames in place exactly
if there are none. -/
theorem refusal_keeps_frames_iff (cfg : Config) (b : Bucket κ δ) (now : Time)
    (slot : Slot) (data : δ) (binary : Bool)
    (oversized : (Payload.len data : Int) > cfg.maxBufferBytes) :
    ((b.bufferIfAlone cfg now slot data binary).1.buffer.filter
        fun f => now < f.expiresAt) =
      (b.buffer.filter fun f => now < f.expiresAt) ↔
      (b.peers slot.other).any (fun p => p.connected) = true ∨
        ∀ f ∈ b.buffer, f.expiresAt ≤ now := by
  cases away : (b.peers slot.other).any fun p => p.connected with
  | true =>
      rw [bufferIfAlone_connected now data binary away]
      simp
  | false =>
      rw [bufferIfAlone_oversized now binary away oversized]
      constructor
      · intro same
        right
        intro f buffered
        by_contra unexpired
        have stays : f ∈ b.buffer.filter fun f => now < f.expiresAt :=
          List.mem_filter.mpr ⟨buffered, decide_eq_true (not_le.mp unexpired)⟩
        rw [← same] at stays
        cases stays
      · rintro (connected | expired)
        · cases connected
        · symm
          apply List.filter_eq_nil_iff.mpr
          intro f buffered unexpired
          exact absurd (of_decide_eq_true unexpired)
            (not_lt.mpr (expired f buffered))

/-! ## A small room -/

/-- A room that buffers two frames and four bytes. -/
private def smallConfig : Config :=
  { roomConfig with maxBufferFrames := 2, maxBufferBytes := 4 }

private def smallRoom : Registry String String :=
  newRegistry smallConfig

/-- Somebody is alone in the room and sends three frames, of which two fit. -/
private def smallTalk : List (Op String String × Time) :=
  [(.join (roomJoin "alice" "c1"), 0), (.bufferIfAlone 0 0 "hi" true, 1),
    (.bufferIfAlone 0 0 "you" false, 2), (.bufferIfAlone 0 0 "!" true, 3)]

/-- The registry before each operation of a list, and after all of them. -/
def Registry.runAll (r : Registry κ δ) :
    List (Op κ δ × Time) →
      List (Registry κ δ × (Op κ δ × Time)) × Registry κ δ
  | [] => ([], r)
  | label :: labels =>
      let (trace, finish) := (label.1.run label.2 r).runAll labels
      ((r, label) :: trace, finish)

theorem run_runAll (cfg : Config) (r : Registry κ δ)
    (labels : List (Op κ δ × Time)) :
    (registryRuns κ δ cfg).Run r (r.runAll labels).1 (r.runAll labels).2 := by
  induction labels generalizing r with
  | nil => exact .refl r
  | cons label labels induction =>
      exact Lts.Run.cons rfl (induction _)

theorem small_talk_kept :
    ∃ r b, (registryRuns String String smallConfig).Reachable r ∧
      r.heap[0]? = some b ∧
      contents b.buffer = [("you", false), ("!", true)] ∧
      WithinCaps r.cfg b.buffer := by
  have run := run_runAll smallConfig smallRoom smallTalk
  obtain ⟨b, found, same⟩ : ∃ b : Bucket String String,
      (smallRoom.runAll smallTalk).2.heap[0]? = some b ∧
        contents b.buffer = [("you", false), ("!", true)] := by
    exact ⟨_, rfl, rfl⟩
  exact ⟨_, b, ⟨_, _, rfl, run⟩, found, same,
    (buffer_keeps_longest_suffix rfl run found).2.1⟩

/-- A frame that is refused empties the buffer. -/
theorem refused_frame_evicts :
    ∃ r b, (registryRuns String String smallConfig).Reachable r ∧
      r.heap[0]? = some b ∧
      (Payload.len "hello" : Int) > r.cfg.maxBufferBytes ∧
      contents (b.buffer.filter fun f => 4 < f.expiresAt) =
        [("you", false), ("!", true)] ∧
      (b.bufferIfAlone r.cfg 4 0 "hello" true).2 = true ∧
      contents (b.bufferIfAlone r.cfg 4 0 "hello" true).1.buffer = [] :=
  ⟨_, _, ⟨_, _, rfl, run_runAll smallConfig smallRoom smallTalk⟩, rfl,
    by decide, rfl, rfl, rfl⟩

theorem refusal_keeps_expired_room :
    ∃ b, (smallRoom.runAll smallTalk).2.heap[0]? = some b ∧
      ((b.bufferIfAlone smallRoom.cfg 63 0 "hello" true).1.buffer.filter
          fun f => 63 < f.expiresAt) =
        b.buffer.filter fun f => 63 < f.expiresAt := by
  obtain ⟨b, found, expires⟩ : ∃ b : Bucket String String,
      (smallRoom.runAll smallTalk).2.heap[0]? = some b ∧
        b.buffer.map (fun f => f.expiresAt) = [62, 63] :=
    ⟨_, rfl, rfl⟩
  refine ⟨b, found, (refusal_keeps_frames_iff smallRoom.cfg b 63 0 "hello" true
    (by decide)).mpr (.inr ?_)⟩
  intro f buffered
  have listed := List.mem_map_of_mem (f := fun f => f.expiresAt) buffered
  rw [expires] at listed
  rcases List.mem_pair.mp listed with first | second
  · exact first.le.trans (by decide)
  · exact second.le

end Byteln.Server

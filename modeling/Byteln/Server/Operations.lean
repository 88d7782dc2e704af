import Byteln.Library.Transition
import Byteln.Server.Joining
import Byteln.Server.Calls

/-!
# Registry operations one after the other

The operations of the registry, each taken as atomic, under a clock that never
goes back.  What one operation does to one bucket is one of four effects; a
bucket appears only when a join finds none under its id.
-/

namespace Byteln.Server

open Byteln.Library

variable {κ δ : Type}

/-- An operation.  The buffer operations take a bucket by pointer, so it need
not be registered. -/
inductive Op (κ δ : Type) where
  | join (args : JoinArgs κ)
  | leave (id : String) (slot : Slot)
  | bufferIfAlone (ref : Ref) (fromSlot : Slot) (data : δ) (binary : Bool)
  | drainBuffer (ref : Ref)
  | sweepIdle

/-- Replace a bucket, if it is there. -/
def Registry.updateBucket (r : Registry κ δ) (ref : Ref)
    (f : Bucket κ δ → Bucket κ δ) : Registry κ δ :=
  match r.heap[ref]? with
  | none => r
  | some b => r.setBucket ref (f b)

def Op.run [Payload δ] (now : Time) (r : Registry κ δ) :
    Op κ δ → Registry κ δ
  | .join args => (r.join now args).1
  | .leave id slot => (r.leave now id slot).1
  | .bufferIfAlone ref fromSlot data binary =>
      r.updateBucket ref fun b =>
        (b.bufferIfAlone r.cfg now fromSlot data binary).1
  | .drainBuffer ref => r.updateBucket ref fun b => (b.drainBuffer now).1
  | .sweepIdle => (r.sweepIdle now).1

/-- A registry and the time of the last operation on it. -/
structure Clocked (κ δ : Type) where
  reg : Registry κ δ
  now : Time

/-- Runs of operations on a new registry. -/
def operations (κ δ : Type) [Payload δ] (cfg : Config) :
    Lts (Clocked κ δ) (Op κ δ × Time) where
  init := fun s => s.reg = newRegistry cfg
  step := fun s label s' =>
    s.now ≤ label.2 ∧ s' = ⟨label.1.run label.2 s.reg, label.2⟩

theorem operations_step [Payload δ] {cfg : Config} {s : Clocked κ δ}
    (reachable : (operations κ δ cfg).Reachable s) (op : Op κ δ) {now : Time}
    (later : s.now ≤ now) :
    (operations κ δ cfg).Reachable ⟨op.run now s.reg, now⟩ := by
  have taken : (operations κ δ cfg).step s (op, now)
      ⟨op.run now s.reg, now⟩ := ⟨later, rfl⟩
  exact reachable.step taken

/-! ## What an operation does to one bucket -/

/-- The effects of an operation on the bucket behind a reference. -/
inductive Op.Effect (now : Time) (r : Registry κ δ) (ref : Ref)
    (b : Bucket κ δ) : Op κ δ → Bucket κ δ → Prop where
  | kept {op : Op κ δ} : Op.Effect now r ref b op b
  | joined {args : JoinArgs κ} :
      r.m.get? args.id = some ref →
      Op.Effect now r ref b (.join args) (b.join r.cfg now args).1
  | left {id : String} {slot : Slot} {p : Peer κ} :
      r.m.get? id = some ref → b.peers slot = some p →
      Op.Effect now r ref b (.leave id slot) (b.markLeft slot p now)
  | buffered {op : Op κ δ} {buffer : List (BufferedFrame δ)} :
      Op.Effect now r ref b op { b with buffer := buffer }

theorem Registry.updateBucket_heap (r : Registry κ δ) (target ref : Ref)
    (f : Bucket κ δ → Bucket κ δ) :
    (r.updateBucket target f).heap[ref]? =
      if target = ref then r.heap[ref]?.map f else r.heap[ref]? := by
  by_cases same : target = ref
  · subst same
    rw [if_pos rfl]
    unfold updateBucket
    cases found : r.heap[target]? with
    | none => exact found
    | some b =>
        obtain ⟨inBounds, -⟩ := List.getElem?_eq_some_iff.mp found
        simp [setBucket, inBounds]
  · rw [if_neg same]
    unfold updateBucket
    split
    · rfl
    · simp [setBucket, same]

@[simp] theorem Registry.updateBucket_m (r : Registry κ δ) (ref : Ref)
    (f : Bucket κ δ → Bucket κ δ) : (r.updateBucket ref f).m = r.m := by
  unfold updateBucket
  split <;> rfl

@[simp] theorem Registry.updateBucket_cfg (r : Registry κ δ) (ref : Ref)
    (f : Bucket κ δ → Bucket κ δ) : (r.updateBucket ref f).cfg = r.cfg := by
  unfold updateBucket
  split <;> rfl

/-- A sweep deletes only map entries. -/
theorem Registry.sweepKeys_frame (r : Registry κ δ) (now : Time)
    (ids : List String) :
    (r.sweepKeys now ids).1.heap = r.heap ∧
      (r.sweepKeys now ids).1.cfg = r.cfg := by
  induction ids generalizing r with
  | nil => exact ⟨rfl, rfl⟩
  | cons id ids induction =>
      unfold sweepKeys
      split
      · exact induction r
      · split
        · exact induction _
        · exact induction r

/-- An entry a sweep deletes leads to a bucket it has condemned. -/
theorem Registry.sweepKeys_get? (r : Registry κ δ) (now : Time)
    (ids : List String) (id : String) :
    (r.sweepKeys now ids).1.m.get? id = r.m.get? id ∨
      (r.sweepKeys now ids).1.m.get? id = none ∧
        ∃ b, r.bucket? id = some b ∧ sweepVerdict r.cfg now b = true := by
  induction ids generalizing r with
  | nil => exact .inl rfl
  | cons first ids induction =>
      unfold sweepKeys
      split
      · exact induction r
      · rename_i b found
        split
        · rename_i condemned
          have rest := induction { r with m := r.m.erase first }
          by_cases same : id = first
          · subst same
            refine .inr ⟨?_, b, found, condemned⟩
            rcases rest with kept | ⟨gone, -⟩
            · exact kept.trans (by simp)
            · exact gone
          · rcases rest with kept | ⟨gone, b', found', condemned'⟩
            · left
              exact kept.trans (by simp [InsertionMap.get?_erase, same])
            · refine .inr ⟨gone, b', ?_, condemned'⟩
              simpa [bucket?, InsertionMap.get?_erase, same] using found'
        · exact induction r

section

variable [Payload δ] (now : Time) (r : Registry κ δ)

@[simp] theorem Op.run_cfg (op : Op κ δ) : (op.run now r).cfg = r.cfg := by
  cases op with
  | join args =>
      simp only [run, Registry.join, Registry.joinEnter]
      cases r.m.get? args.id with
      | none => rfl
      | some ref =>
          simp only [Registry.joinAttach]
          split <;> rfl
  | leave id slot =>
      simp only [run, Registry.leave]
      split
      · rfl
      · rename_i ref _
        rcases r.leaveSection_cases now id slot ref with
          ⟨-, same⟩ | ⟨_, _, _, _, _, _, same, _⟩
        · rw [same]
        · exact same
  | bufferIfAlone | drainBuffer => exact r.updateBucket_cfg _ _
  | sweepIdle => exact (r.sweepKeys_frame now _).2

/-- Every bucket after an operation was there before, or has just been
published for its creator. -/
theorem Op.run_bucket (op : Op κ δ) {ref : Ref} {b' : Bucket κ δ}
    (found' : (op.run now r).heap[ref]? = some b') :
    (∃ b, r.heap[ref]? = some b ∧ op.Effect now r ref b b') ∨
      ∃ args, op = .join args ∧ r.m.get? args.id = none ∧
        ref = r.heap.length ∧ b'.id = args.id ∧ b'.lastSeen = now ∧
        b'.peers 0 = some (args.peer now) ∧ b'.peers 1 = none := by
  cases op with
  | join args =>
      simp only [run, Registry.join, Registry.joinEnter] at found'
      cases registered : r.m.get? args.id with
      | none =>
          simp only [registered, Registry.joinCreate, List.getElem?_modify]
            at found'
          by_cases inBounds : ref < r.heap.length
          · have different : ¬ r.heap.length = ref := Nat.ne_of_gt inBounds
            rw [List.getElem?_append_left inBounds] at found'
            simp only [different, if_false, Option.map_eq_map, Option.map_id']
              at found'
            exact .inl ⟨b', found', .kept⟩
          · right
            rw [List.getElem?_append_right (Nat.le_of_not_lt inBounds)] at found'
            obtain ⟨fresh, listed, rfl⟩ := Option.map_eq_some_iff.mp found'
            rw [List.getElem?_singleton] at listed
            split at listed
            · rename_i last
              have sameRef : r.heap.length = ref :=
                Nat.le_antisymm (Nat.le_of_not_lt inBounds)
                  (Nat.sub_eq_zero_iff_le.mp last)
              obtain rfl := Option.some.inj listed
              rw [if_pos sameRef]
              exact ⟨args, rfl, registered, sameRef.symm, rfl, rfl,
                setPeer_peers_self _ _ _, setPeer_peers_of_ne _ _ (by decide)⟩
            · simp at listed
      | some target =>
          left
          simp only [registered, Registry.joinAttach] at found'
          cases targetFound : r.heap[target]? with
          | none =>
              simp only [targetFound] at found'
              exact ⟨b', found', .kept⟩
          | some b =>
              obtain ⟨inBounds, -⟩ := List.getElem?_eq_some_iff.mp targetFound
              simp only [targetFound, Registry.setBucket, List.getElem?_set]
                at found'
              split at found'
              · rename_i same
                subst same
                obtain rfl := by simpa [inBounds] using found'
                exact ⟨b, targetFound, .joined registered⟩
              · exact ⟨b', found', .kept⟩
  | leave id slot =>
      left
      simp only [run, Registry.leave] at found'
      cases registered : r.m.get? id with
      | none =>
          simp only [registered] at found'
          exact ⟨b', found', .kept⟩
      | some target =>
          simp only [registered] at found'
          rcases r.leaveSection_cases now id slot target with
            ⟨-, same⟩ | ⟨b, p, targetFound, occupied, -, heapEq, -, -⟩
          · rw [same] at found'
            exact ⟨b', found', .kept⟩
          · rw [heapEq, List.getElem?_set] at found'
            split at found'
            · rename_i same
              subst same
              split at found'
              · obtain rfl := Option.some.inj found'
                exact ⟨b, targetFound, .left registered occupied⟩
              · simp at found'
            · exact ⟨b', found', .kept⟩
  | bufferIfAlone target fromSlot data binary =>
      left
      rw [run, Registry.updateBucket_heap] at found'
      split at found'
      · obtain ⟨b, found, rfl⟩ := Option.map_eq_some_iff.mp found'
        refine ⟨b, found, ?_⟩
        unfold Bucket.bufferIfAlone
        split_ifs
        · exact .kept
        · exact .buffered
        · exact .buffered
      · exact ⟨b', found', .kept⟩
  | drainBuffer target =>
      left
      rw [run, Registry.updateBucket_heap] at found'
      split at found'
      · obtain ⟨b, found, rfl⟩ := Option.map_eq_some_iff.mp found'
        exact ⟨b, found, .buffered⟩
      · exact ⟨b', found', .kept⟩
  | sweepIdle =>
      left
      rw [run, Registry.sweepIdle, (r.sweepKeys_frame now _).1] at found'
      exact ⟨b', found', .kept⟩

/-- No bucket disappears from the heap. -/
theorem Op.run_kept (op : Op κ δ) {ref : Ref} {b : Bucket κ δ}
    (found : r.heap[ref]? = some b) :
    ∃ b', (op.run now r).heap[ref]? = some b' ∧ op.Effect now r ref b b' := by
  have grows : r.heap.length ≤ (op.run now r).heap.length := by
    cases op with
    | join args =>
        simp only [run, Registry.join, Registry.joinEnter]
        cases r.m.get? args.id with
        | none => simp [Registry.joinCreate]
        | some target =>
            simp only [Registry.joinAttach]
            split <;> simp [Registry.setBucket]
    | leave id slot =>
        simp only [run, Registry.leave]
        split
        · exact le_rfl
        · rename_i target _
          rcases r.leaveSection_cases now id slot target with
            ⟨-, same⟩ | ⟨_, _, _, _, _, heapEq, _, _⟩
          · rw [same]
          · simp [heapEq]
    | bufferIfAlone | drainBuffer =>
        simp only [run, Registry.updateBucket]
        split <;> simp [Registry.setBucket]
    | sweepIdle => exact ((r.sweepKeys_frame now _).1 ▸ le_rfl)
  obtain ⟨inBounds, -⟩ := List.getElem?_eq_some_iff.mp found
  have found' := List.getElem?_eq_getElem (inBounds.trans_le grows)
  refine ⟨_, found', ?_⟩
  rcases op.run_bucket now r found' with ⟨b₁, found₁, effect⟩ | published
  · obtain rfl := Option.some.inj (found.symm.trans found₁)
    exact effect
  · obtain ⟨_, _, _, last, _⟩ := published
    exact absurd last (Nat.ne_of_lt inBounds)

end

/-- Frames of a small room. -/
instance : Payload String where
  len := String.length

end Byteln.Server

import Byteln.Client.IncomingSteps

/-!
# Payloads that arrive corrupted

A payload that fails its check is asked for again, and given up when the
counter of the failures gets past two.  Stall detection uses the same counter:
every chunk that arrives sets it back, and a payload is complete only after a
chunk has arrived.
-/

namespace Byteln.Client

open Byteln.Library

namespace Engine

variable {s s' : Engine} {env : Env}

/-! ## The counter of a complete payload -/

/-- The counter of a payload that is being checked is at zero. -/
def Uncounted (s : Engine) : Prop :=
  ∀ i ∈ s.incoming, i.completing = true → i.attempts = 0

/-- Only a transfer that is not being completed counts attempts, and a chunk
sets the counter back before the payload can be complete. -/
theorem uncounted_rule :
    Incoming.Rule (fun _ => True)
      fun i => i.completing = true → i.attempts = 0 where
  calm := by
    intro i i' zero calm completing
    rw [calm.completing] at completing
    exact (calm.attempts completing).trans (zero completing)
  cleared := by
    intro i i' _ cleared completing
    rw [cleared.completing] at completing
    cases completing
  opened := fun _ _ _ _ => rfl
  filled := fun _ _ _ _ _ _ filled _ => filled.attempts

theorem Uncounted.found (uncounted : s.Uncounted) {ref : Ref} {i : Incoming}
    (found : s.incoming[ref]? = some i) :
    i.completing = true → i.attempts = 0 :=
  AllIn.found uncounted found

/-- Every section keeps the counter of a payload that is being checked at
zero. -/
theorem Uncounted.step {sha256 : Bytes → JSString} {event : Event}
    (uncounted : s.Uncounted)
    (stepped : s.step sha256 env event = some s') : s'.Uncounted :=
  AllIn.step uncounted_rule uncounted (fun _ _ _ => trivial) stepped

theorem uncounted_of_reachable {sha256 : Bytes → JSString}
    {limits : TransferLimits} {checksStorage : Bool}
    (reachable : (Engine.system sha256 limits checksStorage).Reachable s) :
    s.Uncounted := by
  refine reachable.invariant Engine.Uncounted ?_ ?_
  · rintro s rfl i member
    cases member
  · intro s label s' uncounted stepped
    exact uncounted.step stepped

/-! ## Failed checks -/

/-- The incoming transfer whose payload fails its check in a section. -/
def fails (sha256 : Bytes → JSString) (s : Engine) (event : Event) :
    Option Ref :=
  match event.task s with
  | some (.hashData ref data offset) =>
      match s.incoming[ref]? with
      | none => none
      | some i =>
          if s.isLiveIn ref i ∧
              (offset ≠ i.header.size ∨ sha256 data ≠ i.header.sha256) then
            some ref
          else none
  | _ => none

/-- A payload that is being checked belongs to a transfer that is marked. -/
theorem Sound.completing_of_hashData (sound : s.Sound) {ref : Ref}
    {data : Bytes} {offset : Nat} {i : Incoming}
    (checks : .hashData ref data offset ∈ s.suspended)
    (found : s.incoming[ref]? = some i) : i.completing = true := by
  have bound := sound.completing ref
  have counted : 0 < s.suspended.countP (Suspended.completes ref) := by
    rw [List.countP_pos_iff]
    exact ⟨_, checks, by simp [Suspended.completes]⟩
  rw [found] at bound
  cases completing : i.completing with
  | true => rfl
  | false =>
      simp only [Option.any_some, completing, Bool.false_eq_true, if_false]
        at bound
      omega

/-- A payload that fails its check is asked for again, however often it has
failed before. -/
theorem fails_again {sha256 : Bytes → JSString} {event : Event} {ref : Ref}
    (sound : s.Sound) (uncounted : s.Uncounted)
    (failed : fails sha256 s event = some ref)
    (stepped : s.step sha256 env event = some s') :
    ∃ i, s.incoming[ref]? = some i ∧
      s'.inc.find i.bucketId i.id = some ref ∧
      s'.log.drop s.log.length =
        [.send i.bucketId (.xferAck
          { ts := env.now, id := i.id,
            haves := Incoming.haves
              { i with parts := i.parts.map fun _ => none },
            resend := true, done := false }),
          .publish i.bucketId (s'.list i.bucketId)] := by
  unfold fails at failed
  split at failed
  · rename_i ref' data offset task
    split at failed
    · cases failed
    · rename_i i found
      split at failed
      · rename_i rejected
        obtain rfl := Option.some.inj failed
        obtain ⟨live, mismatch⟩ := rejected
        cases event with
        | settle pos ok =>
            have waiting : s.suspended[pos]? =
              some (.hashData ref' data offset) := task
            have completing := sound.completing_of_hashData
              (List.mem_of_getElem? waiting) found
            have zero := uncounted.found found completing
            simp only [step, waiting, Option.map_some, Option.some.injEq]
              at stepped
            have same : (s.unsuspend pos).incoming = s.incoming := rfl
            have alive : (s.unsuspend pos).isLiveIn ref' i = true := live
            have few : ¬ i.attempts + 1 > 2 := by omega
            simp only [settle, hashed, same, found, alive, not_true_eq_false,
              if_false, mismatch, if_true, few] at stepped
            subst stepped
            refine ⟨i, found, ?_, ?_⟩
            · exact of_decide_eq_true live
            · simp only [sendAck, sendCtl, record, publish, Engine.setIn,
                unsuspend, List.append_assoc, List.drop_left,
                List.singleton_append]
              rfl
        | _ => cases task
      · cases failed
  · cases failed

/-! ## Runs -/

abbrev EngineTrace := List (Engine × (Event × Env))

/-- How often the payload of an incoming transfer has failed its check. -/
def failures (sha256 : Bytes → JSString) (ref : Ref) (trace : EngineTrace) :
    Nat :=
  trace.countP fun entry => fails sha256 entry.1 entry.2.1 = some ref

/-- At the third failure the transfer is removed and the peer is told. -/
def GivesUp (sha256 : Bytes → JSString) (trace : EngineTrace) : Prop :=
  ∀ earlier s event env later,
    trace = earlier ++ (s, (event, env)) :: later →
    ∀ ref i s', fails sha256 s event = some ref →
      failures sha256 ref earlier = 2 → s.incoming[ref]? = some i →
      s.step sha256 env event = some s' →
        s'.inc.find i.bucketId i.id = none ∧
          ∃ ts, .send i.bucketId (.xferCancel
            { ts := ts, id := i.id, reason := some (js "corrupt") }) ∈
              s'.log.drop s.log.length

/-- A list with more than `n` elements that pass a test has one after the
first `n` of them. -/
theorem exists_after_countP {α : Type} {test : α → Bool} {l : List α}
    {n : Nat} (more : n < l.countP test) :
    ∃ before a after, l = before ++ a :: after ∧
      before.countP test = n ∧ test a = true := by
  induction l generalizing n with
  | nil => simp at more
  | cons a l induction =>
      cases passes : test a with
      | false =>
          rw [List.countP_cons_of_neg (by simp [passes])] at more
          obtain ⟨before, b, after, rfl, count, found⟩ := induction more
          refine ⟨a :: before, b, after, rfl, ?_, found⟩
          rw [List.countP_cons_of_neg (by simp [passes]), count]
      | true =>
          cases n with
          | zero => exact ⟨[], a, l, rfl, rfl, passes⟩
          | succ n =>
              rw [List.countP_cons_of_pos passes] at more
              obtain ⟨before, b, after, rfl, count, found⟩ :=
                induction (Nat.lt_of_succ_lt_succ more)
              refine ⟨a :: before, b, after, rfl, ?_, found⟩
              rw [List.countP_cons_of_pos passes, count]

/-- A corrupted payload is given up at its third failure only where there is
no third failure. -/
theorem gives_up_iff {sha256 : Bytes → JSString} {limits : TransferLimits}
    {checksStorage : Bool} {trace : EngineTrace}
    (run : (Engine.system sha256 limits checksStorage).Run
      (.new limits checksStorage) trace s) :
    GivesUp sha256 trace ↔ ∀ ref, failures sha256 ref trace ≤ 2 := by
  have initial : (Engine.system sha256 limits checksStorage).Reachable
      (.new limits checksStorage) := .start rfl
  constructor
  · intro givesUp ref
    by_contra more
    obtain ⟨earlier, ⟨before, event, env⟩, later, rfl, count, failed⟩ :=
      exists_after_countP (Nat.lt_of_not_le more)
    have failed := of_decide_eq_true failed
    obtain ⟨after, stepped⟩ := run.taken
      (List.mem_append_right _ List.mem_cons_self)
    have reached := initial.run run.before
    obtain ⟨i, found, listed, -⟩ := fails_again (sound_of_reachable reached)
      (uncounted_of_reachable reached) failed stepped
    obtain ⟨removed, -⟩ := givesUp earlier before event env later rfl ref i
      after failed count found stepped
    rw [listed] at removed
    cases removed
  · rintro few earlier before event env later rfl ref i after failed count - -
    have total := few ref
    unfold failures at total count
    rw [List.countP_append, count,
      List.countP_cons_of_pos (by simpa using failed)] at total
    omega

/-- The only chunk of a payload of one byte, with a wrong hash. -/
def corruptChunk : TransferChunkPlainMessage Time where
  id := [0x61]
  index := 0
  total := 1
  header :=
    { kind := .file, ts := 0, mime := js "text/plain", size := 1,
      sha256 := [0x78], name := some [0x61], w := none, h := none,
      replyTo := none }
  data := [7]

/-- Everything can be sent, and no message is stored. -/
def openEnv : Env := ⟨0, fun _ => true, fun _ _ => false⟩

abbrev chunkArrives : Event × Env := (.handleChunk [] corruptChunk, openEnv)

abbrev hashComputed : Event × Env := (.settle 0 true, openEnv)

/-- The engine waits for the chunk of the payload. -/
structure AwaitsChunk (s : Engine) : Prop where
  listed : s.inc.find [] [0x61] = some 0
  suspended : s.suspended = []
  incoming : ∃ i, s.incoming[0]? = some i ∧ i.bucketId = [] ∧
    i.id = [0x61] ∧ i.header = corruptChunk.header ∧ i.total = 1 ∧
    i.parts = [none] ∧ i.received = 0 ∧ i.completing = false

/-- The chunk arrives, and the payload fails its check once more. -/
theorem AwaitsChunk.again (awaits : s.AwaitsChunk) :
    ∃ s₁ s₂, s.step (fun _ => []) openEnv chunkArrives.1 = some s₁ ∧
      s₁.step (fun _ => []) openEnv hashComputed.1 = some s₂ ∧
      fails (fun _ => []) s₁ hashComputed.1 = some 0 ∧
      (∃ i, s₁.incoming[0]? = some i ∧ i.bucketId = [] ∧ i.id = [0x61]) ∧
      s₂.AwaitsChunk := by
  obtain ⟨listed, suspended, i, found, bucketId, id, header, total, parts,
    received, completing⟩ := awaits
  have foundIn : s.findIn [] corruptChunk.id = some (0, i) :=
    findIn_eq_some_iff.mpr ⟨listed, found⟩
  let checked : Incoming := { i with
    parts := [some [7]], received := 1, sinceAck := i.sinceAck + 1,
    attempts := 0, status := .active, detail := none, lastActivityAt := 0,
    completing := true }
  have same : sameHeader i.header corruptChunk.header = true := by
    rw [header]
    simp [sameHeader]
  have empty : (i.parts[corruptChunk.index]?.join).isSome = false := by
    rw [parts]
    rfl
  have whole : i.received + 1 = i.total := by rw [received, total]
  have filled : setPart i.parts corruptChunk.index corruptChunk.data =
      [some [7]] := by
    rw [parts]
    rfl
  have assembled : assemble i.header.size [some [7]] [] = .filled [7] 1 := by
    rw [header]
    rfl
  have arrives : s.handleChunk openEnv [] corruptChunk =
      (s.setIn 0 checked).suspend (.hashData 0 [7] 1) := by
    have complete : ¬ (i.total ≠ corruptChunk.total) := by
      rw [total]
      exact fun different => different rfl
    simp only [handleChunk, foundIn, same, not_true_eq_false, complete,
      or_self, if_false, fill, completing, empty, Bool.false_eq_true, whole,
      if_true, filled, Engine.complete, assembled]
    simp [checked, ← whole, received, openEnv]
  let s₁ := (s.setIn 0 checked).suspend (.hashData 0 [7] 1)
  have waiting : s₁.suspended[0]? = some (.hashData 0 [7] 1) := by
    simp [s₁, suspend, Engine.setIn, suspended]
  have found₁ : s₁.incoming[0]? = some checked := by
    obtain ⟨inBounds, -⟩ := List.getElem?_eq_some_iff.mp found
    simp [s₁, suspend, Engine.setIn, inBounds]
  have live : s₁.isLiveIn 0 checked = true := by
    simp [isLiveIn, s₁, suspend, Engine.setIn, checked, bucketId, id, listed]
  have mismatch : (1 : Nat) ≠ checked.header.size ∨
      ([] : JSString) ≠ checked.header.sha256 := by
    right
    simp [checked, header, corruptChunk]
  have failed : fails (fun _ => []) s₁ hashComputed.1 = some 0 := by
    have task : hashComputed.1.task s₁ = some (.hashData 0 [7] 1) := waiting
    simp only [fails, task, found₁, live, mismatch, and_self, if_true]
  let again : Incoming := { checked with
    attempts := 1, parts := [none], received := 0, sinceAck := 0,
    completing := false }
  let s₂ := (((s₁.unsuspend 0).setIn 0 again).sendAck openEnv again true
    false).publish i.bucketId
  have computed : (s₁.unsuspend 0).hashed openEnv 0 [7] 1 [] = s₂ := by
    have found₂ : (s₁.unsuspend 0).incoming[0]? = some checked := found₁
    have live₂ : (s₁.unsuspend 0).isLiveIn 0 checked = true := live
    simp only [hashed, found₂, live₂, not_true_eq_false, if_false, mismatch,
      if_true]
    rfl
  refine ⟨s₁, s₂, congrArg some arrives, ?_, failed,
    ⟨checked, found₁, bucketId, id⟩, ?_⟩
  · have stepped : s₁.step (fun _ => []) openEnv hashComputed.1 =
        some ((s₁.unsuspend 0).hashed openEnv 0 [7] 1 []) := by
      simp only [step, waiting, Option.map_some]
      rfl
    rw [stepped, computed]
  · have inBounds : 0 < s₁.incoming.length :=
      (List.getElem?_eq_some_iff.mp found₁).1
    refine ⟨listed, ?_, again, ?_, bucketId, id, header, total, rfl, rfl, rfl⟩
    · simp [s₁, s₂, publish, sendAck, sendCtl, record, Engine.setIn,
        unsuspend, suspend, suspended]
    · simp [s₂, publish, sendAck, sendCtl, record, Engine.setIn, unsuspend,
        inBounds]

/-- The trace of a payload that is complete and checked. -/
abbrev roundTrace (s s₁ : Engine) : EngineTrace :=
  [(s, chunkArrives), (s₁, hashComputed)]

private theorem failures_round {s s₁ : Engine} {trace : EngineTrace}
    (failed : fails (fun _ => []) s₁ hashComputed.1 = some 0) :
    failures (fun _ => []) 0 (roundTrace s s₁ ++ trace) =
      failures (fun _ => []) 0 trace + 1 := by
  have quiet : fails (fun _ => []) s chunkArrives.1 = none := rfl
  unfold failures
  rw [List.cons_append, List.countP_cons_of_neg (by simp [quiet]),
    List.cons_append, List.countP_cons_of_pos (by simp [failed]),
    List.nil_append]

private theorem run_round {s s₁ s₂ last : Engine} {trace : EngineTrace}
    (arrives : s.step (fun _ => []) openEnv chunkArrives.1 = some s₁)
    (computed : s₁.step (fun _ => []) openEnv hashComputed.1 = some s₂)
    (run : (Engine.system (fun _ => []) DEFAULT_TRANSFER_LIMITS false).Run s₂
      trace last) :
    (Engine.system (fun _ => []) DEFAULT_TRANSFER_LIMITS false).Run s
      (roundTrace s s₁ ++ trace) last :=
  .cons arrives (.cons computed run)

/-- The first time the payload fails its check. -/
private theorem first_round :
    ∃ s₁ s₂, (Engine.new DEFAULT_TRANSFER_LIMITS false).step (fun _ => [])
        openEnv chunkArrives.1 = some s₁ ∧
      s₁.step (fun _ => []) openEnv hashComputed.1 = some s₂ ∧
      fails (fun _ => []) s₁ hashComputed.1 = some 0 ∧ s₂.AwaitsChunk :=
  ⟨_, _, rfl, rfl, rfl, rfl, rfl, _, rfl, rfl, rfl, rfl, rfl, rfl, rfl, rfl⟩

/-- A payload that fails its check once is not given up. -/
theorem gives_up_one :
    ∃ trace s, (Engine.system (fun _ => []) DEFAULT_TRANSFER_LIMITS
        false).Run (.new DEFAULT_TRANSFER_LIMITS false) trace s ∧
      failures (fun _ => []) 0 trace = 1 ∧ GivesUp (fun _ => []) trace := by
  obtain ⟨s₁, s₂, arrives, computed, failed, -⟩ := first_round
  have run := run_round arrives computed (.refl s₂)
  refine ⟨_, s₂, run, failures_round failed, (gives_up_iff run).mpr ?_⟩
  intro ref
  exact List.countP_le_length

/-- The payload fails its check for the fourth time. -/
theorem fourth_failure :
    ∃ trace s, (Engine.system (fun _ => []) DEFAULT_TRANSFER_LIMITS
        false).Run (.new DEFAULT_TRANSFER_LIMITS false) trace s ∧
      failures (fun _ => []) 0 trace = 4 ∧
      s.inc.find [] [0x61] = some 0 ∧ ¬ GivesUp (fun _ => []) trace := by
  obtain ⟨s₁, s₂, arrives₁, computed₁, failed₁, awaits₂⟩ := first_round
  obtain ⟨s₃, s₄, arrives₃, computed₃, failed₃, -, awaits₄⟩ := awaits₂.again
  obtain ⟨s₅, s₆, arrives₅, computed₅, failed₅, ⟨i, found, bucketId, id⟩,
    awaits₆⟩ := awaits₄.again
  obtain ⟨s₇, s₈, arrives₇, computed₇, failed₇, -, awaits₈⟩ := awaits₆.again
  have run := run_round arrives₁ computed₁ (run_round arrives₃ computed₃
    (run_round arrives₅ computed₅ (run_round arrives₇ computed₇ (.refl s₈))))
  refine ⟨_, s₈, run, ?_, awaits₈.listed, ?_⟩
  · rw [failures_round failed₁, failures_round failed₃,
      failures_round failed₅, failures_round failed₇]
    rfl
  · intro givesUp
    have two : failures (fun _ => []) 0 (roundTrace
        (.new DEFAULT_TRANSFER_LIMITS false) s₁ ++ (roundTrace s₂ s₃ ++
          [(s₄, chunkArrives)])) = 2 := by
      rw [failures_round failed₁, failures_round failed₃]
      rfl
    obtain ⟨removed, -⟩ := givesUp _ s₅ _ _ (roundTrace s₆ s₇) rfl 0 i s₆
      failed₅ two found computed₅
    rw [bucketId, id, awaits₆.listed] at removed
    cases removed

end Engine

end Byteln.Client

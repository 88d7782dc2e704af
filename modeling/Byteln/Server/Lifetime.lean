import Byteln.Server.Allocation
import Byteln.Server.Forwarding

/-!
# What a bucket relays in its lifetime

A reader adds a frame to the counter of its bucket before it looks at the cap,
in one section under the bucket's mutex.  What readers have counted but not
yet relayed is therefore known from their activations: together with what was
relayed it stays below the counter, and below the cap.
-/

namespace Byteln.Server

open Byteln.Library

/-! ## The counter -/

namespace Registry

variable {κ δ : Type} {r : Registry κ δ} {target : Ref}

/-- The counter of the bucket behind a reference. -/
def bytesRelayed (r : Registry κ δ) (ref : Ref) : Int :=
  ((r.heap[ref]?).map Bucket.bytesRelayed).getD 0

theorem bytesRelayed_of_found {ref : Ref} {b : Bucket κ δ}
    (found : r.heap[ref]? = some b) : r.bytesRelayed ref = b.bytesRelayed := by
  simp [bytesRelayed, found]

theorem bytesRelayed_setBucket {b : Bucket κ δ} (b' : Bucket κ δ)
    (found : r.heap[target]? = some b) (ref : Ref) :
    (r.setBucket target b').bytesRelayed ref =
      if target = ref then b'.bytesRelayed else r.bytesRelayed ref := by
  unfold bytesRelayed setBucket
  rw [List.getElem?_set]
  split
  · rename_i hit
    subst hit
    obtain ⟨inBounds, -⟩ := List.getElem?_eq_some_iff.mp found
    rw [if_pos inBounds]
    rfl
  · rfl

/-- A section that leaves the counter of its bucket alone. -/
theorem bytesRelayed_kept {b b' : Bucket κ δ}
    (found : r.heap[target]? = some b)
    (same : b'.bytesRelayed = b.bytesRelayed) (ref : Ref) :
    (r.setBucket target b').bytesRelayed ref = r.bytesRelayed ref := by
  rw [bytesRelayed_setBucket b' found]
  split
  · rename_i hit
    subst hit
    rw [same, bytesRelayed_of_found found]
  · rfl

theorem bytesRelayed_joinEnter (r : Registry κ δ) (now : Time)
    (args : JoinArgs κ) (ref : Ref) :
    (r.joinEnter now args).1.bytesRelayed ref = r.bytesRelayed ref := by
  unfold joinEnter
  cases r.m.get? args.id with
  | some _ => rfl
  | none =>
      unfold bytesRelayed
      dsimp only
      by_cases inBounds : ref < r.heap.length
      · rw [List.getElem?_append_left inBounds]
      · have above := Nat.le_of_not_lt inBounds
        rw [List.getElem?_append_right above, List.getElem?_eq_none above,
          List.getElem?_singleton]
        split <;> rfl

theorem bytesRelayed_joinCreate (r : Registry κ δ) (now : Time)
    (args : JoinArgs κ) (target ref : Ref) :
    (r.joinCreate now args target).1.bytesRelayed ref = r.bytesRelayed ref := by
  have kept : ∀ b : Bucket κ δ,
      (if target = ref then b.setPeer 0 (some (args.peer now))
        else b).bytesRelayed = b.bytesRelayed := by
    intro b
    split <;> rfl
  unfold bytesRelayed
  simp only [joinCreate, List.getElem?_modify, Option.map_eq_map,
    Option.map_map, Function.comp_def, kept]

theorem bytesRelayed_joinAttach (r : Registry κ δ) (now : Time)
    (args : JoinArgs κ) (target ref : Ref) :
    (r.joinAttach now args target).1.bytesRelayed ref = r.bytesRelayed ref := by
  unfold joinAttach
  cases found : r.heap[target]? with
  | none => rfl
  | some b =>
      obtain ⟨peers, joined⟩ := join_frame r.cfg now args b
      exact bytesRelayed_kept found (by rw [joined]) ref

theorem bytesRelayed_leaveSection (r : Registry κ δ) (now : Time) (id : String)
    (slot : Slot) (target ref : Ref) :
    (r.leaveSection now id slot target).1.bytesRelayed ref =
      r.bytesRelayed ref := by
  rcases r.leaveSection_cases now id slot target with
    ⟨-, same⟩ | ⟨b, p, found, -, -, heap, -, -⟩
  · rw [same]
  · have left : (b.markLeft slot p now).bytesRelayed = b.bytesRelayed := rfl
    have kept := bytesRelayed_kept found left ref
    unfold bytesRelayed at kept ⊢
    rw [heap]
    exact kept

end Registry

namespace Relay

/-- The counter of a bucket of the relay. -/
def State.bytesRelayed (s : State) (ref : Ref) : Int :=
  s.calls.reg.bytesRelayed ref

/-- Registry calls leave all counters alone. -/
theorem CallStep.bytesRelayed {oracle : Server.Oracle}
    {call call' : Call PeerRef} {shared shared' : Shared PeerRef Frame}
    (step : CallStep oracle shared call shared' call')
    (noPublish : ∀ args, call ≠ .join (.enter args)) (ref : Ref) :
    shared'.reg.bytesRelayed ref = shared.reg.bytesRelayed ref := by
  cases step with
  | joinFound | leaveMissing | leaveFound | sweepEnter | sweepEnd
  | sweepKeep | sweepCondemn | sweepDelete => rfl
  | joinPublish => exact absurd rfl (noPublish _)
  | joinCreate => exact Registry.bytesRelayed_joinCreate _ _ _ _ ref
  | joinAttach => exact Registry.bytesRelayed_joinAttach _ _ _ _ ref
  | leaveMark => exact Registry.bytesRelayed_leaveSection _ _ _ _ _ ref

theorem JoinCall.enter_bytesRelayed {oracle : Server.Oracle}
    {args : JoinArgs PeerRef} {call : JoinCall PeerRef}
    {shared shared' : Shared PeerRef Frame}
    (next : (JoinCall.enter args).next oracle shared = some (shared', call))
    (ref : Ref) :
    shared'.reg.bytesRelayed ref = shared.reg.bytesRelayed ref := by
  simp only [JoinCall.next] at next
  split at next
  · cases next
  · simp only [Option.some.injEq, Prod.mk.injEq] at next
    rw [← next.1]
    exact shared.reg.bytesRelayed_joinEnter oracle.now args ref

section Step

variable {oracle : Oracle} {s s' : State} {act : Act} {acts : List Act}

/-- A join begins by finding or publishing its bucket. -/
theorem HandleConn.enter_bytesRelayed {req : Request} {existed : Bool}
    {p : PeerRef} {args : JoinArgs PeerRef}
    (next : (HandleConn.join req existed p (.enter args)).next oracle s =
      some (s', acts)) (ref : Ref) :
    s'.bytesRelayed ref = s.bytesRelayed ref := by
  simp only [HandleConn.next] at next
  split at next
  · cases next
  · rename_i calls args' result taken
    have kept := JoinCall.enter_bytesRelayed taken ref
    split at next <;> cases next <;> exact kept
  · rename_i calls call _ taken
    cases next
    exact JoinCall.enter_bytesRelayed taken ref

/-- Only a record moves the counter of a bucket. -/
theorem Act.next_bytesRelayed (next : act.next oracle s = some (s', acts))
    (ref : Ref)
    (noRecord : ∀ p data binary now,
      act ≠ .readPeer (.record p ref data binary now)) :
    s'.bytesRelayed ref = s.bytesRelayed ref := by
  cases act.next_registry next with
  | @call call call' found step _ =>
      by_cases publishes : ∃ args, call = .join (.enter args)
      · obtain ⟨args, rfl⟩ := publishes
        unfold Act.call? at found
        split at found <;> simp only [Option.some.injEq, reduceCtorEq] at found
        rename_i req existed p inner
        obtain rfl := Call.join.inj found
        exact HandleConn.enter_bytesRelayed next ref
      · exact CallStep.bytesRelayed step
          (fun args same => publishes ⟨args, same⟩) ref
  | @poke target b b' found poke calls =>
      unfold State.bytesRelayed
      rw [calls]
      cases poke with
      | touch | drain =>
          apply Registry.bytesRelayed_kept found
          rfl
      | buffer =>
          apply Registry.bytesRelayed_kept found
          unfold Bucket.bufferIfAlone
          split_ifs <;> rfl
      | record =>
          show (s.calls.reg.setBucket target _).bytesRelayed ref = _
          rw [Registry.bytesRelayed_setBucket _ found, if_neg]
          rintro rfl
          exact noRecord _ _ _ _ rfl
  | quiet _ calls =>
      unfold State.bytesRelayed
      rw [calls]

/-! ## What is counted and not yet relayed -/

/-- The bytes of a frame that a reader has counted for a bucket. -/
def Act.counted (ref : Ref) : Act → Nat
  | .readPeer (.age _ b data _ _) | .readPeer (.bufferIfAlone _ b data _)
  | .readPeer (.otherConn _ b data _) => if b = ref then data.length else 0
  | _ => 0

def allCounted (ref : Ref) (acts : List Act) : Nat :=
  (acts.map (Act.counted ref)).sum

/-- The bytes that a step buffers in a bucket, or forwards from it. -/
def Act.relayed (oracle : Oracle) (s : State) (ref : Ref) : Act → Nat
  | .readPeer (.bufferIfAlone p b data binary) =>
      match s.bucket? b with
      | none => 0
      | some bucket =>
          if b = ref ∧ (bucket.bufferIfAlone s.calls.reg.cfg oracle.now
              (s.peers p).slotIndex (⟨data, p⟩ : Frame) binary).2 then
            data.length
          else 0
  | .readPeer (.otherConn p b data _) =>
      match s.bucket? b with
      | none => 0
      | some bucket =>
          if b = ref ∧ (bucket.otherConn (s.peers p).slotIndex).isSome then
            data.length
          else 0
  | _ => 0

@[simp] theorem allCounted_nil (ref : Ref) : allCounted ref [] = 0 :=
  rfl

@[simp] theorem allCounted_cons (ref : Ref) (act : Act) (acts : List Act) :
    allCounted ref (act :: acts) = act.counted ref + allCounted ref acts := by
  simp [allCounted]

@[simp] theorem allCounted_append (ref : Ref) (acts acts' : List Act) :
    allCounted ref (acts ++ acts') =
      allCounted ref acts + allCounted ref acts' := by
  simp [allCounted]

theorem allCounted_eq_zero {ref : Ref} {acts : List Act}
    (none : ∀ act ∈ acts, act.counted ref = 0) : allCounted ref acts = 0 := by
  apply List.sum_eq_zero
  intro n member
  obtain ⟨act, known, rfl⟩ := List.mem_map.mp member
  exact none act known

/-- What a reader relays or has yet to relay of a counted frame is that
frame. -/
theorem ReadPeer.next_counted {call : ReadPeer}
    (next : call.next oracle s = some (s', acts)) (ref : Ref)
    (noRecord : ∀ p data binary now, call ≠ .record p ref data binary now) :
    (Act.readPeer call).relayed oracle s ref + allCounted ref acts ≤
      (Act.readPeer call).counted ref := by
  cases call with
  | record p b data binary now =>
      have other : b ≠ ref := by
        rintro rfl
        exact noRecord p data binary now rfl
      have nothing : ∀ act ∈ acts, act.counted ref = 0 := by
        simp only [ReadPeer.next] at next
        split at next
        · split at next
          · cases next
          · split at next <;> cases next <;>
              simp [closeBucketPeers, Act.counted, other]
        · cases next
          simp [Act.counted, other]
      exact (Nat.zero_add _).trans_le (allCounted_eq_zero nothing).le
  | age p b data binary now =>
      simp only [ReadPeer.next] at next
      split at next
      · cases next
      · split at next <;> cases next <;>
          simp [closeBucketPeers, Act.counted, Act.relayed]
  | bufferIfAlone p b data binary =>
      simp only [ReadPeer.next] at next
      split at next
      · cases next
      · rename_i bucket found
        simp only [Option.some.injEq, Prod.mk.injEq] at next
        obtain ⟨-, rfl⟩ := next
        simp only [Act.relayed, found]
        split <;> by_cases buffered : (bucket.bufferIfAlone s.calls.reg.cfg
          oracle.now (s.peers p).slotIndex (⟨data, p⟩ : Frame) binary).2 <;>
          simp_all [Act.counted]
  | otherConn p b data binary =>
      simp only [ReadPeer.next] at next
      split at next
      · cases next
      · rename_i bucket found
        simp only [Option.some.injEq, Prod.mk.injEq] at next
        obtain ⟨-, rfl⟩ := next
        simp only [Act.relayed, found]
        cases bucket.otherConn (s.peers p).slotIndex with
        | none => simp [Act.counted]
        | some other => simp [Act.counted]
  | enter p | loop p | idle p =>
      cases next
      apply (Nat.zero_add _).trans_le
      split <;> simp [Act.counted]
  | again p | clear p | done p =>
      cases next
      simp [Act.counted, Act.relayed]
  | swap p =>
      simp only [ReadPeer.next] at next
      split at next <;> cases next <;> simp [Act.counted, Act.relayed]
  | readFrame p =>
      simp only [ReadPeer.next] at next
      split at next <;> cases next <;> simp [Act.counted, Act.relayed]
  | ping p answer =>
      simp only [ReadPeer.next] at next
      split at next
      · cases next
      · cases next
        cases s.calls.reg.get (s.peers p).bucket <;>
          simp [Act.counted, Act.relayed]
  | handle p data binary =>
      simp only [ReadPeer.next] at next
      split_ifs at next <;> cases next <;> simp [Act.counted, Act.relayed]
  | get p data binary now =>
      simp only [ReadPeer.next] at next
      split at next
      · cases next
      · split at next <;> cases next <;> simp [Act.counted, Act.relayed]

theorem refuse_counted (req : Request) (existed : Bool) (ref : Ref) :
    ∀ act ∈ refuse req existed, act.counted ref = 0 := by
  cases existed <;> simp [refuse, Act.counted]

theorem HandleConn.next_counted {call : HandleConn}
    (next : call.next oracle s = some (s', acts)) (ref : Ref) :
    ∀ act ∈ acts, act.counted ref = 0 := by
  cases call <;> grind [HandleConn.next, Act.counted, refuse_counted]

theorem DropPeer.next_counted {call : DropPeer}
    (next : call.next oracle s = some (s', acts)) (ref : Ref) :
    ∀ act ∈ acts, act.counted ref = 0 := by
  cases call <;> grind [DropPeer.next, afterLeave, Act.counted]

theorem WriteLoop.next_counted {call : WriteLoop}
    (next : call.next oracle s = some (s', acts)) (ref : Ref) :
    ∀ act ∈ acts, act.counted ref = 0 := by
  cases call <;> grind [WriteLoop.next, Act.counted]

/-- What is relayed or left to be relayed has been counted before. -/
theorem Act.next_counted (next : act.next oracle s = some (s', acts))
    (ref : Ref)
    (noRecord : ∀ p data binary now,
      act ≠ .readPeer (.record p ref data binary now)) :
    act.relayed oracle s ref + allCounted ref acts ≤ act.counted ref := by
  cases act with
  | readPeer call =>
      apply call.next_counted next
      rintro p data binary now rfl
      exact noRecord p data binary now rfl
  | handleConn call =>
      have none := allCounted_eq_zero (call.next_counted next ref)
      exact (Nat.zero_add _).trans_le none.le
  | dropPeer call =>
      have none := allCounted_eq_zero (call.next_counted next ref)
      exact (Nat.zero_add _).trans_le none.le
  | writeLoop call =>
      have none := allCounted_eq_zero (call.next_counted next ref)
      exact (Nat.zero_add _).trans_le none.le
  | shutdown =>
      cases next
      apply (Nat.zero_add _).trans_le (allCounted_eq_zero _).le
      simp [Act.counted, or_imp, forall_and]
  | sweep call =>
      apply (Nat.zero_add _).trans_le (allCounted_eq_zero _).le
      simp only [Act.next] at next
      split at next
      · cases next
      · cases next
        simp [Act.counted]
      · cases next
        simp [Act.counted]
  | event | closePoller | stopPoller | releaseBucket | touch
  | notifyPeerPresence | notifySeat | closeSeat | enqueue | send
  | ensureWriter =>
      apply (Nat.zero_add _).trans_le (allCounted_eq_zero _).le
      grind [Act.next, Act.counted]

theorem Act.forks_counted (oracle : Oracle) (act : Act) (s : State)
    (ref : Ref) : allCounted ref (act.forks oracle s) = 0 := by
  apply allCounted_eq_zero
  intro started member
  rcases Act.forks_cases member with ⟨p, rfl⟩ | ⟨p, rfl⟩ | ⟨p, rfl⟩ <;> rfl

/-- A record counts its frame, and lets it through if the total is within the
cap. -/
theorem ReadPeer.record_counted {p : PeerRef} {ref : Ref} {data : List UInt8}
    {binary : Bool} {now : Time} (capped : 0 < s.cfg.maxBucketLifetimeBytes)
    (next : (ReadPeer.record p ref data binary now).next oracle s =
      some (s', acts)) :
    s'.bytesRelayed ref = s.bytesRelayed ref + data.length ∧
      (allCounted ref acts = 0 ∨
        allCounted ref acts = data.length ∧
          s'.bytesRelayed ref ≤ s.cfg.maxBucketLifetimeBytes) := by
  simp only [ReadPeer.next] at next
  rw [if_pos capped] at next
  split at next
  · cases next
  · rename_i bucket found
    simp only [Option.some.injEq, Prod.mk.injEq] at next
    obtain ⟨rfl, rfl⟩ := next
    have before : s.bytesRelayed ref = bucket.bytesRelayed :=
      Registry.bytesRelayed_of_found found
    have after : (s.setBucket ref
        (bucket.recordBytes data.length).1).bytesRelayed ref =
          bucket.bytesRelayed + data.length := by
      have set := Registry.bytesRelayed_setBucket
        (bucket.recordBytes data.length).1 found ref
      rw [if_pos rfl] at set
      exact set
    rw [after, before]
    refine ⟨rfl, ?_⟩
    split
    · left
      simp [closeBucketPeers, Act.counted]
    · rename_i within
      right
      exact ⟨by simp [Act.counted], not_lt.mp within⟩

theorem Act.next_cfg (next : act.next oracle s = some (s', acts)) :
    s'.cfg = s.cfg := by
  cases act with
  | handleConn call =>
      cases call <;> grind [Act.next, HandleConn.next, State.modifyPeer,
        State.setBucket]
  | dropPeer call =>
      cases call <;> grind [Act.next, DropPeer.next, State.modifyPeer]
  | readPeer call =>
      cases call <;> grind [Act.next, ReadPeer.next, State.modifyPeer,
        State.setBucket]
  | writeLoop call =>
      cases call <;> grind [Act.next, WriteLoop.next, State.modifyPeer]
  | _ => grind [Act.next, State.modifyPeer, State.setBucket]

end Step

/-! ## Runs -/

/-- The bytes that the step of a run relays. -/
def stepRelayed (ref : Ref) :
    Pool State Act × PoolLabel Act Oracle → Nat
  | (pool, .run act oracle) => act.relayed oracle pool.shared ref
  | (_, .spawn _) => 0

/-- The payload bytes that were forwarded or buffered for a bucket. -/
def relayedBytes (ref : Ref)
    (trace : List (Pool State Act × PoolLabel Act Oracle)) : Nat :=
  (trace.map (stepRelayed ref)).sum

theorem relayedBytes_snoc (ref : Ref)
    (trace : List (Pool State Act × PoolLabel Act Oracle))
    (entry : Pool State Act × PoolLabel Act Oracle) :
    relayedBytes ref (trace ++ [entry]) =
      relayedBytes ref trace + stepRelayed ref entry := by
  simp [relayedBytes]

/-- What was relayed or counted is within the counter and the cap. -/
structure WithinLifetime (limits : Limits) (ref : Ref)
    (trace : List (Pool State Act × PoolLabel Act Oracle)) (s : State)
    (acts : List Act) : Prop where
  same : s.cfg = limits
  counter : ((relayedBytes ref trace + allCounted ref acts : Nat) : Int) ≤
    s.bytesRelayed ref
  cap : ((relayedBytes ref trace + allCounted ref acts : Nat) : Int) ≤
    limits.maxBucketLifetimeBytes

section Runs

variable {limits : Limits} {ref : Ref}
  {trace : List (Pool State Act × PoolLabel Act Oracle)} {s s' : State}

theorem WithinLifetime.perm {acts acts' : List Act} (perm : acts.Perm acts')
    (within : WithinLifetime limits ref trace s acts) :
    WithinLifetime limits ref trace s acts' := by
  have same : allCounted ref acts = allCounted ref acts' :=
    (perm.map (Act.counted ref)).sum_eq
  obtain ⟨cfg, counter, cap⟩ := within
  rw [same] at counter cap
  exact ⟨cfg, counter, cap⟩

/-- One step keeps what was relayed or counted within the counter and the
cap. -/
theorem WithinLifetime.step {pool : Pool State Act} {oracle : Oracle}
    {act : Act} {acts others : List Act}
    (within : WithinLifetime limits ref trace pool.shared (act :: others))
    (capped : 0 < limits.maxBucketLifetimeBytes)
    (next : act.next oracle pool.shared = some (s', acts)) :
    WithinLifetime limits ref (trace ++ [(pool, .run act oracle)]) s'
      (acts ++ (act.forks oracle pool.shared ++ others)) := by
  obtain ⟨cfg, counter, cap⟩ := within
  rw [allCounted_cons] at counter cap
  have same := act.next_cfg next
  have forked := act.forks_counted oracle pool.shared ref
  by_cases records : ∃ p data binary now,
      act = .readPeer (.record p ref data binary now)
  · obtain ⟨p, data, binary, now, rfl⟩ := records
    have relays : stepRelayed ref (pool, .run (.readPeer
        (.record p ref data binary now)) oracle) = 0 := rfl
    have uncounted : (Act.readPeer
        (.record p ref data binary now)).counted ref = 0 := rfl
    rw [uncounted] at counter cap
    have ran : (ReadPeer.record p ref data binary now).next oracle
        pool.shared = some (s', acts) := next
    obtain ⟨total, passes⟩ := ReadPeer.record_counted (cfg ▸ capped) ran
    rw [cfg] at passes
    constructor
    · rw [same, cfg]
    · rw [relayedBytes_snoc, relays, allCounted_append, allCounted_append,
        forked]
      rcases passes with stopped | ⟨passed, -⟩ <;> omega
    · rw [relayedBytes_snoc, relays, allCounted_append, allCounted_append,
        forked]
      rcases passes with stopped | ⟨passed, fits⟩ <;> omega
  · have noRecord : ∀ p data binary now,
        act ≠ .readPeer (.record p ref data binary now) :=
      fun p data binary now equal => records ⟨p, data, binary, now, equal⟩
    have kept := act.next_bytesRelayed next ref noRecord
    have less := act.next_counted next ref noRecord
    have relays : stepRelayed ref (pool, .run act oracle) =
        act.relayed oracle pool.shared ref := rfl
    constructor
    · rw [same, cfg]
    · rw [relayedBytes_snoc, relays, allCounted_append, allCounted_append,
        forked]
      omega
    · rw [relayedBytes_snoc, relays, allCounted_append, allCounted_append,
        forked]
      omega

end Runs

/-- What is forwarded or buffered for a bucket in its lifetime stays within the
cap. -/
theorem lifetime_bytes_bounded {cfg : Limits} {buckets : Config}
    {createPerMin maxBuckets : Int} {start pool : Pool State Act}
    {trace : List (Pool State Act × PoolLabel Act Oracle)}
    (capped : 0 < cfg.maxBucketLifetimeBytes)
    (started : Started cfg buckets createPerMin maxBuckets start)
    (run : (relay.system (Started cfg buckets createPerMin maxBuckets)).Run
      start trace pool) (ref : Ref) :
    (relayedBytes ref trace : Int) ≤ cfg.maxBucketLifetimeBytes := by
  have restricted : ((relay.system (Started cfg buckets createPerMin
      maxBuckets)).restrict fun _ _ => True).Run start trace pool :=
    Lts.run_restrict_iff.mpr ⟨run, fun _ _ => trivial⟩
  have within : WithinLifetime cfg ref trace pool.shared pool.acts := by
    refine Program.run_invariant relay (WithinLifetime cfg ref)
      (fun perm within => within.perm perm) ?_ ?_ ?_ restricted
    · intro trace pool act entry _ within
      obtain ⟨same, counter, cap⟩ := within
      have uncounted : act.counted ref = 0 := by
        cases act with
        | readPeer call => cases entry
        | _ => rfl
      constructor
      · exact same
      · rw [relayedBytes_snoc, allCounted_cons, uncounted]
        simpa [stepRelayed] using counter
      · rw [relayedBytes_snoc, allCounted_cons, uncounted]
        simpa [stepRelayed] using cap
    · intro trace pool act oracle s' acts others _ within next _
      exact within.step capped next
    · rw [started]
      constructor
      · rfl
      · exact le_rfl
      · exact capped.le
  have cap := within.cap
  omega

/-- Alice connects and sends two bytes while she is alone. -/
private def aloneMoves : List (Program.Move Act Oracle) :=
  [connects "alice" "192.0.2.1"] ++ runs 0 14 ++ [polls 0 false] ++ runs 2 1 ++
    runs 3 4 ++ reads 3 [1, 2] ++ runs 3 6

theorem lifetime_bytes_bounded_alone :
    ∃ trace pool, (relay.system (Started roomLimits roomConfig 10 10)).Run
        ⟨New roomLimits roomConfig 10 10, []⟩ trace pool ∧
      relayedBytes 0 trace = 2 ∧
      (relayedBytes 0 trace : Int) ≤ roomLimits.maxBucketLifetimeBytes := by
  have relayed : (relay.play ⟨New roomLimits roomConfig 10 10, []⟩
      aloneMoves).map (fun (trace, _) => relayedBytes 0 trace) = some 2 := by
    decide +kernel
  obtain ⟨⟨trace, pool⟩, played, two⟩ := Option.map_eq_some_iff.mp relayed
  have run := played_run played rfl
  exact ⟨trace, pool, run, two, lifetime_bytes_bounded (by decide) rfl run 0⟩

end Relay

end Byteln.Server

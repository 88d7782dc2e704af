import Byteln.Server.Registration
import Byteln.Server.RelaySteps

/-!
# Bucket quotas

The limiter should count, for each address, the registered buckets it
created.  `handleConn` takes a unit before it knows whether its join creates a
bucket, and three paths give units back, so the count is right only between
steps and only if each unit ends where it should.  `Act.holds` says which
activation holds a unit in between, and `QuotaKept` is the condition on a step
under which none is lost or given back twice.
-/

namespace Byteln.Server

open Byteln.Library

variable {κ δ : Type}

/-! ## Counting registered buckets -/

/-- The number of buckets in the registry that an address created. -/
def Registry.createdBy (reg : Registry κ δ) (ip : String) : Nat :=
  reg.m.entries.countP fun entry =>
    reg.heap[entry.2]?.any fun b => b.creatorIP = ip

/-- Every reference in the map leads to a bucket. -/
def Registry.Resolves (reg : Registry κ δ) : Prop :=
  ∀ id ref, reg.m.get? id = some ref → ∃ b, reg.heap[ref]? = some b

namespace Registry

theorem createdBy_congr {reg reg' : Registry κ δ} (resolves : reg.Resolves)
    (mapEq : reg'.m = reg.m) (extension : Extends reg reg') (ip : String) :
    reg'.createdBy ip = reg.createdBy ip := by
  unfold createdBy
  rw [mapEq]
  refine List.countP_congr fun entry member => ?_
  obtain ⟨b, found⟩ := resolves entry.1 entry.2
    ((InsertionMap.mem_entries_iff reg.m).mp member)
  obtain ⟨b', found', -, sameCreator⟩ := extension entry.2 b found
  simp [found, found', sameCreator]

/-- Deleting a map entry takes its bucket out of its creator's count. -/
theorem createdBy_erase {reg : Registry κ δ} {id : String} {b : Bucket κ δ}
    (registered : reg.bucket? id = some b) (ip : String) :
    reg.createdBy ip =
      ({ reg with m := reg.m.erase id } : Registry κ δ).createdBy ip +
        if b.creatorIP = ip then 1 else 0 := by
  obtain ⟨ref, mapped, found⟩ := Option.bind_eq_some_iff.mp registered
  unfold createdBy
  rw [(reg.m.entries_perm_erase mapped).countP_eq, List.countP_cons]
  simp [found]

theorem createdBy_erase_absent {reg : Registry κ δ} {id : String}
    (absent : reg.m.get? id = none) (ip : String) :
    ({ reg with m := reg.m.erase id } : Registry κ δ).createdBy ip =
      reg.createdBy ip := by
  unfold createdBy
  rw [reg.m.erase_of_absent absent]

/-- Publishing a bucket counts it for its creator. -/
theorem createdBy_publish {reg : Registry κ δ} {id : String}
    {b : Bucket κ δ} (resolves : reg.Resolves)
    (absent : reg.m.get? id = none) (ip : String) :
    ({ reg with
        heap := reg.heap ++ [b]
        m := reg.m.set id reg.heap.length } : Registry κ δ).createdBy ip =
      reg.createdBy ip + if b.creatorIP = ip then 1 else 0 := by
  unfold createdBy
  simp only [reg.m.set_entries_of_absent _ absent, List.countP_append,
    List.countP_singleton]
  congr 1
  · refine List.countP_congr fun entry member => ?_
    obtain ⟨c, found⟩ := resolves entry.1 entry.2
      ((InsertionMap.mem_entries_iff reg.m).mp member)
    obtain ⟨inBounds, -⟩ := List.getElem?_eq_some_iff.mp found
    rw [List.getElem?_append_left inBounds]
  · simp

theorem joinAttach_m (r : Registry κ δ) (now : Time) (args : JoinArgs κ)
    (ref : Ref) : (r.joinAttach now args ref).1.m = r.m := by
  unfold joinAttach
  split <;> rfl

/-- A join whose bucket has no seat for it is rejected. -/
theorem joinAttach_rejected (r : Registry κ δ) {now : Time}
    {args : JoinArgs κ} {ref : Ref}
    (away : ∀ b, r.heap[ref]? = some b → b.TurnsAway r.cfg now args) :
    (r.joinAttach now args ref).2.rejected = true := by
  unfold joinAttach
  split
  · rfl
  · rename_i b found
    simp [(join_rejected_iff _ _ _ _).mpr (away b found), attachResult]

theorem Resolves.erase {reg : Registry κ δ} (resolves : reg.Resolves)
    (id : String) : ({ reg with m := reg.m.erase id } : Registry κ δ).Resolves := by
  intro other ref registered
  rw [InsertionMap.get?_erase] at registered
  split at registered
  · simp at registered
  · exact resolves other ref registered

end Registry

theorem CallStep.resolves {oracle : Oracle} {call call' : Call κ}
    {shared shared' : Shared κ δ}
    (step : CallStep oracle shared call shared' call')
    (resolves : shared.reg.Resolves) : shared'.reg.Resolves := by
  intro id ref registered
  rcases step.registered registered with before | ⟨b, found, -⟩
  · obtain ⟨b, found⟩ := resolves id ref before
    obtain ⟨b', found', -⟩ := step.extends ref b found
    exact ⟨b', found'⟩
  · exact ⟨b, found⟩

/-- While a sweep runs, only its own deletions change the map. -/
theorem CallStep.map_kept {oracle : Oracle} {call call' : Call κ}
    {shared shared' : Shared κ δ}
    (step : CallStep oracle shared call shared' call')
    (sweeping : shared.sweeping = true)
    (other : ∀ now id creator ids creators,
      call ≠ .sweep (.delete now id creator ids creators)) :
    shared'.reg.m = shared.reg.m := by
  cases step with
  | joinFound | leaveMissing | leaveFound | sweepEnter | sweepEnd
  | sweepKeep | sweepCondemn | joinCreate => rfl
  | joinPublish free => simp [sweeping] at free
  | joinAttach =>
      simp only [Registry.joinAttach]
      split <;> rfl
  | @leaveMark id slot ref allowed =>
      rcases shared.reg.leaveSection_cases oracle.now id slot ref with
        ⟨_, unchanged⟩ | ⟨b, p, found, occupied, deletes, _, _, mapEq⟩
      · rw [unchanged]
      · have notDeleted : shouldDeleteLocked shared.reg.cfg
            (b.markLeft slot p oracle.now) oracle.now = false := by
          by_contra deleted
          have free := allowed (by simpa [deletes] using deleted)
            (by simp [Registry.seatOccupied, found, occupied])
          simp [sweeping] at free
        simp [mapEq, notDeleted]
  | sweepDelete => exact absurd rfl (other _ _ _ _ _)

end Byteln.Server

namespace Byteln.Server.Relay

open Byteln.Library

/-! ## Units held by activations -/

/-- The units of an address that an activation has to pass on. -/
def Act.holds (ip : String) : Act → Nat
  | .handleConn (.upgrade req false)
  | .handleConn (.join req false _ (.enter _))
  | .handleConn (.join req false _ (.attach _ _ _)) =>
      if req.ip = ip then 1 else 0
  | .releaseBucket released => if released = ip then 1 else 0
  | .sweep (.scan _ _ creators) | .sweep (.delete _ _ _ _ creators) =>
      creators.count ip
  | _ => 0

/-- The activation is in the middle of a pass over the registry. -/
def Act.sweepsNow : Act → Bool
  | .sweep (.scan _ _ _) | .sweep (.delete _ _ _ _ _) => true
  | _ => false

/-- What an activation knows about the registry. -/
def Act.Sound (s : State) : Act → Prop
  | .handleConn (.join req _ _ call) =>
      call.args.id = req.bucketID ∧ call.args.ip = req.ip
  | .dropPeer (.leave _ _ (.marking _ _ ref)) => ∃ b, s.bucket? ref = some b
  | .sweep (.delete _ id creator _ _) =>
      ∃ b, s.calls.reg.bucket? id = some b ∧ b.creatorIP = creator
  | _ => True

/-- The condition on a step.  A connection that took no unit finds its bucket
registered, and one that took a unit creates its bucket or is turned away.  A
sweep deletes only buckets with a known creator.  A drop reports a deletion
only if it deletes a registered bucket of the creator it read. -/
def QuotaKept (s : State) : Act → Oracle → Prop
  | .handleConn (.join _ true _ (.enter args)), _ =>
      ∃ ref, s.calls.reg.m.get? args.id = some ref
  | .handleConn (.join _ false _ (.attach args now ref)), _ =>
      ∀ b, s.bucket? ref = some b → b.TurnsAway s.calls.reg.cfg now args
  | .dropPeer (.leave _ ip (.enter id _)), _ =>
      s.calls.reg.m.get? id = none → ip = ""
  | .dropPeer (.leave _ ip (.marking id slot ref)), oracle =>
      ∀ b, s.bucket? ref = some b →
        (b.peers slot = none →
          shouldDeleteLocked s.calls.reg.cfg b oracle.now = true → ip = "") ∧
        ∀ q, b.peers slot = some q →
          shouldDeleteLocked s.calls.reg.cfg (b.markLeft slot q oracle.now)
            oracle.now = true →
          (s.calls.reg.m.get? id = none → ip = "") ∧
            ∀ c, s.calls.reg.bucket? id = some c →
              c.creatorIP = ip ∧ ip ≠ ""
  | .sweep (.delete _ _ creator _ _), _ => creator ≠ ""
  | _, _ => True

/-- All units counted for an address are those of its registered buckets and
those held by activations. -/
def Ledger (s : State) (acts : List Act) : Prop :=
  ∀ ip, s.limit.buckets ip =
    s.calls.reg.createdBy ip + (acts.map (Act.holds ip)).sum

structure Quota (s : State) (acts : List Act) : Prop where
  ledger : Ledger s acts
  resolves : s.calls.reg.Resolves
  sweeper : acts.countP Act.sweepsNow = if s.calls.sweeping then 1 else 0
  sound : ∀ act ∈ acts, act.Sound s

/-! ## One step -/

/-- What a step does to units, to the sweep and to what its activations
know. -/
structure QuotaStep (s s' : State) (act : Act) (acts : List Act) : Prop where
  balance : ∀ ip rest,
    s.limit.buckets ip = s.calls.reg.createdBy ip + act.holds ip + rest →
    s'.limit.buckets ip =
      s'.calls.reg.createdBy ip + (acts.map (Act.holds ip)).sum + rest
  sweeper : acts.countP Act.sweepsNow + (if s.calls.sweeping then 1 else 0) =
    (if act.sweepsNow then 1 else 0) + if s'.calls.sweeping then 1 else 0
  sound : ∀ act' ∈ acts, act'.Sound s'

/-- The activation holds nothing, knows nothing and sweeps nothing. -/
def Act.neutral : Act → Bool
  | .handleConn (.upgrade _ existed) => existed
  | .handleConn (.join _ _ _ _) | .dropPeer (.leave _ _ (.marking _ _ _))
  | .sweep (.scan _ _ _) | .sweep (.delete _ _ _ _ _)
  | .releaseBucket _ => false
  | _ => true

def Neutral (acts : List Act) : Prop :=
  ∀ act ∈ acts, act.neutral = true

theorem Act.holds_of_neutral {act : Act} (neutral : act.neutral = true)
    (ip : String) : act.holds ip = 0 := by
  unfold Act.holds
  split <;> simp_all [Act.neutral]

theorem Act.sweepsNow_of_neutral {act : Act} (neutral : act.neutral = true) :
    act.sweepsNow = false := by
  unfold Act.sweepsNow
  split <;> simp_all [Act.neutral]

theorem Act.sound_of_neutral {act : Act} (neutral : act.neutral = true)
    (s : State) : act.Sound s := by
  unfold Act.Sound
  split <;> simp_all [Act.neutral]

theorem Neutral.sum {acts : List Act} (neutral : Neutral acts) (ip : String) :
    (acts.map (Act.holds ip)).sum = 0 := by
  induction acts with
  | nil => rfl
  | cons act acts induction =>
      obtain ⟨first, rest⟩ := List.forall_mem_cons.mp neutral
      simp [act.holds_of_neutral first, induction rest]

theorem Neutral.countP {acts : List Act} (neutral : Neutral acts) :
    acts.countP Act.sweepsNow = 0 := by
  refine List.countP_eq_zero.mpr fun act member => ?_
  simp [act.sweepsNow_of_neutral (neutral act member)]

/-- A step that passes its units on and leaves the counts alone. -/
theorem QuotaStep.of_kept {s s' : State} {act : Act} {acts : List Act}
    (holds : ∀ ip, (acts.map (Act.holds ip)).sum = act.holds ip)
    (sweeps : acts.countP Act.sweepsNow = if act.sweepsNow then 1 else 0)
    (sound : ∀ act' ∈ acts, act'.Sound s')
    (limit : s'.limit.buckets = s.limit.buckets)
    (created : ∀ ip, s'.calls.reg.createdBy ip = s.calls.reg.createdBy ip)
    (sweeping : s'.calls.sweeping = s.calls.sweeping) :
    QuotaStep s s' act acts where
  balance := by
    intro ip rest ledger
    rw [limit, created, holds, ledger]
  sweeper := by rw [sweeps, sweeping]
  sound := sound

/-- A step that touches neither limiter nor map and leaves only neutral
activations behind. -/
theorem QuotaStep.of_neutral {s s' : State} {act : Act} {acts : List Act}
    (actHolds : ∀ ip, act.holds ip = 0) (actSweeps : act.sweepsNow = false)
    (neutral : Neutral acts)
    (limit : s'.limit.buckets = s.limit.buckets)
    (created : ∀ ip, s'.calls.reg.createdBy ip = s.calls.reg.createdBy ip)
    (sweeping : s'.calls.sweeping = s.calls.sweeping) :
    QuotaStep s s' act acts :=
  .of_kept (fun ip => by rw [neutral.sum, actHolds])
    (by rw [neutral.countP, actSweeps]; rfl)
    (fun act' member => act'.sound_of_neutral (neutral act' member) s')
    limit created sweeping

theorem State.setBucket_extends {s : State} {ref : Ref}
    {b b' : Bucket PeerRef Frame} (found : s.bucket? ref = some b)
    (sameId : b'.id = b.id) (sameCreator : b'.creatorIP = b.creatorIP) :
    Extends s.calls.reg (s.setBucket ref b').calls.reg :=
  Registry.setBucket_extends found sameId sameCreator

theorem Poke.frame {oracle : Server.Oracle} {s : State} {act : Act}
    {ref : Ref} {b b' : Bucket PeerRef Frame}
    (poke : Poke oracle s b act ref b') :
    b'.id = b.id ∧ b'.creatorIP = b.creatorIP := by
  cases poke with
  | touch | record | drain => exact ⟨rfl, rfl⟩
  | buffer =>
      unfold Bucket.bufferIfAlone
      split_ifs <;> exact ⟨rfl, rfl⟩

/-- A step outside all registry calls changes no count and no sweep. -/
theorem outside_frame {oracle : Oracle} {s s' : State} {act : Act}
    {acts : List Act} (outside : act.call? = none)
    (resolves : s.calls.reg.Resolves)
    (next : act.next oracle s = some (s', acts)) :
    (∀ ip, s'.calls.reg.createdBy ip = s.calls.reg.createdBy ip) ∧
      s'.calls.sweeping = s.calls.sweeping := by
  cases act.next_registry next with
  | quiet _ same => rw [same]; exact ⟨fun _ => rfl, rfl⟩
  | @poke ref b b' found poke callsEq =>
      rw [callsEq]
      exact ⟨Registry.createdBy_congr resolves rfl
        (State.setBucket_extends found poke.frame.1 poke.frame.2), rfl⟩
  | call inCall => simp [outside] at inCall

theorem closeBucketPeers_neutral (p : PeerRef) (b : Ref) :
    Neutral (closeBucketPeers p b) := by
  simp [Neutral, closeBucketPeers, Act.neutral]

theorem ReadPeer.next_neutral {oracle : Oracle} {s s' : State}
    {call : ReadPeer} {acts : List Act}
    (next : call.next oracle s = some (s', acts)) : Neutral acts := by
  cases call <;>
    grind [Neutral, ReadPeer.next, Act.neutral, closeBucketPeers_neutral]

theorem WriteLoop.next_limit {oracle : Oracle} {s s' : State}
    {call : WriteLoop} {acts : List Act}
    (next : call.next oracle s = some (s', acts)) : s'.limit = s.limit := by
  cases call <;> grind [WriteLoop.next, State.modifyPeer]

theorem WriteLoop.next_neutral {oracle : Oracle} {s s' : State}
    {call : WriteLoop} {acts : List Act}
    (next : call.next oracle s = some (s', acts)) : Neutral acts := by
  cases call <;> grind [Neutral, WriteLoop.next, Act.neutral]

theorem Act.forks_neutral (oracle : Oracle) (act : Act) (s : State) :
    Neutral (act.forks oracle s) := by
  intro act' member
  rcases Act.forks_cases member with ⟨p, rfl⟩ | ⟨p, rfl⟩ | ⟨p, rfl⟩ <;> rfl

theorem ReadPeer.next_limit {oracle : Oracle} {s s' : State}
    {call : ReadPeer} {acts : List Act}
    (next : call.next oracle s = some (s', acts)) : s'.limit = s.limit := by
  cases call <;> grind [ReadPeer.next, State.modifyPeer, State.setBucket]

section Step

variable {oracle : Oracle} {s s' : State} {acts : List Act}

private theorem refuse_holds (req : Request) (existed : Bool) (ip : String) :
    ((refuse req existed).map (Act.holds ip)).sum =
      if existed = false ∧ req.ip = ip then 1 else 0 := by
  cases existed <;> simp [refuse, Act.holds]

private theorem refuse_sweeps (req : Request) (existed : Bool) :
    (refuse req existed).countP Act.sweepsNow = 0 := by
  cases existed <;> simp [refuse, Act.sweepsNow]

private theorem refuse_sound (req : Request) (existed : Bool) (s : State) :
    ∀ act ∈ refuse req existed, act.Sound s := by
  cases existed <;> simp [refuse, Act.Sound]

/-- A join holds its unit until it publishes a bucket or is rejected. -/
theorem join_quotaStep {req : Request} {existed : Bool} {p : PeerRef}
    {call : JoinCall PeerRef} (resolves : s.calls.reg.Resolves)
    (sound : (Act.handleConn (.join req existed p call)).Sound s)
    (kept : QuotaKept s (.handleConn (.join req existed p call)) oracle)
    (next : HandleConn.next oracle s (.join req existed p call) =
      some (s', acts)) :
    QuotaStep s s' (.handleConn (.join req existed p call)) acts := by
  simp only [HandleConn.next] at next
  split at next
  · simp at next
  · rename_i calls args result taken
    have step := call.next_step taken
    have created : calls.reg.m = s.calls.reg.m →
        ∀ ip, calls.reg.createdBy ip = s.calls.reg.createdBy ip :=
      fun mapEq => Registry.createdBy_congr resolves mapEq step.extends
    split at next <;> rename_i outcome <;> cases next
    · cases step with
      | joinCreate => simp [Registry.joinCreate] at outcome
      | joinAttach =>
          refine .of_kept (fun ip => ?_) (refuse_sweeps req existed)
            (refuse_sound req existed _) rfl (created ?_) rfl
          · rw [refuse_holds]
            cases existed <;> simp [Act.holds]
          · exact s.calls.reg.joinAttach_m ..
    · cases step with
      | joinCreate =>
          refine .of_neutral (fun ip => ?_) rfl ?_ rfl (created rfl) rfl
          · cases existed <;> rfl
          · simp [Neutral, Act.neutral]
      | @joinAttach _ now ref =>
          refine .of_neutral (fun ip => ?_) rfl ?_ rfl (created ?_) rfl
          · cases existed with
            | true => rfl
            | false =>
                exact absurd (s.calls.reg.joinAttach_rejected kept) outcome
          · simp [Neutral, Act.neutral]
          · exact s.calls.reg.joinAttach_m ..
  · rename_i calls call' notReturned taken
    have sameArgs := call.next_args taken
    cases next
    have stillSound : ∀ act ∈ [Act.handleConn (.join req existed p call')],
        act.Sound { s with calls := calls } := by
      simpa [Act.Sound, sameArgs] using sound
    cases call.next_step taken with
    | joinFound =>
        refine .of_kept (fun ip => ?_) rfl stillSound rfl (fun _ => rfl) rfl
        cases existed <;> simp [Act.holds]
    | @joinPublish args b _ absent _ creator =>
        cases existed with
        | true =>
            obtain ⟨ref, registered⟩ := kept
            simp [absent] at registered
        | false =>
            have ownIP : b.creatorIP = req.ip := creator.trans sound.2
            refine ⟨fun ip rest ledger => ?_, by simp [Act.sweepsNow],
              stillSound⟩
            rw [Registry.createdBy_publish resolves absent, ownIP]
            simp only [Act.holds, List.map_cons, List.map_nil,
              List.sum_cons, List.sum_nil] at ledger ⊢
            omega
    | joinCreate | joinAttach => exact (notReturned _ _ rfl).elim

theorem HandleConn.quotaStep {call : HandleConn}
    (resolves : s.calls.reg.Resolves)
    (sound : (Act.handleConn call).Sound s)
    (kept : QuotaKept s (.handleConn call) oracle)
    (next : call.next oracle s = some (s', acts)) :
    QuotaStep s s' (.handleConn call) acts := by
  have frame : (Act.handleConn call).call? = none → _ :=
    fun outside => @outside_frame oracle s s' _ acts outside resolves next
  cases call with
  | join req existed p call => exact join_quotaStep resolves sound kept next
  | get req =>
      obtain ⟨created, sweeping⟩ := frame rfl
      simp only [HandleConn.next] at next
      split at next
      · simp at next
      · split at next <;> cases next <;>
          exact .of_neutral (fun _ => rfl) rfl (by simp [Neutral, Act.neutral])
            rfl created sweeping
  | allowCreate req =>
      obtain ⟨created, sweeping⟩ := frame rfl
      simp only [HandleConn.next, Option.some.injEq, Prod.mk.injEq] at next
      obtain ⟨rfl, rfl⟩ := next
      refine .of_neutral (fun _ => rfl) rfl ?_ (by simp) created sweeping
      split <;> simp [Neutral, Act.neutral]
  | tryAcquire req =>
      simp only [HandleConn.next, Option.some.injEq, Prod.mk.injEq] at next
      obtain ⟨rfl, rfl⟩ := next
      split
      · rename_i granted
        refine ⟨fun ip rest ledger => ?_, by simp [Act.sweepsNow],
          by simp [Act.Sound]⟩
        have counted := Limiter.tryAcquireBucket_buckets granted ip
        simp only [Act.holds, List.map_cons, List.map_nil, List.sum_cons,
          List.sum_nil, eq_comm] at ledger counted ⊢
        omega
      · rename_i refused
        simp only [Bool.not_eq_true] at refused
        rw [Limiter.tryAcquireBucket_refused refused]
        exact .of_neutral (fun _ => rfl) rfl (by simp [Neutral]) rfl
          (fun _ => rfl) rfl
  | upgrade req existed =>
      simp only [HandleConn.next] at next
      split at next <;> cases next
      · refine .of_kept (fun ip => ?_) rfl
          (by simp [Act.Sound, JoinCall.args, Request.joinArgs]) rfl
          (fun _ => rfl) rfl
        cases existed <;> simp [Act.holds]
      · refine .of_kept (fun ip => ?_) (refuse_sweeps req existed)
          (refuse_sound req existed _) rfl (fun _ => rfl) rfl
        rw [refuse_holds]
        cases existed <;> simp [Act.holds]
  | list p b slot =>
      obtain ⟨created, sweeping⟩ := frame rfl
      cases next
      exact .of_neutral (fun _ => rfl) rfl (by simp [Neutral, Act.neutral]) rfl
        created sweeping
  | drain p b =>
      obtain ⟨created, sweeping⟩ := frame rfl
      simp only [HandleConn.next] at next
      split at next
      · simp at next
      · cases next
        refine .of_neutral (fun _ => rfl) rfl ?_ rfl created sweeping
        simp [Neutral, Act.neutral, or_imp, forall_and]
  | handleRead p =>
      cases next
      refine .of_neutral (fun _ => rfl) rfl ?_ rfl (fun _ => rfl) rfl
      split <;> simp [Neutral, Act.neutral]
  | start p =>
      simp only [HandleConn.next] at next
      split at next <;> cases next
      · exact .of_neutral (fun _ => rfl) rfl (by simp [Neutral]) rfl
          (fun _ => rfl) rfl
      · refine .of_neutral (fun _ => rfl) rfl ?_ rfl (fun _ => rfl) rfl
        split <;> simp [Neutral, Act.neutral]
  | done p =>
      cases next
      exact .of_neutral (fun _ => rfl) rfl (by simp [Neutral]) rfl
        (fun _ => rfl) rfl

private theorem afterLeave_holds (released ip : String)
    (result : LeaveResult PeerRef) :
    ((afterLeave released result).map (Act.holds ip)).sum =
      if result.deleteBucket ∧ released ≠ "" ∧ released = ip then 1
      else 0 := by
  unfold afterLeave
  cases result.otherConn <;> by_cases deleted : result.deleteBucket = true <;>
    by_cases known : released = "" <;> simp [deleted, known, Act.holds]

private theorem afterLeave_sweeps (ip : String)
    (result : LeaveResult PeerRef) :
    (afterLeave ip result).countP Act.sweepsNow = 0 := by
  unfold afterLeave
  split <;> split <;> simp [Act.sweepsNow]

private theorem afterLeave_sound (ip : String) (result : LeaveResult PeerRef)
    (s : State) : ∀ act ∈ afterLeave ip result, act.Sound s := by
  unfold afterLeave
  split <;> split <;> simp [Act.Sound]

/-- A leave that reports no deletion, or read no creator, releases nothing. -/
private theorem QuotaStep.of_silent {s s' : State} {p : PeerRef} {ip : String}
    {call : LeaveCall PeerRef} {result : LeaveResult PeerRef}
    (silent : result.deleteBucket = true → ip = "")
    (limit : s'.limit.buckets = s.limit.buckets)
    (created : ∀ ip, s'.calls.reg.createdBy ip = s.calls.reg.createdBy ip)
    (sweeping : s'.calls.sweeping = s.calls.sweeping) :
    QuotaStep s s' (.dropPeer (.leave p ip call)) (afterLeave ip result) := by
  refine .of_kept (fun counted => ?_) (afterLeave_sweeps ip result)
    (afterLeave_sound ip result s') limit created sweeping
  rw [afterLeave_holds, if_neg]
  · rfl
  · rintro ⟨deleted, known, -⟩
    exact known (silent deleted)

/-- A drop releases a unit exactly when it deletes a registered bucket of the
creator it read. -/
theorem leave_quotaStep {p : PeerRef} {ip : String}
    {call : LeaveCall PeerRef} (resolves : s.calls.reg.Resolves)
    (sound : (Act.dropPeer (.leave p ip call)).Sound s)
    (kept : QuotaKept s (.dropPeer (.leave p ip call)) oracle)
    (next : DropPeer.next oracle s (.leave p ip call) = some (s', acts)) :
    QuotaStep s s' (.dropPeer (.leave p ip call)) acts := by
  simp only [DropPeer.next] at next
  split at next
  · simp at next
  · rename_i calls result taken
    cases next
    have step := call.next_step taken
    cases step with
    | leaveMissing free absent =>
        exact .of_silent (fun _ => kept absent) rfl (fun _ => rfl) rfl
    | @leaveMark id slot ref =>
        obtain ⟨b, found⟩ := sound
        obtain ⟨vacantKept, occupiedKept⟩ := kept b found
        cases occupied : b.peers slot with
        | none =>
            have unchanged := s.calls.reg.leaveSection_vacant oracle.now id
              found occupied
            refine .of_silent (fun deleted => ?_) rfl ?_ rfl
            · rw [unchanged] at deleted
              exact vacantKept occupied deleted
            · rw [unchanged]
              exact fun _ => rfl
        | some q =>
            have extension := s.calls.reg.leaveSection_extends oracle.now id
              slot ref
            rcases s.calls.reg.leaveSection_cases oracle.now id slot ref with
              ⟨vacant, _⟩ | ⟨c, q', cFound, seated, deletes, _, _, mapEq⟩
            · simp [vacant b found] at occupied
            obtain rfl : b = c := Option.some.inj (found.symm.trans cFound)
            obtain rfl : q = q' := Option.some.inj (occupied.symm.trans seated)
            have verdict := occupiedKept q occupied
            cases deleted : shouldDeleteLocked s.calls.reg.cfg
              (b.markLeft slot q oracle.now) oracle.now with
            | false =>
                rw [deleted] at deletes mapEq
                exact .of_silent (by simp [deletes]) rfl
                  (Registry.createdBy_congr resolves mapEq extension) rfl
            | true =>
                rw [deleted] at deletes mapEq
                obtain ⟨absentKept, registeredKept⟩ := verdict deleted
                have created := Registry.createdBy_congr
                  (resolves.erase id) mapEq extension
                cases registered : s.calls.reg.m.get? id with
                | none =>
                    refine .of_silent (fun _ => absentKept registered) rfl
                      (fun ip => (created ip).trans ?_) rfl
                    exact Registry.createdBy_erase_absent registered ip
                | some target =>
                    obtain ⟨c, cFound⟩ := resolves id target registered
                    have inMap : s.calls.reg.bucket? id = some c := by
                      simp [Registry.bucket?, registered, cFound]
                    obtain ⟨sameCreator, known⟩ := registeredKept c inMap
                    refine ⟨fun counted rest ledger => ?_, ?_,
                      afterLeave_sound _ _ _⟩
                    · have before := Registry.createdBy_erase inMap counted
                      rw [created, afterLeave_holds]
                      simp only [deletes, known, sameCreator, Act.holds,
                        ne_eq, not_false_eq_true, true_and] at ledger before ⊢
                      omega
                    · rw [afterLeave_sweeps]
                      rfl
  · rename_i calls call' notReturned taken
    cases next
    cases call.next_step taken with
    | @leaveFound id slot ref _ registered =>
        have target : ∃ b, s.bucket? ref = some b := resolves id ref registered
        exact .of_kept (fun _ => rfl) rfl (by simpa [Act.Sound] using target)
          rfl (fun _ => rfl) rfl
    | leaveMissing | leaveMark => exact (notReturned _ rfl).elim

theorem DropPeer.quotaStep {call : DropPeer}
    (resolves : s.calls.reg.Resolves)
    (sound : (Act.dropPeer call).Sound s)
    (kept : QuotaKept s (.dropPeer call) oracle)
    (next : call.next oracle s = some (s', acts)) :
    QuotaStep s s' (.dropPeer call) acts := by
  cases call with
  | leave p ip call => exact leave_quotaStep resolves sound kept next
  | swap p =>
      simp only [DropPeer.next] at next
      split at next <;> cases next <;>
        exact .of_neutral (fun _ => rfl) rfl (by simp [Neutral, Act.neutral])
          rfl (fun _ => rfl) rfl
  | creatorIP p =>
      simp only [DropPeer.next] at next
      split at next
      · simp at next
      · cases next
        exact .of_neutral (fun _ => rfl) rfl (by simp [Neutral, Act.neutral])
          rfl (fun _ => rfl) rfl
  | teardown p ip | unlist p ip =>
      cases next
      exact .of_neutral (fun _ => rfl) rfl (by simp [Neutral, Act.neutral]) rfl
        (fun _ => rfl) rfl

private theorem releases_holds (creators : List String) (ip : String) :
    ((creators.map Act.releaseBucket).map (Act.holds ip)).sum =
      creators.count ip := by
  induction creators with
  | nil => rfl
  | cons creator creators induction =>
      simp only [List.map_cons, List.sum_cons, induction, Act.holds,
        List.count_cons, beq_iff_eq]
      omega

/-- A sweep holds the units of the buckets it has deleted. -/
theorem sweep_quotaStep {call : SweepCall}
    (sound : (Act.sweep call).Sound s)
    (kept : QuotaKept s (.sweep call) oracle)
    (running : (Act.sweep call).sweepsNow = true → s.calls.sweeping = true)
    (next : Act.next oracle (.sweep call) s = some (s', acts)) :
    QuotaStep s s' (.sweep call) acts := by
  simp only [Act.next] at next
  split at next
  · simp at next
  · rename_i calls creators taken
    cases next
    cases call.next_step taken with
    | sweepEnd =>
        refine ⟨fun ip rest ledger => ?_, ?_, ?_⟩
        · rw [releases_holds]
          exact ledger
        · have none : (creators.map Act.releaseBucket).countP Act.sweepsNow =
              0 := by
            simp [List.countP_eq_zero, Act.sweepsNow]
          simp [none, running rfl, Act.sweepsNow]
        · simp [Act.Sound]
  · rename_i calls call' notReturned taken
    cases next
    cases call.next_step taken with
    | sweepEnter free =>
        exact ⟨fun ip rest ledger => by simpa [Act.holds] using ledger,
          by simp [Act.sweepsNow, free], by simp [Act.Sound]⟩
    | sweepEnd => exact (notReturned _ rfl).elim
    | sweepKeep =>
        exact .of_kept (fun ip => by simp [Act.holds]) rfl
          (by simp [Act.Sound]) rfl (fun _ => rfl) rfl
    | @sweepCondemn now id ids creators b registered =>
        exact .of_kept (fun ip => by simp [Act.holds]) rfl
          (by simpa [Act.Sound] using ⟨b, registered, rfl⟩) rfl
          (fun _ => rfl) rfl
    | @sweepDelete now id creator ids creators =>
        obtain ⟨b, registered, sameCreator⟩ := sound
        have known : creator ≠ "" := kept
        refine ⟨fun ip rest ledger => ?_, by simp [Act.sweepsNow],
          by simp [Act.Sound]⟩
        have before := Registry.createdBy_erase registered ip
        simp only [known, sameCreator, Act.holds, ne_eq, not_false_eq_true,
          if_true, List.map_cons, List.map_nil, List.sum_cons, List.sum_nil,
          List.count_append, List.count_singleton, beq_iff_eq]
          at ledger before ⊢
        omega

theorem Act.quotaStep {act : Act} (resolves : s.calls.reg.Resolves)
    (sound : act.Sound s) (kept : QuotaKept s act oracle)
    (running : act.sweepsNow = true → s.calls.sweeping = true)
    (next : act.next oracle s = some (s', acts)) : QuotaStep s s' act acts := by
  have frame : act.call? = none → _ :=
    fun outside => outside_frame outside resolves next
  cases act with
  | handleConn call => exact call.quotaStep resolves sound kept next
  | dropPeer call => exact call.quotaStep resolves sound kept next
  | readPeer call =>
      obtain ⟨created, sweeping⟩ := frame rfl
      exact .of_neutral (fun _ => rfl) rfl (call.next_neutral next)
        (by rw [call.next_limit next]) created sweeping
  | writeLoop call =>
      obtain ⟨created, sweeping⟩ := frame rfl
      exact .of_neutral (fun _ => rfl) rfl (call.next_neutral next)
        (by rw [call.next_limit next]) created sweeping
  | event p hup =>
      simp only [Act.next] at next
      split at next <;> cases next
      exact .of_neutral (fun _ => rfl) rfl (by simp [Neutral]) rfl
        (fun _ => rfl) rfl
  | sweep call => exact sweep_quotaStep sound kept running next
  | shutdown =>
      cases next
      refine .of_neutral (fun _ => rfl) rfl ?_ rfl (fun _ => rfl) rfl
      simp [Neutral, Act.neutral, or_imp, forall_and]
  | closePoller =>
      simp only [Act.next] at next
      split at next <;> cases next <;>
        exact .of_neutral (fun _ => rfl) rfl (by simp [Neutral, Act.neutral])
          rfl (fun _ => rfl) rfl
  | stopPoller =>
      cases next
      exact .of_neutral (fun _ => rfl) rfl (by simp [Neutral]) rfl
        (fun _ => rfl) rfl
  | releaseBucket ip =>
      cases next
      refine ⟨fun counted rest ledger => ?_, by simp [Act.sweepsNow],
        by simp⟩
      rw [Limiter.releaseBucket_buckets, ledger]
      simp only [Act.holds, List.map_nil, List.sum_nil, eq_comm]
      omega
  | touch b =>
      obtain ⟨created, sweeping⟩ := frame rfl
      simp only [Act.next] at next
      split at next
      · simp at next
      · cases next
        exact .of_neutral (fun _ => rfl) rfl (by simp [Neutral]) rfl created
          sweeping
  | notifyPeerPresence b | notifySeat b slot | closeSeat b slot =>
      simp only [Act.next] at next
      split at next
      · simp at next
      · cases next
        refine .of_neutral (fun _ => rfl) rfl ?_ rfl (fun _ => rfl) rfl
        split <;> simp [Neutral, Act.neutral]
  | enqueue p out =>
      cases next
      refine .of_neutral (fun _ => rfl) rfl ?_ rfl (fun _ => rfl) rfl
      split <;> simp [Neutral, Act.neutral]
  | send p out =>
      simp only [Act.next] at next
      split at next <;> cases next <;>
        exact .of_neutral (fun _ => rfl) rfl (by simp [Neutral, Act.neutral])
          rfl (fun _ => rfl) rfl
  | ensureWriter p =>
      cases next
      exact .of_neutral (fun _ => rfl) rfl (by simp [Neutral]) rfl
        (fun _ => rfl) rfl

/-! ## Runs -/

theorem Act.next_extends {act : Act}
    (next : act.next oracle s = some (s', acts)) :
    Extends s.calls.reg s'.calls.reg := by
  cases act.next_registry next with
  | quiet _ same => rw [same]; exact .refl _
  | poke found poke callsEq =>
      rw [callsEq]
      exact State.setBucket_extends found poke.frame.1 poke.frame.2
  | call _ step => exact step.extends

theorem Act.next_resolves {act : Act} (resolves : s.calls.reg.Resolves)
    (next : act.next oracle s = some (s', acts)) :
    s'.calls.reg.Resolves := by
  cases act.next_registry next with
  | quiet _ same => rw [same]; exact resolves
  | poke found poke callsEq =>
      intro id ref registered
      rw [callsEq] at registered
      obtain ⟨b, before⟩ := resolves id ref registered
      obtain ⟨b', after, -⟩ := Act.next_extends next ref b before
      exact ⟨b', after⟩
  | call _ step => exact step.resolves resolves

/-- While a sweep is on, no other activation changes the map. -/
theorem Act.next_map {act : Act} (sweeping : s.calls.sweeping = true)
    (other : act.sweepsNow = false)
    (next : act.next oracle s = some (s', acts)) :
    s'.calls.reg.m = s.calls.reg.m := by
  cases act.next_registry next with
  | quiet _ same => rw [same]
  | poke _ _ callsEq => rw [callsEq]; rfl
  | call inCall step =>
      refine step.map_kept sweeping ?_
      rintro now id creator ids creators rfl
      unfold Act.call? at inCall
      split at inCall <;> simp_all [Act.sweepsNow]

/-- What an activation knows stays true while others run. -/
theorem Act.Sound.mono {act other : Act} (sound : other.Sound s)
    (sweeping : other.sweepsNow = true →
      s.calls.sweeping = true ∧ act.sweepsNow = false)
    (next : act.next oracle s = some (s', acts)) : other.Sound s' := by
  unfold Act.Sound at sound ⊢
  split
  · exact sound
  · obtain ⟨b, found⟩ := sound
    obtain ⟨b', found', -⟩ := act.next_extends next _ b found
    exact ⟨b', found'⟩
  · obtain ⟨b, registered, creator⟩ := sound
    obtain ⟨ref, mapped, found⟩ := Option.bind_eq_some_iff.mp registered
    obtain ⟨b', found', -, sameCreator⟩ := act.next_extends next ref b found
    obtain ⟨on, notSweep⟩ := sweeping rfl
    refine ⟨b', ?_, sameCreator.trans creator⟩
    simp [Registry.bucket?, act.next_map on notSweep next, mapped, found']
  · trivial

theorem Quota.step {act : Act} {others : List Act}
    (quota : Quota s (act :: others)) (kept : QuotaKept s act oracle)
    (next : act.next oracle s = some (s', acts)) :
    Quota s' (acts ++ (act.forks oracle s ++ others)) := by
  have forks := act.forks_neutral oracle s
  have sweeper := quota.sweeper
  rw [List.countP_cons] at sweeper
  have running : act.sweepsNow = true → s.calls.sweeping = true := by
    intro sweeps
    by_contra off
    simp [sweeps, off] at sweeper
  have step := act.quotaStep quota.resolves (quota.sound act (by simp)) kept
    running next
  refine ⟨fun ip => ?_, act.next_resolves quota.resolves next, ?_, ?_⟩
  · have ledger := quota.ledger ip
    rw [List.map_cons, List.sum_cons, ← Nat.add_assoc] at ledger
    rw [step.balance ip _ ledger]
    simp [forks.sum]
    omega
  · have moved := step.sweeper
    rw [List.countP_append, List.countP_append, forks.countP]
    split_ifs at sweeper moved ⊢ <;> omega
  · intro other member
    rcases List.mem_append.mp member with left | rest
    · exact step.sound other left
    · rcases List.mem_append.mp rest with forked | waits
      · exact other.sound_of_neutral (forks other forked) s'
      · refine (quota.sound other (by simp [waits])).mono (fun sweeps => ?_)
          next
        have counted : 0 < others.countP Act.sweepsNow :=
          List.countP_pos_iff.mpr ⟨other, waits, sweeps⟩
        constructor
        · by_contra off
          rw [if_neg off] at sweeper
          omega
        · by_contra both
          have two : act.sweepsNow = true := by simpa using both
          simp only [two, if_true] at sweeper
          split_ifs at sweeper
          omega

end Step

theorem Quota.perm {s : State} {acts acts' : List Act}
    (quota : Quota s acts) (same : acts.Perm acts') : Quota s acts' where
  ledger := fun ip => by
    rw [quota.ledger ip, (same.map (Act.holds ip)).sum_eq]
  resolves := quota.resolves
  sweeper := by rw [← same.countP_eq, quota.sweeper]
  sound := fun act member => quota.sound act (same.mem_iff.mpr member)

theorem Act.Entry.neutral {act : Act} (entry : act.Entry) :
    act.neutral = true := by
  unfold Act.Entry at entry
  split at entry <;> first | rfl | exact entry.elim

theorem quota_started (cfg : Limits) (buckets : Config)
    (createPerMin maxBuckets : Int) :
    Quota (New cfg buckets createPerMin maxBuckets) [] where
  ledger := fun ip => rfl
  resolves := by simp [Registry.Resolves, New, newRegistry]
  sweeper := rfl
  sound := by simp

/-- Some call of `handleConn` or `dropPeer`, or a pass of the sweep loop with
its releases, is between its steps. -/
def Act.between : Act → Bool
  | .handleConn _ | .dropPeer _ | .sweep _ | .releaseBucket _ => true
  | _ => false

/-- Along every run that keeps quotas, the units counted for an address are
those of its registered buckets and those held by activations; in particular
they are its registered buckets whenever no activation is between its
steps. -/
theorem buckets_balanced (cfg : Limits) (buckets : Config)
    (createPerMin maxBuckets : Int) {pool : Pool State Act}
    (reachable : ((relay.system
      (Started cfg buckets createPerMin maxBuckets)).restrict
      (Program.OnRun QuotaKept)).Reachable pool) :
    Ledger pool.shared pool.acts ∧
      ((∀ act ∈ pool.acts, act.between = false) →
        ∀ ip, pool.shared.limit.buckets ip =
          pool.shared.calls.reg.createdBy ip) := by
  have quota : Quota pool.shared pool.acts := by
    refine Program.invariant Quota ?perm ?initially ?spawned ?preserved
      reachable
    case perm => exact fun same quota => quota.perm same
    case initially =>
      rintro _ rfl
      exact quota_started cfg buckets createPerMin maxBuckets
    case spawned =>
      intro s acts act entry quota
      have neutral := entry.neutral
      refine ⟨fun ip => ?_, quota.resolves, ?_, ?_⟩
      · rw [quota.ledger ip, List.map_cons, List.sum_cons,
          act.holds_of_neutral neutral, Nat.zero_add]
      · rw [List.countP_cons_of_neg (by simp [act.sweepsNow_of_neutral neutral]),
          quota.sweeper]
      · intro other member
        rcases List.mem_cons.mp member with rfl | member
        · exact other.sound_of_neutral neutral s
        · exact quota.sound other member
    case preserved => exact fun quota next kept => quota.step kept next
  refine ⟨quota.ledger, fun quiet ip => ?_⟩
  have none : Neutral pool.acts := by
    intro act member
    have idle := quiet act member
    unfold Act.between at idle
    unfold Act.neutral
    split <;> simp_all
  rw [quota.ledger ip, none.sum, Nat.add_zero]

/-- Alice creates the room and hangs up, and an hour later it is swept. -/
private def expiryMoves : List (Program.Move Act Oracle) :=
  [connects "alice" "192.0.2.1"] ++ runs 0 14 ++ [polls 0 true] ++ runs 2 1 ++
    runs 3 6 ++ [.spawn (.sweep .enter)] ++
    List.replicate 5 (.run 4 (fine 4000))

/-- A test that is enough for the condition. -/
private def keepsQuota (step : Pool State Act × PoolLabel Act Oracle) : Bool :=
  match step.2 with
  | .run (.handleConn (.join _ true _ (.enter args))) _ =>
      (step.1.shared.calls.reg.m.get? args.id).isSome
  | .run (.handleConn (.join _ false _ (.attach _ _ _))) _ => false
  | .run (.dropPeer (.leave _ _ (.enter id _))) _ =>
      (step.1.shared.calls.reg.m.get? id).isSome
  | .run (.dropPeer (.leave _ _ (.marking _ slot ref))) oracle =>
      (step.1.shared.bucket? ref).all fun b => (b.peers slot).any fun q =>
        !shouldDeleteLocked step.1.shared.calls.reg.cfg
          (b.markLeft slot q oracle.now) oracle.now
  | .run (.sweep (.delete _ _ creator _ _)) _ => creator != ""
  | _ => true

private theorem keepsQuota_sound (pool : Pool State Act)
    (label : PoolLabel Act Oracle) (tested : keepsQuota (pool, label) = true) :
    Program.OnRun QuotaKept pool label := by
  cases label with
  | spawn => trivial
  | run act oracle =>
      change QuotaKept pool.shared act oracle
      unfold QuotaKept
      split
      · exact Option.isSome_iff_exists.mp tested
      · cases tested
      · intro missing
        simp [keepsQuota, missing] at tested
      · intro b found
        simp only [keepsQuota, found, Option.all_some] at tested
        obtain ⟨q, occupied, kept⟩ := (Option.any_eq_true _ _).mp tested
        constructor
        · intro empty
          cases empty.symm.trans occupied
        · intro q' occupied' deletes
          obtain rfl := Option.some.inj (occupied.symm.trans occupied')
          simp [deletes] at kept
      · exact bne_iff_ne.mp tested
      · trivial

/-- Alice's address is charged for the room it created, and gets its unit back
when the room is swept. -/
theorem buckets_balanced_expiry :
    ∃ trace pool, ((relay.system (Started roomLimits roomConfig 10 10)).restrict
        (Program.OnRun QuotaKept)).Run ⟨New roomLimits roomConfig 10 10, []⟩
          trace pool ∧
      (∃ entry ∈ trace, entry.1.shared.limit.buckets "192.0.2.1" = 1 ∧
        entry.1.shared.calls.reg.createdBy "192.0.2.1" = 1) ∧
      pool.shared.limit.buckets "192.0.2.1" = 0 ∧
      Ledger pool.shared pool.acts ∧
      ∀ ip, pool.shared.limit.buckets ip =
        pool.shared.calls.reg.createdBy ip := by
  have swept : (relay.play ⟨New roomLimits roomConfig 10 10, []⟩
      expiryMoves).any (fun played => played.1.all keepsQuota &&
        played.1.any (fun step =>
          step.1.shared.limit.buckets "192.0.2.1" = 1 &&
            step.1.shared.calls.reg.createdBy "192.0.2.1" = 1) &&
        played.2.shared.limit.buckets "192.0.2.1" = 0 &&
        played.2.acts.all fun act => act.between = false) = true := by
    decide +kernel
  obtain ⟨⟨trace, pool⟩, played, check⟩ := (Option.any_eq_true _ _).mp swept
  simp only [Bool.and_eq_true, decide_eq_true_eq, List.any_eq_true] at check
  obtain ⟨⟨⟨tested, charged⟩, returned⟩, quiet⟩ := check
  simp only [List.all_eq_true, decide_eq_true_eq] at quiet
  have run := played_restrict keepsQuota_sound played rfl tested
  obtain ⟨ledger, balanced⟩ := buckets_balanced roomLimits roomConfig 10 10
    ((Lts.Reachable.start rfl).run run)
  exact ⟨trace, pool, run, charged, returned, ledger, balanced quiet⟩

/-- Alice and Bob both find no room and take a unit each.  Alice creates the
room, Bob joins it, and both calls return. -/
private def rivalsRun : Option (Pool State Act) :=
  relay.execAll
    (busy [.handleConn (.get (roomRequest "alice" "192.0.2.1")),
      .handleConn (.get (roomRequest "bob" "192.0.2.2"))])
    (List.replicate 3 (0, fine 0) ++ List.replicate 3 (1, fine 0) ++
      List.replicate 11 (0, fine 0) ++ List.replicate 19 (1, fine 0))

/-- Bob's address stays charged for a bucket it did not create. -/
theorem unit_leaked :
    ∃ pool, (relay.system (Started roomLimits roomConfig 10 10)).Reachable
        pool ∧
      (∀ act ∈ pool.acts, act.between = false) ∧
      pool.shared.limit.buckets "192.0.2.2" = 1 ∧
      pool.shared.calls.reg.createdBy "192.0.2.2" = 0 := by
  have leaked : rivalsRun.any (fun pool =>
      pool.acts.all (fun act => act.between = false) &&
        pool.shared.limit.buckets "192.0.2.2" = 1 &&
        pool.shared.calls.reg.createdBy "192.0.2.2" = 0) = true := by decide
  obtain ⟨pool, ran, check⟩ := (Option.any_eq_true _ _).mp leaked
  simp only [Bool.and_eq_true, decide_eq_true_eq, List.all_eq_true] at check
  obtain ⟨⟨quiet, charged⟩, none⟩ := check
  exact ⟨pool, Program.execAll_run (busy_reachable (by simp [Act.Entry])) ran,
    quiet, charged, none⟩

end Byteln.Server.Relay

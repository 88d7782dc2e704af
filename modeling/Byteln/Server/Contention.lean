import Byteln.Server.Calls
import Byteln.Server.Joining

/-!
# Concurrent joins of one bucket

Any number of joins of the same bucket id, with pairwise distinct tokens and
in any interleaving.  Two of them should get a seat each and keep it.  The
creator of the bucket publishes it before it takes its seat, so another join
can sit down there first and be overwritten.  `SeatStillFree` excludes that
one step, and the main theorem shows that nothing else goes wrong.
-/

namespace Byteln.Server

open Byteln.Library

variable {κ δ : Type}

/-- Joins that run to their return; no call is added later. -/
def contenders (κ δ : Type) : Program (Shared κ δ) (JoinCall κ) Oracle where
  next := fun oracle call shared =>
    (call.next oracle shared).map fun (shared, call) => (shared, [call])
  entry := fun _ => False

/-- Joins of one bucket id with pairwise distinct non-empty tokens, about to
start on an arbitrary registry. -/
def Contending (id : String) (pool : Pool (Shared κ δ) (JoinCall κ)) : Prop :=
  (∀ call ∈ pool.acts, ∃ args, call = .enter args ∧ args.id = id ∧
    args.token ≠ "") ∧
  (pool.acts.map fun call => call.args.token).Nodup

/-- The slot of a join that returned without rejection. -/
def JoinCall.acceptedSlot : JoinCall κ → Option Slot
  | .returned _ result =>
      if result.rejected then none else some result.slot
  | _ => none

/-- What the accepted joins among some calls were promised: a slot each, and
their own connection in it. -/
structure Seated (reg : Registry κ δ) (calls : List (JoinCall κ)) : Prop where
  distinct : (calls.filterMap JoinCall.acceptedSlot).Nodup
  atMostTwo : (calls.filterMap JoinCall.acceptedSlot).length ≤ 2
  stored : ∀ args result, .returned args result ∈ calls →
    result.rejected = false →
    ∃ b p, reg.heap[result.bucket]? = some b ∧
      b.peers result.slot = some p ∧ p.conn = some args.conn

/-- The condition on a step: the creator of a bucket finds seat 0 empty. -/
def SeatStillFree (shared : Shared κ δ) : JoinCall κ → Oracle → Prop
  | .create _ _ ref, _ =>
      ∀ b, shared.reg.heap[ref]? = some b → b.peers 0 = none
  | _, _ => True

/-! ## The invariant -/

/-- The bucket a join has found, published or returned. -/
def JoinCall.bucket : JoinCall κ → Option Ref
  | .enter _ => none
  | .create _ _ ref | .attach _ _ ref => some ref
  | .returned _ result => some result.bucket

/-- The call holds a seat of its own: connected, under its token and with its
connection. -/
def Holds (reg : Registry κ δ) (args : JoinArgs κ) (result : JoinResult) :
    Prop :=
  ∃ b p, reg.heap[result.bucket]? = some b ∧ b.peers result.slot = some p ∧
    p.connected = true ∧ p.token = args.token ∧ p.conn = some args.conn

structure Contest (id : String) (reg : Registry κ δ)
    (calls : List (JoinCall κ)) : Prop where
  sameId : ∀ call ∈ calls, call.args.id = id
  tokens : (calls.map fun call => call.args.token).Nodup
  registered : ∀ call ∈ calls, ∀ ref, call.bucket = some ref →
    reg.m.get? id = some ref
  holds : ∀ args result, .returned args result ∈ calls →
    result.rejected = false → Holds reg args result
  /-- Only accepted joins sit in a bucket whose creator is not seated yet. -/
  creating : ∀ args now ref, .create args now ref ∈ calls →
    ∃ b, reg.heap[ref]? = some b ∧ ∀ slot p, b.peers slot = some p →
      ∃ args' result, .returned args' result ∈ calls ∧
        result.rejected = false ∧ result.slot = slot

theorem JoinCall.acceptedSlot_eq_some {call : JoinCall κ} {slot : Slot}
    (accepted : call.acceptedSlot = some slot) :
    ∃ args result, call = .returned args result ∧ result.rejected = false ∧
      result.slot = slot := by
  cases call with
  | returned args result =>
      simp only [acceptedSlot] at accepted
      split at accepted
      · simp at accepted
      · rename_i notRejected
        exact ⟨args, result, rfl, by simpa using notRejected,
          by simpa using accepted⟩
  | enter | create | attach => simp [acceptedSlot] at accepted

private theorem slots_le_two {slots : List Slot} (distinct : slots.Nodup) :
    slots.length ≤ 2 := by
  simpa using distinct.length_le_card

/-- Accepted joins hold seats under distinct tokens, so the seats are
distinct. -/
theorem Contest.seated {id : String} {reg : Registry κ δ}
    {calls : List (JoinCall κ)} (contest : Contest id reg calls) :
    Seated reg calls := by
  have distinct : (calls.filterMap JoinCall.acceptedSlot).Nodup := by
    rw [List.Nodup, List.pairwise_filterMap]
    refine (List.pairwise_map.mp contest.tokens).imp_of_mem ?_
    rintro first second firstMember secondMember different slot
      firstAccepted slot' secondAccepted rfl
    obtain ⟨args, result, rfl, accepted, atSlot⟩ :=
      JoinCall.acceptedSlot_eq_some firstAccepted
    obtain ⟨args', result', rfl, accepted', atSlot'⟩ :=
      JoinCall.acceptedSlot_eq_some secondAccepted
    obtain ⟨b, p, found, seated, -, token, -⟩ :=
      contest.holds args result firstMember accepted
    obtain ⟨b', p', found', seated', -, token', -⟩ :=
      contest.holds args' result' secondMember accepted'
    have sameBucket : result.bucket = result'.bucket := by
      have here := contest.registered _ firstMember _ rfl
      have there := contest.registered _ secondMember _ rfl
      simpa [here] using there
    rw [sameBucket] at found
    obtain rfl : b = b' := by simpa [found] using found'
    rw [atSlot, ← atSlot'] at seated
    obtain rfl : p = p' := by simpa [seated] using seated'
    exact different (token.symm.trans token')
  refine ⟨distinct, slots_le_two distinct, ?_⟩
  intro args result member accepted
  obtain ⟨b, p, found, seated, -, -, conn⟩ :=
    contest.holds args result member accepted
  exact ⟨b, p, found, seated, conn⟩

theorem Contest.perm {id : String} {reg : Registry κ δ}
    {calls calls' : List (JoinCall κ)} (contest : Contest id reg calls)
    (same : calls.Perm calls') : Contest id reg calls' where
  sameId := fun call member => contest.sameId call (same.mem_iff.mpr member)
  tokens := (same.map _).nodup_iff.mp contest.tokens
  registered := fun call member =>
    contest.registered call (same.mem_iff.mpr member)
  holds := fun args result member =>
    contest.holds args result (same.mem_iff.mpr member)
  creating := fun args now ref member => by
    obtain ⟨b, found, occupants⟩ :=
      contest.creating args now ref (same.mem_iff.mpr member)
    refine ⟨b, found, fun slot p occupied => ?_⟩
    obtain ⟨args', result, returned, accepted⟩ := occupants slot p occupied
    exact ⟨args', result, same.mem_iff.mp returned, accepted⟩

theorem Seated.perm {reg : Registry κ δ} {calls calls' : List (JoinCall κ)}
    (seated : Seated reg calls) (same : calls.Perm calls') :
    Seated reg calls' where
  distinct := (same.filterMap _).nodup_iff.mp seated.distinct
  atMostTwo := (same.filterMap _).length_eq ▸ seated.atMostTwo
  stored := fun args result member =>
    seated.stored args result (same.mem_iff.mpr member)

/-! ## One section -/

/-- The seats across the bucket section of a join that answers `result`. -/
def Sits (reg : Registry κ δ) (args : JoinArgs κ) (reg' : Registry κ δ)
    (result : JoinResult) : Prop :=
  reg'.m = reg.m ∧
  ∀ ref b, reg.heap[ref]? = some b →
    ∃ b' now, reg'.heap[ref]? = some b' ∧
      ∀ slot, SeatChange reg.cfg now args (result.outcome ref) slot
        (b.peers slot) (b'.peers slot)

theorem Registry.joinAttach_sits (r : Registry κ δ) (now : Time)
    (args : JoinArgs κ) (target : Ref) :
    Sits r args (r.joinAttach now args target).1
      (r.joinAttach now args target).2 := by
  constructor
  · unfold joinAttach
    split <;> rfl
  · intro ref b found
    obtain ⟨b', found', seats⟩ := r.joinAttach_heap now args target ref found
    exact ⟨b', now, found', seats⟩

/-- A creator that finds its seat empty sits down like any other join. -/
theorem Registry.joinCreate_sits (r : Registry κ δ) (now : Time)
    (args : JoinArgs κ) (target : Ref)
    (vacant : ∀ b, r.heap[target]? = some b → b.peers 0 = none) :
    Sits r args (r.joinCreate now args target).1
      (r.joinCreate now args target).2 := by
  refine ⟨rfl, fun ref b found => ?_⟩
  by_cases same : target = ref
  · subst ref
    refine ⟨b.setPeer 0 (some (args.peer now)), now,
      by simp [joinCreate, found], fun slot => ?_⟩
    by_cases first : slot = 0
    · subst slot
      rw [setPeer_peers_self]
      exact .taken (by simp [joinCreate, JoinResult.outcome])
        (by simp [vacant b found])
    · rw [setPeer_peers_of_ne _ _ first]
      refine .kept ?_
      simpa [joinCreate, JoinResult.outcome] using fun equality =>
        first equality.symm
  · exact ⟨b, now, by simp [joinCreate, same, found], fun slot =>
      .kept (by simp [joinCreate, JoinResult.outcome, same])⟩

/-- A seat a join reports is connected, under its token and with its
connection. -/
theorem SeatChange.seated {cfg : Config} {now : Time} {args : JoinArgs κ}
    {outcome : Option Slot} {slot : Slot} {before after : Option (Peer κ)}
    (change : SeatChange cfg now args outcome slot before after)
    (here : outcome = some slot) :
    ∃ p, after = some p ∧ p.connected = true ∧ p.token = args.token ∧
      p.conn = some args.conn := by
  cases change with
  | kept elsewhere => exact absurd here elsewhere
  | cleared elsewhere => exact absurd here elsewhere
  | reclaimed _ _ sameToken =>
      exact ⟨_, rfl, rfl, sameToken.symm, rfl⟩
  | taken => exact ⟨_, rfl, rfl, rfl, rfl⟩

/-- A join that returns without rejection has stored its connection in the seat
it reports. -/
theorem join_seats {oracle : Oracle} {call : JoinCall κ} {result : JoinResult}
    {shared shared' : Shared κ δ} {b : Bucket κ δ}
    (step : CallStep oracle shared (.join call) shared'
      (.join (.returned call.args result)))
    (accepted : result.rejected = false)
    (found : shared.reg.heap[result.bucket]? = some b) :
    ∃ b' q, shared'.reg.heap[result.bucket]? = some b' ∧
      b'.peers result.slot = some q ∧ q.connected = true ∧
      q.conn = some call.args.conn := by
  generalize callEq : JoinCall.returned call.args result = returned at step
  cases step with
  | joinFound | joinPublish => cases callEq
  | @joinCreate args now target =>
      cases callEq
      have target_found : shared.reg.heap[target]? = some b := found
      exact ⟨b.setPeer 0 (some (args.peer now)), args.peer now,
        by simp [Registry.joinCreate, target_found], setPeer_peers_self _ _ _,
        rfl, rfl⟩
  | @joinAttach args now target =>
      cases callEq
      rw [Registry.joinAttach_bucket] at found ⊢
      obtain ⟨b', found', seats⟩ :=
        shared.reg.joinAttach_heap now args target target found
      have here : (shared.reg.joinAttach now args target).2.outcome target =
          some (shared.reg.joinAttach now args target).2.slot :=
        JoinResult.outcome_eq_some.mpr
          ⟨Registry.joinAttach_bucket _ _ _ _, accepted, rfl⟩
      obtain ⟨q, occupied, connected, -, stored⟩ :=
        SeatChange.seated (seats _) here
      exact ⟨b', q, found', occupied, connected, stored⟩

/-- A seat somebody holds survives the join of somebody else. -/
theorem Holds.of_sits {reg reg' : Registry κ δ} {args joiner : JoinArgs κ}
    {result outcome : JoinResult} (holds : Holds reg args result)
    (sits : Sits reg joiner reg' outcome)
    (different : joiner.token ≠ args.token) : Holds reg' args result := by
  obtain ⟨b, p, found, seated, connected, token, conn⟩ := holds
  obtain ⟨b', now, found', seats⟩ := sits.2 _ b found
  have change := seats result.slot
  rw [seated] at change
  have held : peerSeatHeld p now reg.cfg.reclaimTTL = true := by
    simp [peerSeatHeld, connected]
  rcases change.of_held held with ⟨_, after⟩ | ⟨_, _, _, sameToken, _⟩
  · exact ⟨b', p, found', after, connected, token, conn⟩
  · exact absurd (sameToken.trans token) different

/-- The contest goes on after a join's section in its bucket. -/
theorem Contest.sit {id : String} {reg reg' : Registry κ δ}
    {call : JoinCall κ} {others : List (JoinCall κ)} {target : Ref}
    {result : JoinResult}
    (contest : Contest id reg (call :: others))
    (pending : call.bucket = some target)
    (running : call.acceptedSlot = none)
    (sameBucket : result.bucket = target)
    (present : result.rejected = false → ∃ b, reg.heap[target]? = some b)
    (sits : Sits reg call.args reg' result) :
    Contest id reg' (.returned call.args result :: others) := by
  have targetRegistered := contest.registered call (by simp) target pending
  have foreign : ∀ other ∈ others, call.args.token ≠ other.args.token := by
    have distinct := contest.tokens
    simp only [List.map_cons, List.nodup_cons, List.mem_map] at distinct
    intro other member equality
    exact distinct.1 ⟨other, member, equality.symm⟩
  constructor
  · intro other member
    rcases List.mem_cons.mp member with rfl | member
    · exact contest.sameId call (by simp)
    · exact contest.sameId other (by simp [member])
  · simpa [JoinCall.args] using contest.tokens
  · intro other member ref inBucket
    rw [sits.1]
    rcases List.mem_cons.mp member with rfl | member
    · simp only [JoinCall.bucket, Option.some.injEq] at inBucket
      rwa [← inBucket, sameBucket]
    · exact contest.registered other (by simp [member]) ref inBucket
  · intro args' result' member accepted
    rcases List.mem_cons.mp member with same | member
    · obtain ⟨rfl, rfl⟩ := JoinCall.returned.inj same
      obtain ⟨b, found⟩ := present accepted
      obtain ⟨b', now, found', seats⟩ := sits.2 target b found
      obtain ⟨p, after, connected, token, conn⟩ :=
        (seats result'.slot).seated
          (by simp [JoinResult.outcome, sameBucket, accepted])
      exact ⟨b', p, sameBucket ▸ found', after, connected, token, conn⟩
    · exact (contest.holds args' result' (by simp [member]) accepted).of_sits
        sits (foreign _ member)
  · intro args' now ref member
    have member : .create args' now ref ∈ others := by simpa using member
    obtain ⟨b, found, occupants⟩ :=
      contest.creating args' now ref (by simp [member])
    have sameRef : ref = target := by
      have here := contest.registered _ (List.mem_cons_of_mem call member) ref
        rfl
      simpa [targetRegistered] using here.symm
    obtain ⟨b', time, found', seats⟩ := sits.2 ref b found
    refine ⟨b', found', fun slot p occupied => ?_⟩
    by_cases here : result.outcome ref = some slot
    · have accepted : result.rejected = false ∧ result.slot = slot := by
        simpa [JoinResult.outcome, sameBucket, sameRef] using here
      exact ⟨call.args, result, by simp, accepted⟩
    · have change := seats slot
      rw [occupied] at change
      generalize beforeEq : b.peers slot = before at change
      have before : b.peers slot = some p := by
        cases change with
        | kept => exact beforeEq
        | reclaimed there => exact absurd there here
        | taken there => exact absurd there here
      obtain ⟨args'', result'', returned, accepted⟩ := occupants slot p before
      have returned : .returned args'' result'' ∈ others := by
        rcases List.mem_cons.mp returned with same | later
        · rw [← same] at running
          simp [JoinCall.acceptedSlot, accepted.1] at running
        · exact later
      exact ⟨args'', result'', by simp [returned], accepted⟩

/-- The contest goes on when a join has found or published its bucket. -/
theorem Contest.enter {id : String} {reg reg' : Registry κ δ}
    {args : JoinArgs κ} {call' : JoinCall κ} {others : List (JoinCall κ)}
    {target : Ref}
    (contest : Contest id reg (.enter args :: others))
    (kept : ∀ (ref : Ref) b, reg.heap[ref]? = some b →
      reg'.heap[ref]? = some b)
    (mapped : ∀ ref, reg.m.get? id = some ref → reg'.m.get? id = some ref)
    (sameArgs : call'.args = args)
    (found : call'.bucket = some target)
    (registered : reg'.m.get? id = some target)
    (running : ∀ args result, call' ≠ .returned args result)
    (creating : ∀ args now (ref : Ref), call' = .create args now ref →
      ∃ b, reg'.heap[ref]? = some b ∧ ∀ slot, b.peers slot = none) :
    Contest id reg' (call' :: others) := by
  constructor
  · intro other member
    rcases List.mem_cons.mp member with rfl | member
    · exact sameArgs ▸ contest.sameId (.enter args) (by simp)
    · exact contest.sameId other (by simp [member])
  · rw [List.map_cons, sameArgs]
    exact contest.tokens
  · intro other member ref inBucket
    rcases List.mem_cons.mp member with rfl | member
    · obtain rfl : target = ref := by simpa [found] using inBucket
      exact registered
    · exact mapped ref
        (contest.registered other (by simp [member]) ref inBucket)
  · intro args' result member accepted
    rcases List.mem_cons.mp member with same | member
    · exact absurd same.symm (running args' result)
    · obtain ⟨b, p, inHeap, seat⟩ :=
        contest.holds args' result (by simp [member]) accepted
      exact ⟨b, p, kept _ b inHeap, seat⟩
  · intro args' now ref member
    rcases List.mem_cons.mp member with same | member
    · obtain ⟨b, inHeap, vacant⟩ := creating args' now ref same.symm
      exact ⟨b, inHeap, by simp [vacant]⟩
    · obtain ⟨b, inHeap, occupants⟩ :=
        contest.creating args' now ref (by simp [member])
      refine ⟨b, kept ref b inHeap, fun slot p occupied => ?_⟩
      obtain ⟨args'', result, returned, accepted⟩ := occupants slot p occupied
      exact ⟨args'', result, by simpa using .inr (by simpa using returned),
        accepted⟩

theorem Contest.step {id : String} {oracle : Oracle}
    {shared shared' : Shared κ δ} {call call' : JoinCall κ}
    {others : List (JoinCall κ)}
    (contest : Contest id shared.reg (call :: others))
    (step : CallStep oracle shared (.join call) shared' (.join call'))
    (free : SeatStillFree shared call oracle) :
    Contest id shared'.reg (call' :: others) := by
  cases step with
  | @joinFound args ref _ registered =>
      have sameId : args.id = id := contest.sameId (.enter args) (by simp)
      exact contest.enter (fun _ _ found => found) (fun _ mapped => mapped)
        rfl rfl (sameId ▸ registered) (by simp) (by simp)
  | @joinPublish args b _ absent _ _ _ vacant =>
      have sameId : args.id = id := contest.sameId (.enter args) (by simp)
      refine contest.enter ?_ ?_ rfl rfl ?_ (by simp) ?_
      · intro ref c found
        obtain ⟨inBounds, -⟩ := List.getElem?_eq_some_iff.mp found
        rwa [List.getElem?_append_left inBounds]
      · intro ref mapped
        simp [← sameId, absent] at mapped
      · simp [sameId]
      · rintro args' now ref equality
        obtain ⟨rfl, rfl, rfl⟩ := JoinCall.create.inj equality
        exact ⟨b, by simp, vacant⟩
  | @joinCreate args now ref =>
      obtain ⟨b, found, -⟩ := contest.creating args now ref (by simp)
      exact contest.sit rfl rfl rfl (fun _ => ⟨b, found⟩)
        (shared.reg.joinCreate_sits now args ref free)
  | @joinAttach args now ref =>
      refine contest.sit rfl rfl ?_ ?_
        (shared.reg.joinAttach_sits now args ref)
      · unfold Registry.joinAttach Registry.attachResult
        split
        · rfl
        · simp only
          split <;> rfl
      · intro accepted
        cases found : shared.reg.heap[ref]? with
        | some b => exact ⟨b, rfl⟩
        | none =>
            simp [Registry.joinAttach, found, Registry.attachResult]
              at accepted

/-- From a contest going well, a step leaves the accepted joins seated exactly
when it meets the condition. -/
theorem Contest.seatStillFree_iff {id : String} {oracle : Oracle}
    {shared shared' : Shared κ δ} {call call' : JoinCall κ}
    {others : List (JoinCall κ)}
    (contest : Contest id shared.reg (call :: others))
    (step : CallStep oracle shared (.join call) shared' (.join call')) :
    SeatStillFree shared call oracle ↔
      Seated shared'.reg (call' :: others) := by
  refine ⟨fun free => (contest.step step free).seated, fun seated => ?_⟩
  cases step with
  | joinFound | joinPublish | joinAttach => trivial
  | @joinCreate args now ref =>
      intro b found
      obtain ⟨c, cFound, occupants⟩ := contest.creating args now ref (by simp)
      obtain rfl : b = c := by simpa [found] using cFound
      by_contra occupied
      obtain ⟨p, occupied⟩ := Option.ne_none_iff_exists'.mp occupied
      obtain ⟨args', result, returned, accepted, atSlot⟩ :=
        occupants 0 p occupied
      have returned : .returned args' result ∈ others := by
        simpa using returned
      have first : (JoinCall.returned args
          (shared.reg.joinCreate now args ref).2).acceptedSlot = some 0 := by
        simp [JoinCall.acceptedSlot, Registry.joinCreate]
      have distinct := seated.distinct
      rw [List.filterMap_cons_some first, List.nodup_cons] at distinct
      exact distinct.1 (List.mem_filterMap.mpr
        ⟨_, returned, by simp [JoinCall.acceptedSlot, accepted, atSlot]⟩)

/-! ## Runs -/

/-- In every run of concurrent joins of one bucket in which no creator finds
its seat taken, accepted joins return distinct slots, at most two of them, and
each slot holds the connection of the join that returned it.  From every state
such a run reaches, the next section of any join keeps that so exactly when it
meets the condition. -/
theorem contenders_seated (id : String)
    {pool : Pool (Shared κ δ) (JoinCall κ)}
    (reachable : (((contenders κ δ).system (Contending id)).restrict
      (Program.OnRun SeatStillFree)).Reachable pool) :
    Seated pool.shared.reg pool.acts ∧
      ∀ call oracle pool', (contenders κ δ).Step pool (.run call oracle) pool' →
        (SeatStillFree pool.shared call oracle ↔
          Seated pool'.shared.reg pool'.acts) := by
  have nextStep : ∀ {oracle call calls'} {shared shared' : Shared κ δ},
      (contenders κ δ).next oracle call shared = some (shared', calls') →
      ∃ call', calls' = [call'] ∧
        CallStep oracle shared (.join call) shared' (.join call') := by
    intro oracle call calls' shared shared' next
    obtain ⟨⟨_, call'⟩, taken, result⟩ := Option.map_eq_some_iff.mp next
    cases result
    exact ⟨call', rfl, call.next_step taken⟩
  have contest : Contest id pool.shared.reg pool.acts := by
    refine Program.invariant (fun shared acts => Contest id shared.reg acts)
      ?perm ?initially ?spawned ?preserved reachable
    case perm => exact fun same contest => contest.perm same
    case initially =>
      rintro pool ⟨entering, tokens⟩
      constructor
      · intro call member
        obtain ⟨args, rfl, sameId, -⟩ := entering call member
        exact sameId
      · exact tokens
      · intro call member ref inBucket
        obtain ⟨args, rfl, -⟩ := entering call member
        simp [JoinCall.bucket] at inBucket
      · intro args result member
        obtain ⟨_, impossible, -⟩ := entering _ member
        simp at impossible
      · intro args now ref member
        obtain ⟨_, impossible, -⟩ := entering _ member
        simp at impossible
    case spawned => exact fun entry => entry.elim
    case preserved =>
      intro shared shared' call calls' others oracle contest next free
      obtain ⟨call', rfl, step⟩ := nextStep next
      exact contest.step step free
  refine ⟨contest.seated, fun call oracle pool' step => ?_⟩
  obtain ⟨calls', others, next, before, after⟩ := Program.Step.run_inv step
  obtain ⟨call', rfl, taken⟩ := nextStep next
  rw [(contest.perm before).seatStillFree_iff taken]
  exact ⟨fun seated => seated.perm after.symm,
    fun seated => seated.perm after⟩

/-- Two joins of a room nobody has created. -/
def rivals : Pool (Shared String String) (JoinCall String) :=
  ⟨⟨newRegistry roomConfig, false⟩,
    [[.enter (roomJoin "alice" "first")], [.enter (roomJoin "bob" "second")]]⟩

theorem rivals_contending : Contending "room" rivals :=
  ⟨by simp [rivals, Pool.acts, roomJoin], by decide⟩

/-- The second join finds the bucket before its creator sits down, but takes a
seat only after it. -/
private def politeMoves : List (Program.Move (JoinCall String) Oracle) :=
  [0, 1, 0, 1].map fun position => .run position ⟨0, []⟩

/-- The condition, as a test. -/
private def seatStillFree (step : Pool (Shared String String)
    (JoinCall String) × PoolLabel (JoinCall String) Oracle) : Bool :=
  match step.2 with
  | .run (.create _ _ ref) _ =>
      (step.1.shared.reg.heap[ref]?).all fun b => (b.peers 0).isNone
  | _ => true

private theorem seatStillFree_sound
    (pool : Pool (Shared String String) (JoinCall String))
    (label : PoolLabel (JoinCall String) Oracle)
    (tested : seatStillFree (pool, label) = true) :
    Program.OnRun SeatStillFree pool label := by
  cases label with
  | spawn => trivial
  | run call oracle =>
      cases call with
      | create args now ref =>
          intro b found
          simp only [seatStillFree, found, Option.all_some] at tested
          exact Option.isNone_iff_eq_none.mp tested
      | enter | attach | returned => trivial

/-- Both joins return, the creator with the first seat. -/
theorem contenders_seated_rivals :
    ∃ pool, (((contenders String String).system (Contending "room")).restrict
        (Program.OnRun SeatStillFree)).Reachable pool ∧
      pool.acts.filterMap JoinCall.acceptedSlot = [0, 1] ∧
      Seated pool.shared.reg pool.acts := by
  have polite : ((contenders String String).play rivals politeMoves).any
      (fun played => played.1.all seatStillFree &&
        played.2.acts.filterMap JoinCall.acceptedSlot = [0, 1]) = true := by
    decide
  obtain ⟨⟨trace, pool⟩, played, check⟩ := (Option.any_eq_true _ _).mp polite
  simp only [Bool.and_eq_true, decide_eq_true_eq] at check
  obtain ⟨tested, accepted⟩ := check
  have run : ((contenders String String).system (Contending "room")).Run
      rivals trace pool :=
    Program.play_run (by simp [politeMoves]) played
  have polite := Lts.run_restrict_iff.mpr ⟨run, fun entry member =>
    seatStillFree_sound entry.1 entry.2
      (List.all_eq_true.mp tested entry member)⟩
  have reachable := (Lts.Reachable.start rivals_contending).run polite
  exact ⟨pool, reachable, accepted, (contenders_seated "room" reachable).1⟩

/-- The second join sits down in the bucket before its creator does. -/
theorem rivals_share_slot :
    ∃ pool, ((contenders String String).system (Contending "room")).Reachable
        pool ∧
      (∀ call ∈ pool.acts, ∃ args result, call = .returned args result) ∧
      ¬ Seated pool.shared.reg pool.acts := by
  have shared : ((contenders String String).execAll rivals
      [(0, ⟨0, []⟩), (1, ⟨0, []⟩), (1, ⟨0, []⟩), (0, ⟨0, []⟩)]).any (fun pool =>
        pool.acts.filterMap JoinCall.acceptedSlot = [0, 0] &&
        pool.acts.all fun
          | .returned _ _ => true
          | _ => false) = true := by decide
  obtain ⟨pool, ran, check⟩ := (Option.any_eq_true _ _).mp shared
  simp only [Bool.and_eq_true, decide_eq_true_eq, List.all_eq_true] at check
  refine ⟨pool, Program.execAll_run (.start rivals_contending) ran, ?_, ?_⟩
  · intro call member
    have returned := check.2 call member
    split at returned
    · exact ⟨_, _, rfl⟩
    · simp at returned
  · intro seated
    have distinct := seated.distinct
    rw [check.1] at distinct
    simp at distinct

end Byteln.Server

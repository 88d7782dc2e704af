import Byteln.Server.Calls
import Byteln.Server.Joining

/-!
# Occupied buckets and the registry map

A bucket with a connected seat should be the bucket the registry map holds
under its id.  `Join` gives up the registry mutex before it takes the bucket
mutex, and a sweep gives up the bucket mutex before it deletes the map entry,
so a removal can slip in between.  `KeepsRegistered` is the condition on a
single step under which it does not, and the main theorem shows that this
condition is exact.
-/

namespace Byteln.Server

open Byteln.Library

variable {κ δ : Type}

/-! ## The heap only grows -/

/-- Every bucket of the first registry is still there, under the same id and
the same creator. -/
def Extends (before after : Registry κ δ) : Prop :=
  ∀ (ref : Ref) (b : Bucket κ δ), before.heap[ref]? = some b →
    ∃ b' : Bucket κ δ, after.heap[ref]? = some b' ∧ b'.id = b.id ∧
      b'.creatorIP = b.creatorIP

theorem Extends.refl (r : Registry κ δ) : Extends r r :=
  fun _ b found => ⟨b, found, rfl, rfl⟩

/-- Replacing a bucket by one with the same id and creator extends the
registry. -/
theorem Registry.setBucket_extends {r : Registry κ δ} {target : Ref}
    {old new : Bucket κ δ} (found : r.heap[target]? = some old)
    (sameId : new.id = old.id) (sameCreator : new.creatorIP = old.creatorIP) :
    Extends r (r.setBucket target new) := by
  intro ref b inHeap
  obtain ⟨inBounds, -⟩ := List.getElem?_eq_some_iff.mp inHeap
  by_cases same : target = ref
  · subst ref
    obtain rfl : old = b := by simpa [found] using inHeap
    exact ⟨new, by simp [setBucket, inBounds], sameId, sameCreator⟩
  · exact ⟨b, by simpa [setBucket, same] using inHeap, rfl, rfl⟩

theorem Registry.joinCreate_extends (r : Registry κ δ) (now : Time)
    (args : JoinArgs κ) (target : Ref) :
    Extends r (r.joinCreate now args target).1 := by
  intro ref b inHeap
  by_cases same : target = ref
  · subst ref
    exact ⟨b.setPeer 0 (some (args.peer now)),
      by simp [joinCreate, inHeap], rfl, rfl⟩
  · exact ⟨b, by simp [joinCreate, same, inHeap], rfl, rfl⟩

theorem Registry.joinAttach_extends (r : Registry κ δ) (now : Time)
    (args : JoinArgs κ) (target : Ref) :
    Extends r (r.joinAttach now args target).1 := by
  unfold joinAttach
  cases found : r.heap[target]? with
  | none => exact .refl r
  | some b =>
      obtain ⟨peers, frame⟩ := join_frame r.cfg now args b
      exact setBucket_extends found (by rw [frame]) (by rw [frame])

theorem Registry.leaveSection_extends (r : Registry κ δ) (now : Time)
    (id : String) (slot : Slot) (target : Ref) :
    Extends r (r.leaveSection now id slot target).1 := by
  rcases r.leaveSection_cases now id slot target with
    ⟨_, unchanged⟩ | ⟨b, p, found, _, _, heapEq, _⟩
  · rw [unchanged]
    exact .refl r
  · intro ref c inHeap
    rw [heapEq]
    exact setBucket_extends found (Eq.refl (b.markLeft slot p now).id) rfl
      ref c inHeap

theorem CallStep.extends {oracle : Oracle} {call call' : Call κ}
    {shared shared' : Shared κ δ}
    (step : CallStep oracle shared call shared' call') :
    Extends shared.reg shared'.reg := by
  cases step with
  | joinFound | leaveMissing | leaveFound | sweepEnter | sweepEnd
  | sweepKeep | sweepCondemn => exact .refl shared.reg
  | joinPublish =>
      intro ref b inHeap
      obtain ⟨inBounds, -⟩ := List.getElem?_eq_some_iff.mp inHeap
      exact ⟨b, by simp [List.getElem?_append_left inBounds, inHeap],
        rfl, rfl⟩
  | joinCreate => exact shared.reg.joinCreate_extends _ _ _
  | joinAttach => exact shared.reg.joinAttach_extends _ _ _
  | leaveMark => exact shared.reg.leaveSection_extends _ _ _ _
  | sweepDelete => exact fun ref b found => ⟨b, found, rfl, rfl⟩

/-! ## References held by calls -/

/-- The bucket a call works on, with the id it looked it up under. -/
def Call.target : Call κ → Option (String × Ref)
  | .join (.create args _ ref) | .join (.attach args _ ref) =>
      some (args.id, ref)
  | .leave (.marking id _ ref) => some (id, ref)
  | _ => none

theorem Call.Entry.target {call : Call κ} (entry : call.Entry) :
    call.target = none := by
  cases call with
  | join call => cases call <;> first | rfl | exact entry.elim
  | leave call => cases call <;> first | rfl | exact entry.elim
  | sweep call => rfl

/-- Every reference, in the map or in a call, leads to a bucket with the id it
is used for. -/
structure Wired (reg : Registry κ δ) (calls : List (Call κ)) : Prop where
  registered : ∀ id ref, reg.m.get? id = some ref →
    ∃ b, reg.heap[ref]? = some b ∧ b.id = id
  targeted : ∀ call ∈ calls, ∀ id ref, call.target = some (id, ref) →
    ∃ b, reg.heap[ref]? = some b ∧ b.id = id

/-- A registration that appears in a step is that of a bucket published in
it. -/
theorem CallStep.registered {oracle : Oracle} {call call' : Call κ}
    {shared shared' : Shared κ δ} {id : String} {ref : Ref}
    (step : CallStep oracle shared call shared' call')
    (registered : shared'.reg.m.get? id = some ref) :
    shared.reg.m.get? id = some ref ∨
      ∃ b, shared'.reg.heap[ref]? = some b ∧ b.id = id := by
  have ofErase : ∀ {erased : String},
      (shared.reg.m.erase erased).get? id = some ref →
      shared.reg.m.get? id = some ref := by
    intro erased found
    rw [InsertionMap.get?_erase] at found
    split at found
    · simp at found
    · exact found
  cases step with
  | joinFound | joinCreate | leaveMissing | leaveFound | sweepEnter
  | sweepEnd | sweepKeep | sweepCondemn => exact .inl registered
  | @joinPublish args b _ _ sameId =>
      rw [InsertionMap.get?_set] at registered
      split at registered
      · rename_i sameKey
        simp only [Option.some.injEq] at registered
        exact .inr ⟨b, by simp [← registered], sameId.trans sameKey.symm⟩
      · exact .inl registered
  | @joinAttach args now target =>
      refine .inl ?_
      simp only [Registry.joinAttach] at registered
      split at registered <;> exact registered
  | @leaveMark leftId slot target =>
      refine .inl ?_
      rcases shared.reg.leaveSection_cases oracle.now leftId slot target with
        ⟨_, unchanged⟩ | ⟨b, p, _, _, _, _, _, mapEq⟩
      · rwa [unchanged] at registered
      · rw [mapEq] at registered
        split at registered
        · exact ofErase registered
        · exact registered
  | sweepDelete => exact .inl (ofErase registered)

theorem Wired.step {oracle : Oracle} {call call' : Call κ}
    {others : List (Call κ)} {shared shared' : Shared κ δ}
    (wired : Wired shared.reg (call :: others))
    (step : CallStep oracle shared call shared' call') :
    Wired shared'.reg (call' :: others) := by
  have carried : ∀ {id : String} {ref : Ref},
      (∃ b, shared.reg.heap[ref]? = some b ∧ b.id = id) →
      ∃ b, shared'.reg.heap[ref]? = some b ∧ b.id = id := by
    rintro id ref ⟨b, found, rfl⟩
    obtain ⟨b', found', sameId, -⟩ := step.extends ref b found
    exact ⟨b', found', sameId⟩
  constructor
  · intro id ref registered
    rcases step.registered registered with before | published
    · exact carried (wired.registered id ref before)
    · exact published
  · intro other member id ref target
    rcases List.mem_cons.mp member with rfl | member
    · cases step with
      | joinFound _ registered | leaveFound _ registered =>
          simp only [Call.target, Option.some.injEq, Prod.mk.injEq] at target
          obtain ⟨rfl, rfl⟩ := target
          exact wired.registered _ _ registered
      | @joinPublish args b _ _ sameId =>
          simp only [Call.target, Option.some.injEq, Prod.mk.injEq] at target
          obtain ⟨rfl, rfl⟩ := target
          exact ⟨b, by simp, sameId⟩
      | joinCreate | joinAttach | leaveMissing | leaveMark | sweepEnter
      | sweepEnd | sweepKeep | sweepCondemn | sweepDelete =>
          simp [Call.target] at target
    · exact carried (wired.targeted other (by simp [member]) id ref target)

/-! ## Connected seats and registration -/

def Bucket.Connected (b : Bucket κ δ) : Prop :=
  ∃ slot p, b.peers slot = some p ∧ p.connected = true

/-- Each bucket with a connected seat is the one the map holds under its
id. -/
def OccupiedRegistered (reg : Registry κ δ) : Prop :=
  ∀ (ref : Ref) (b : Bucket κ δ), reg.heap[ref]? = some b → b.Connected →
    reg.m.get? b.id = some ref

/-- A join that returns without rejection returns the bucket registered under
the id it was called with. -/
def ReturnsRegistered (reg : Registry κ δ) (call : Call κ) : Prop :=
  ∀ args result, call = .join (.returned args result) →
    result.rejected = false → reg.m.get? args.id = some result.bucket

/-- The condition on a step.  A join finds its bucket still registered, or with
no seat for its caller; a step that deletes a map entry finds no connected seat
in the bucket the entry leads to, other than the seat a leave empties itself. -/
def KeepsRegistered (shared : Shared κ δ) : Call κ → Oracle → Prop
  | .join (.create args _ ref), _ => shared.reg.m.get? args.id = some ref
  | .join (.attach args now ref), _ =>
      ∀ b, shared.reg.heap[ref]? = some b →
        b.TurnsAway shared.reg.cfg now args ∨
          shared.reg.m.get? args.id = some ref
  | .leave (.marking id slot ref), oracle =>
      ∀ b p, shared.reg.heap[ref]? = some b → b.peers slot = some p →
        shouldDeleteLocked shared.reg.cfg (b.markLeft slot p oracle.now)
          oracle.now = true →
        ∀ other b', other ≠ ref → shared.reg.m.get? id = some other →
          shared.reg.heap[other]? = some b' → ¬ b'.Connected
  | .sweep (.delete _ id _ _ _), _ =>
      ∀ b, shared.reg.bucket? id = some b → ¬ b.Connected
  | _, _ => True

theorem connectedCount_eq_zero_iff (b : Bucket κ δ) :
    b.connectedCount = 0 ↔ ¬ b.Connected := by
  have seats : ∀ slot : Slot, slot ∈ ([0, 1] : List Slot) := by decide
  simp only [Bucket.connectedCount, List.countP_eq_zero, Bucket.Connected,
    not_exists, not_and, Option.any_eq_true, seats, true_implies]

theorem not_connected_of_shouldDelete {cfg : Config} {b : Bucket κ δ}
    {now : Time} (verdict : shouldDeleteLocked cfg b now = true) :
    ¬ b.Connected := by
  rw [← connectedCount_eq_zero_iff]
  by_contra connected
  simp [shouldDeleteLocked, connected] at verdict

/-- Leaving connects nobody. -/
theorem Bucket.Connected.of_markLeft {b : Bucket κ δ} {slot : Slot}
    {p : Peer κ} {now : Time} (connected : (b.markLeft slot p now).Connected) :
    b.Connected := by
  obtain ⟨other, q, occupied, qConnected⟩ := connected
  by_cases same : other = slot
  · subst other
    simp only [Bucket.markLeft, setPeer_peers_self,
      Option.some.injEq] at occupied
    subst q
    simp at qConnected
  · rw [Bucket.markLeft, setPeer_peers_of_ne _ _ same] at occupied
    exact ⟨other, q, occupied, qConnected⟩

/-- A rejected join connects nobody. -/
theorem Bucket.Connected.of_rejected_join {cfg : Config} {now : Time}
    {args : JoinArgs κ} {b : Bucket κ δ}
    (rejected : (b.join cfg now args).2 = none)
    (connected : (b.join cfg now args).1.Connected) : b.Connected := by
  obtain ⟨slot, q, occupied, qConnected⟩ := connected
  have change := join_seatChange cfg now args b slot
  rw [rejected, occupied] at change
  generalize beforeEq : b.peers slot = before at change
  cases change with
  | kept => exact ⟨slot, q, beforeEq, qConnected⟩
  | reclaimed here => simp at here
  | taken here => simp at here

theorem OccupiedRegistered.congr {reg reg' : Registry κ δ}
    (occupied : OccupiedRegistered reg) (heapEq : reg'.heap = reg.heap)
    (mapEq : reg'.m = reg.m) : OccupiedRegistered reg' := by
  intro ref b found connected
  rw [mapEq]
  exact occupied ref b (heapEq ▸ found) connected

private theorem occupied_of_erase {reg : Registry κ δ} {id : String}
    (occupied : OccupiedRegistered reg)
    (idle : ∀ ref b, reg.m.get? id = some ref → reg.heap[ref]? = some b →
      ¬ b.Connected) :
    OccupiedRegistered { reg with m := reg.m.erase id } := by
  intro ref b found connected
  have registered := occupied ref b found connected
  have different : b.id ≠ id := by
    rintro rfl
    exact idle ref b registered found connected
  simpa [InsertionMap.get?_erase_of_ne _ different] using registered

private theorem occupied_of_set {reg : Registry κ δ} {ref : Ref}
    {old new : Bucket κ δ}
    (occupied : OccupiedRegistered reg)
    (found : reg.heap[ref]? = some old)
    (newRegistered : new.Connected → reg.m.get? new.id = some ref) :
    OccupiedRegistered (reg.setBucket ref new) := by
  obtain ⟨inBounds, -⟩ := List.getElem?_eq_some_iff.mp found
  intro other b otherFound connected
  by_cases same : ref = other
  · subst other
    obtain rfl : new = b := by
      simpa [Registry.setBucket, inBounds] using otherFound
    exact newRegistered connected
  · exact occupied other b
      (by simpa [Registry.setBucket, same] using otherFound) connected

/-- From a state in which every occupied bucket is registered, a step keeps it
that way, and returns a registered bucket if it is an accepted join, exactly
when it meets the condition. -/
theorem keepsRegistered_iff {oracle : Oracle} {call call' : Call κ}
    {others : List (Call κ)} {shared shared' : Shared κ δ}
    (wired : Wired shared.reg (call :: others))
    (occupied : OccupiedRegistered shared.reg)
    (step : CallStep oracle shared call shared' call') :
    KeepsRegistered shared call oracle ↔
      OccupiedRegistered shared'.reg ∧
        ReturnsRegistered shared'.reg call' := by
  cases step with
  | joinFound | leaveMissing | leaveFound | sweepEnter | sweepEnd
  | sweepKeep | sweepCondemn =>
      simp [KeepsRegistered, ReturnsRegistered, occupied]
  | @joinPublish args b _ absent sameId _ _ vacant =>
      simp only [KeepsRegistered, true_iff]
      refine ⟨?_, by simp [ReturnsRegistered]⟩
      intro ref b' found connected
      rcases Nat.lt_trichotomy ref shared.reg.heap.length with
        below | equal | above
      · simp only [List.getElem?_append_left below] at found
        have registered := occupied ref b' found connected
        have different : b'.id ≠ args.id := by
          intro sameKey
          simp [sameKey, absent] at registered
        simpa [InsertionMap.get?_set_of_ne _ _ different] using registered
      · subst equal
        obtain rfl : b = b' := by simpa using found
        obtain ⟨slot, p, seated, _⟩ := connected
        simp [vacant] at seated
      · have tooFar : (shared.reg.heap ++ [b]).length ≤ ref := by
          simpa using Nat.succ_le_of_lt above
        simp [List.getElem?_eq_none tooFar] at found
  | @joinCreate args now ref =>
      obtain ⟨b, found, sameId⟩ :=
        wired.targeted (.join (.create args now ref)) (by simp) args.id ref rfl
      have asSet : (shared.reg.joinCreate now args ref).1 =
          shared.reg.setBucket ref (b.setPeer 0 (some (args.peer now))) := by
        obtain ⟨inBounds, rfl⟩ := List.getElem?_eq_some_iff.mp found
        simp [Registry.joinCreate, Registry.setBucket,
          List.modify_eq_set_getElem?, inBounds]
      constructor
      · intro registered
        have registered : shared.reg.m.get? args.id = some ref := registered
        refine ⟨?_, ?_⟩
        · rw [asSet]
          refine occupied_of_set occupied found fun _ => ?_
          simpa [Bucket.setPeer, sameId] using registered
        · rintro args' result equality _
          simp only [Call.join.injEq, JoinCall.returned.injEq] at equality
          obtain ⟨rfl, rfl⟩ := equality
          exact registered
      · rintro ⟨_, returns⟩
        exact returns args _ rfl rfl
  | @joinAttach args now ref =>
      obtain ⟨b, found, sameId⟩ :=
        wired.targeted (.join (.attach args now ref)) (by simp) args.id ref rfl
      obtain ⟨peers, frame⟩ := join_frame shared.reg.cfg now args b
      have keptId : (b.join shared.reg.cfg now args).1.id = args.id := by
        rw [frame]
        exact sameId
      have result : shared.reg.joinAttach now args ref =
          (shared.reg.setBucket ref (b.join shared.reg.cfg now args).1,
            Registry.attachResult ref (b.join shared.reg.cfg now args).2) := by
        simp [Registry.joinAttach, found]
      constructor
      · intro keeps
        rw [result]
        refine ⟨occupied_of_set occupied found fun connected => ?_, ?_⟩
        · rcases keeps b found with away | registered
          · have before := connected.of_rejected_join
              ((join_rejected_iff _ _ _ _).mpr away)
            rw [keptId, ← sameId]
            exact occupied ref b found before
          · rwa [keptId]
        · rintro args' result' equality accepted
          simp only [Call.join.injEq, JoinCall.returned.injEq] at equality
          obtain ⟨rfl, rfl⟩ := equality
          rcases keeps b found with away | registered
          · rw [(join_rejected_iff _ _ _ _).mpr away] at accepted
            simp [Registry.attachResult] at accepted
          · cases outcome : (b.join shared.reg.cfg now args).2 <;>
              simpa [outcome, Registry.attachResult] using registered
      · rintro ⟨_, returns⟩ c cFound
        obtain rfl : b = c := by simpa [found] using cFound
        rw [result] at returns
        cases outcome : (b.join shared.reg.cfg now args).2 with
        | none => exact .inl ((join_rejected_iff _ _ _ _).mp outcome)
        | some slot =>
            have returned := returns args _ rfl
              (by simp [outcome, Registry.attachResult])
            exact .inr (by simpa [outcome, Registry.attachResult] using returned)
  | @leaveMark id slot ref =>
      have noReturn : ReturnsRegistered
          (shared.reg.leaveSection oracle.now id slot ref).1
          (.leave (.returned
            (shared.reg.leaveSection oracle.now id slot ref).2)) := by
        simp [ReturnsRegistered]
      rcases shared.reg.leaveSection_cases oracle.now id slot ref with
        ⟨vacant, unchanged⟩ | ⟨b, p, found, seated, _, heapEq, cfgEq, mapEq⟩
      · refine ⟨fun _ => ⟨by rw [unchanged]; exact occupied, noReturn⟩, ?_⟩
        intro _ b p found seated
        simp [vacant b found] at seated
      · have marked : OccupiedRegistered
            (shared.reg.setBucket ref (b.markLeft slot p oracle.now)) :=
          occupied_of_set occupied found fun connected =>
            occupied ref b found connected.of_markLeft
        have same : ∀ c q, shared.reg.heap[ref]? = some c →
            c.peers slot = some q → c = b ∧ q = p := by
          intro c q cFound qSeated
          obtain rfl : b = c := by simpa [found] using cFound
          exact ⟨rfl, by simpa [seated] using qSeated.symm⟩
        cases deletes : shouldDeleteLocked shared.reg.cfg
          (b.markLeft slot p oracle.now) oracle.now with
        | false =>
            rw [deletes] at mapEq
            constructor
            · exact fun _ => ⟨marked.congr heapEq mapEq, noReturn⟩
            · intro _ c q cFound qSeated verdict
              obtain ⟨rfl, rfl⟩ := same c q cFound qSeated
              simp [deletes] at verdict
        | true =>
            rw [deletes] at mapEq
            constructor
            · intro keeps
              refine ⟨(occupied_of_erase marked ?_).congr heapEq mapEq,
                noReturn⟩
              intro other c registered cFound
              by_cases here : other = ref
              · subst other
                obtain ⟨inBounds, -⟩ := List.getElem?_eq_some_iff.mp found
                obtain rfl : b.markLeft slot p oracle.now = c := by
                  simpa [Registry.setBucket, inBounds] using cFound
                exact not_connected_of_shouldDelete deletes
              · refine keeps b p found seated deletes other c here
                  registered ?_
                have different : ¬ ref = other := fun equality =>
                  here equality.symm
                simpa [Registry.setBucket, different] using cFound
            · rintro ⟨after, _⟩ c q cFound qSeated _ other b' here
                registered otherFound connected
              obtain ⟨d, dFound, sameId⟩ := wired.registered id other
                registered
              obtain rfl : b' = d := by simpa [otherFound] using dFound
              have different : ¬ ref = other := fun equality =>
                here equality.symm
              have stillMapped := after other b'
                (by simp [heapEq, different, otherFound]) connected
              simp [mapEq, sameId] at stillMapped
  | @sweepDelete now id creator ids creators =>
      have noReturn : ReturnsRegistered
          ({ shared.reg with m := shared.reg.m.erase id } : Registry κ δ)
          (.sweep (.scan now ids
            (if creator ≠ "" then creators ++ [creator] else creators))) := by
        simp [ReturnsRegistered]
      constructor
      · intro idle
        refine ⟨occupied_of_erase occupied fun ref b registered found => ?_,
          noReturn⟩
        exact idle b (by simp [Registry.bucket?, registered, found])
      · rintro ⟨after, _⟩ b registered connected
        obtain ⟨ref, mapped, found⟩ := Option.bind_eq_some_iff.mp registered
        obtain ⟨b', found', rfl⟩ := wired.registered id ref mapped
        obtain rfl : b = b' := by simpa [found] using found'
        have stillMapped := after ref b found connected
        simp at stillMapped

/-! ## Runs -/

private theorem wired_occupied {cfg : Config}
    {pool : Pool (Shared κ δ) (Call κ)}
    (reachable : (((calls κ δ).system (Fresh cfg)).restrict
      (Program.OnRun KeepsRegistered)).Reachable pool) :
    Wired pool.shared.reg pool.acts ∧ OccupiedRegistered pool.shared.reg := by
  refine Program.invariant (fun shared acts =>
    Wired shared.reg acts ∧ OccupiedRegistered shared.reg)
    ?perm ?initially ?spawned ?preserved reachable
  case perm =>
    rintro shared acts acts' same ⟨wired, occupied⟩
    exact ⟨⟨wired.registered, fun call member =>
      wired.targeted call (same.mem_iff.mpr member)⟩, occupied⟩
  case initially =>
    rintro _ rfl
    exact ⟨⟨by simp [newRegistry], by simp [Pool.acts]⟩,
      by simp [OccupiedRegistered, newRegistry]⟩
  case spawned =>
    rintro shared acts call entry ⟨wired, occupied⟩
    refine ⟨⟨wired.registered, ?_⟩, occupied⟩
    intro other member id ref target
    rcases List.mem_cons.mp member with rfl | member
    · simp [entry.target] at target
    · exact wired.targeted other member id ref target
  case preserved =>
    rintro shared shared' call calls' others oracle ⟨wired, occupied⟩ next keeps
    obtain ⟨call', rfl, step⟩ := Call.next_step next
    exact ⟨wired.step step,
      ((keepsRegistered_iff wired occupied step).mp keeps).1⟩

/-- Along every run whose steps keep buckets registered, each bucket with a
connected seat is the one stored under its id.  From every state such a run
reaches, the next section of any call keeps that so, and lets an accepted join
return the bucket stored under its id, exactly when it meets the condition. -/
theorem occupied_registered (cfg : Config)
    {pool : Pool (Shared κ δ) (Call κ)}
    (reachable : (((calls κ δ).system (Fresh cfg)).restrict
      (Program.OnRun KeepsRegistered)).Reachable pool) :
    OccupiedRegistered pool.shared.reg ∧
      ∀ call ∈ pool.acts, ∀ oracle shared' calls',
        (calls κ δ).next oracle call pool.shared = some (shared', calls') →
        (KeepsRegistered pool.shared call oracle ↔
          OccupiedRegistered shared'.reg ∧
            ∀ call' ∈ calls', ReturnsRegistered shared'.reg call') := by
  obtain ⟨wired, occupied⟩ := wired_occupied reachable
  refine ⟨occupied, ?_⟩
  intro call member oracle shared' calls' next
  obtain ⟨call', rfl, step⟩ := Call.next_step next
  obtain ⟨before, after, split⟩ := List.append_of_mem member
  have wiredHere : Wired pool.shared.reg (call :: (before ++ after)) :=
    ⟨wired.registered, fun other otherMember =>
      wired.targeted other (by rw [split]; simp at otherMember ⊢; tauto)⟩
  simpa using keepsRegistered_iff wiredHere occupied step

/-- The creator of a room between its two sections. -/
theorem occupied_registered_creating :
    let reg := ((newRegistry roomConfig : Registry String String).joinEnter 0
      (roomJoin "alice" "first")).1
    OccupiedRegistered reg ∧
      ∀ call ∈ [Call.join (.create (roomJoin "alice" "first") 0 0)],
        ∀ oracle shared' calls',
          (calls String String).next oracle call ⟨reg, false⟩ =
            some (shared', calls') →
          (KeepsRegistered ⟨reg, false⟩ call oracle ↔
            OccupiedRegistered shared'.reg ∧
              ∀ call' ∈ calls', ReturnsRegistered shared'.reg call') := by
  have spawned : (((calls String String).system
      (Fresh roomConfig)).restrict (Program.OnRun KeepsRegistered)).Reachable
        ⟨⟨newRegistry roomConfig, false⟩,
          [[.join (.enter (roomJoin "alice" "first"))]]⟩ :=
    (Lts.Reachable.start rfl).step ⟨.spawn [] trivial, trivial⟩
  have published : (calls String String).Step
      ⟨⟨newRegistry roomConfig, false⟩,
        [[.join (.enter (roomJoin "alice" "first"))]]⟩
      (.run (.join (.enter (roomJoin "alice" "first"))) ⟨0, []⟩) _ :=
    .run [] [] [] rfl
  exact occupied_registered roomConfig (spawned.step ⟨published, trivial⟩)

/-- A sweep between the two sections of the room's creator. -/
private def sweptRun : Option (Pool (Shared String String) (Call String)) :=
  (calls String String).execAll
    ⟨⟨newRegistry roomConfig, false⟩,
      [[.join (.enter (roomJoin "alice" "first"))], [.sweep .enter]]⟩
    [(0, ⟨0, []⟩), (1, ⟨0, ["room"]⟩), (1, ⟨0, []⟩), (1, ⟨0, []⟩),
      (0, ⟨0, []⟩)]

/-- The call is a join of the room that was let in. -/
private def joinedRoom : Call String → Bool
  | .join (.returned args result) => args.id = "room" && !result.rejected
  | _ => false

/-- The creator connects to a bucket the sweep has removed from the map. -/
theorem occupied_unregistered :
    ∃ pool, ((calls String String).system (Fresh roomConfig)).Reachable pool ∧
      ¬ OccupiedRegistered pool.shared.reg ∧
      ∃ call ∈ pool.acts, ¬ ReturnsRegistered pool.shared.reg call := by
  have orphaned : sweptRun.any (fun pool =>
      pool.shared.reg.m.get? "room" = none &&
        pool.shared.reg.heap[0]?.any (fun b =>
          b.id = "room" && b.connectedCount = 1) &&
        pool.acts.any joinedRoom) = true := by decide
  obtain ⟨pool, ran, check⟩ := Option.any_eq_true _ _ |>.mp orphaned
  simp only [Bool.and_eq_true, decide_eq_true_eq, Option.any_eq_true,
    List.any_eq_true] at check
  obtain ⟨⟨unregistered, b, found, sameId, connected⟩,
    call, member, returned⟩ := check
  refine ⟨pool, ?_, ?_, call, member, ?_⟩
  · have started : ((calls String String).system (Fresh roomConfig)).Reachable
        ⟨⟨newRegistry roomConfig, false⟩, []⟩ := .start rfl
    exact Program.execAll_run (Program.spawnAll_reachable started
      [.join (.enter (roomJoin "alice" "first")), .sweep .enter]
      (by simp [calls, Call.Entry])) ran
  · intro occupied
    have registered := occupied 0 b found (by
      by_contra idle
      simp [(connectedCount_eq_zero_iff b).mpr idle] at connected)
    simp [sameId, unregistered] at registered
  · intro registered
    unfold joinedRoom at returned
    split at returned
    · rename_i args result
      simp only [Bool.and_eq_true, decide_eq_true_eq,
        Bool.not_eq_true'] at returned
      have mapped := registered args result rfl returned.2
      simp [returned.1, unregistered] at mapped
    · simp at returned

end Byteln.Server

import Byteln.Library.ThreadPool
import Byteln.Server.Registry

/-!
# Concurrent calls of the registry

`Join`, `Leave` and `SweepIdle` as activations whose steps are the
mutex-protected sections of the Go code, for any number of goroutines in any
interleaving.

A sweep holds the registry mutex over its whole pass and takes the bucket
mutexes one at a time.  `sweeping` says that it is held this way, and every
other section that needs the registry mutex waits for it.  Sections under a
bucket mutex alone do not wait: one can run between the sweep's verdict on its
bucket and the deletion of that bucket.
-/

namespace Byteln.Server

open Byteln.Library

/-- The registry and the registry mutex, as far as a sweep holds it. -/
structure Shared (κ δ : Type) where
  reg : Registry κ δ
  sweeping : Bool

/-- What a step does not decide itself: the clock, and the order in which Go
enumerates a map. -/
structure Oracle where
  now : Time
  order : List String

inductive JoinCall (κ : Type) where
  | enter (args : JoinArgs κ)
  /-- Published a bucket and has yet to seat itself in it. -/
  | create (args : JoinArgs κ) (now : Time) (ref : Ref)
  /-- Found a bucket and has yet to look for a seat in it. -/
  | attach (args : JoinArgs κ) (now : Time) (ref : Ref)
  | returned (args : JoinArgs κ) (result : JoinResult)

inductive LeaveCall (κ : Type) where
  | enter (id : String) (slot : Slot)
  | marking (id : String) (slot : Slot) (ref : Ref)
  | returned (result : LeaveResult κ)

inductive SweepCall where
  | enter
  | scan (now : Time) (remaining creators : List String)
  /-- Decided to delete a bucket and gave its mutex back. -/
  | delete (now : Time) (id creator : String)
      (remaining creators : List String)
  | returned (creators : List String)

variable {κ δ : Type}

def JoinCall.args : JoinCall κ → JoinArgs κ
  | .enter args | .create args _ _ | .attach args _ _ | .returned args _ =>
      args

def JoinCall.next (oracle : Oracle) (call : JoinCall κ)
    (shared : Shared κ δ) : Option (Shared κ δ × JoinCall κ) :=
  match call with
  | .enter args =>
      if shared.sweeping then none
      else
        let (reg, ref, created) := shared.reg.joinEnter oracle.now args
        some ({ shared with reg := reg },
          if created then .create args oracle.now ref
          else .attach args oracle.now ref)
  | .create args now ref =>
      let (reg, result) := shared.reg.joinCreate now args ref
      some ({ shared with reg := reg }, .returned args result)
  | .attach args now ref =>
      let (reg, result) := shared.reg.joinAttach now args ref
      some ({ shared with reg := reg }, .returned args result)
  | .returned _ _ => none

def LeaveCall.next (oracle : Oracle) (call : LeaveCall κ)
    (shared : Shared κ δ) : Option (Shared κ δ × LeaveCall κ) :=
  match call with
  | .enter id slot =>
      if shared.sweeping then none
      else
        match shared.reg.m.get? id with
        | none => some (shared, .returned ⟨true, none, none⟩)
        | some ref => some (shared, .marking id slot ref)
  | .marking id slot ref =>
      let (reg, result) := shared.reg.leaveSection oracle.now id slot ref
      -- The nested section that deletes the map entry needs the registry
      -- mutex; the bucket mutex is kept while waiting for it.
      if result.deleteBucket && shared.reg.seatOccupied ref slot &&
          shared.sweeping then none
      else some ({ shared with reg := reg }, .returned result)
  | .returned _ => none

def SweepCall.next (oracle : Oracle) (call : SweepCall)
    (shared : Shared κ δ) : Option (Shared κ δ × SweepCall) :=
  match call with
  | .enter =>
      if shared.sweeping ∨ ¬ oracle.order.Perm shared.reg.m.keys then none
      else
        some ({ shared with sweeping := true },
          .scan oracle.now oracle.order [])
  | .scan _ [] creators =>
      some ({ shared with sweeping := false }, .returned creators)
  | .scan now (id :: ids) creators =>
      match shared.reg.bucket? id with
      | none => some (shared, .scan now ids creators)
      | some b =>
          some (shared,
            if sweepVerdict shared.reg.cfg now b then
              .delete now id b.creatorIP ids creators
            else .scan now ids creators)
  | .delete now id creator ids creators =>
      some ({ shared with
          reg := { shared.reg with m := shared.reg.m.erase id } },
        .scan now ids
          (if creator ≠ "" then creators ++ [creator] else creators))
  | .returned _ => none

inductive Call (κ : Type) where
  | join (call : JoinCall κ)
  | leave (call : LeaveCall κ)
  | sweep (call : SweepCall)

def Call.next (oracle : Oracle) (call : Call κ) (shared : Shared κ δ) :
    Option (Shared κ δ × List (Call κ)) :=
  match call with
  | .join call =>
      (call.next oracle shared).map fun (shared, call) =>
        (shared, [.join call])
  | .leave call =>
      (call.next oracle shared).map fun (shared, call) =>
        (shared, [.leave call])
  | .sweep call =>
      (call.next oracle shared).map fun (shared, call) =>
        (shared, [.sweep call])

def Call.Entry : Call κ → Prop
  | .join (.enter _) | .leave (.enter _ _) | .sweep .enter => True
  | _ => False

/-- Any goroutines calling the registry. -/
def calls (κ δ : Type) : Program (Shared κ δ) (Call κ) Oracle where
  next := Call.next
  entry := Call.Entry

/-- The registry before any call. -/
def Fresh (cfg : Config) (pool : Pool (Shared κ δ) (Call κ)) : Prop :=
  pool = ⟨⟨newRegistry cfg, false⟩, []⟩

/-! ## What one section does -/

namespace Registry

/-- Finding a bucket leaves the registry alone; publishing one appends an
unoccupied bucket and registers it. -/
theorem joinEnter_cases (r : Registry κ δ) (now : Time) (args : JoinArgs κ) :
    (∃ ref, r.m.get? args.id = some ref ∧
      r.joinEnter now args = (r, ref, false)) ∨
    (∃ b : Bucket κ δ, r.m.get? args.id = none ∧
      b.id = args.id ∧ b.creatorIP = args.ip ∧ b.buffer = [] ∧
      (∀ slot, b.peers slot = none) ∧
      r.joinEnter now args =
        ({ r with
            heap := r.heap ++ [b]
            m := r.m.set args.id r.heap.length }, r.heap.length, true)) := by
  unfold joinEnter
  cases registered : r.m.get? args.id with
  | some ref => exact .inl ⟨ref, rfl, rfl⟩
  | none => exact .inr ⟨_, rfl, rfl, rfl, rfl, fun _ => rfl, rfl⟩

/-- On an empty seat a leave changes nothing and only reports. -/
theorem leaveSection_vacant (r : Registry κ δ) (now : Time) (id : String)
    {slot : Slot} {ref : Ref} {b : Bucket κ δ} (found : r.heap[ref]? = some b)
    (vacant : b.peers slot = none) :
    r.leaveSection now id slot ref =
      (r, ⟨shouldDeleteLocked r.cfg b now, none, none⟩) := by
  simp [leaveSection, found, vacant]

/-- A leave marks one occupied seat and deletes the id's map entry exactly when
it reports so, or it changes nothing. -/
theorem leaveSection_cases (r : Registry κ δ) (now : Time) (id : String)
    (slot : Slot) (ref : Ref) :
    ((∀ b, r.heap[ref]? = some b → b.peers slot = none) ∧
      (r.leaveSection now id slot ref).1 = r) ∨
    (∃ b p, r.heap[ref]? = some b ∧ b.peers slot = some p ∧
      (r.leaveSection now id slot ref).2.deleteBucket =
        shouldDeleteLocked r.cfg (b.markLeft slot p now) now ∧
      (r.leaveSection now id slot ref).1.heap =
        r.heap.set ref (b.markLeft slot p now) ∧
      (r.leaveSection now id slot ref).1.cfg = r.cfg ∧
      (r.leaveSection now id slot ref).1.m =
        if shouldDeleteLocked r.cfg (b.markLeft slot p now) now then
          r.m.erase id
        else r.m) := by
  unfold leaveSection
  cases found : r.heap[ref]? with
  | none => exact .inl ⟨by simp, rfl⟩
  | some b =>
      cases occupied : b.peers slot with
      | none =>
          exact .inl ⟨by simpa using occupied, by simp [occupied]⟩
      | some p =>
          refine .inr ⟨b, p, rfl, occupied, ?_⟩
          simp only [occupied]
          split <;> simp_all [setBucket]

end Registry

/-- Every step a call can take, with the guard it passed. -/
inductive CallStep (oracle : Oracle) (shared : Shared κ δ) :
    Call κ → Shared κ δ → Call κ → Prop where
  | joinFound {args : JoinArgs κ} {ref : Ref} :
      shared.sweeping = false →
      shared.reg.m.get? args.id = some ref →
      CallStep oracle shared (.join (.enter args)) shared
        (.join (.attach args oracle.now ref))
  | joinPublish {args : JoinArgs κ} {b : Bucket κ δ} :
      shared.sweeping = false →
      shared.reg.m.get? args.id = none →
      b.id = args.id → b.creatorIP = args.ip → b.buffer = [] →
      (∀ slot, b.peers slot = none) →
      CallStep oracle shared (.join (.enter args))
        { shared with
          reg :=
            { shared.reg with
              heap := shared.reg.heap ++ [b]
              m := shared.reg.m.set args.id shared.reg.heap.length } }
        (.join (.create args oracle.now shared.reg.heap.length))
  | joinCreate {args : JoinArgs κ} {now : Time} {ref : Ref} :
      CallStep oracle shared (.join (.create args now ref))
        { shared with reg := (shared.reg.joinCreate now args ref).1 }
        (.join (.returned args (shared.reg.joinCreate now args ref).2))
  | joinAttach {args : JoinArgs κ} {now : Time} {ref : Ref} :
      CallStep oracle shared (.join (.attach args now ref))
        { shared with reg := (shared.reg.joinAttach now args ref).1 }
        (.join (.returned args (shared.reg.joinAttach now args ref).2))
  | leaveMissing {id : String} {slot : Slot} :
      shared.sweeping = false →
      shared.reg.m.get? id = none →
      CallStep oracle shared (.leave (.enter id slot)) shared
        (.leave (.returned ⟨true, none, none⟩))
  | leaveFound {id : String} {slot : Slot} {ref : Ref} :
      shared.sweeping = false →
      shared.reg.m.get? id = some ref →
      CallStep oracle shared (.leave (.enter id slot)) shared
        (.leave (.marking id slot ref))
  | leaveMark {id : String} {slot : Slot} {ref : Ref} :
      ((shared.reg.leaveSection oracle.now id slot ref).2.deleteBucket = true →
        shared.reg.seatOccupied ref slot = true →
        shared.sweeping = false) →
      CallStep oracle shared (.leave (.marking id slot ref))
        { shared with
          reg := (shared.reg.leaveSection oracle.now id slot ref).1 }
        (.leave (.returned
          (shared.reg.leaveSection oracle.now id slot ref).2))
  | sweepEnter :
      shared.sweeping = false →
      oracle.order.Perm shared.reg.m.keys →
      CallStep oracle shared (.sweep .enter) { shared with sweeping := true }
        (.sweep (.scan oracle.now oracle.order []))
  | sweepEnd {now : Time} {creators : List String} :
      CallStep oracle shared (.sweep (.scan now [] creators))
        { shared with sweeping := false } (.sweep (.returned creators))
  | sweepKeep {now : Time} {id : String} {ids creators : List String} :
      (∀ b, shared.reg.bucket? id = some b →
        sweepVerdict shared.reg.cfg now b = false) →
      CallStep oracle shared (.sweep (.scan now (id :: ids) creators)) shared
        (.sweep (.scan now ids creators))
  | sweepCondemn {now : Time} {id : String} {ids creators : List String}
      {b : Bucket κ δ} :
      shared.reg.bucket? id = some b →
      sweepVerdict shared.reg.cfg now b = true →
      CallStep oracle shared (.sweep (.scan now (id :: ids) creators)) shared
        (.sweep (.delete now id b.creatorIP ids creators))
  | sweepDelete {now : Time} {id creator : String}
      {ids creators : List String} :
      CallStep oracle shared (.sweep (.delete now id creator ids creators))
        { shared with
          reg := { shared.reg with m := shared.reg.m.erase id } }
        (.sweep (.scan now ids
          (if creator ≠ "" then creators ++ [creator] else creators)))

theorem JoinCall.next_step {oracle : Oracle} {call call' : JoinCall κ}
    {shared shared' : Shared κ δ}
    (next : call.next oracle shared = some (shared', call')) :
    CallStep oracle shared (.join call) shared' (.join call') := by
  cases call with
  | enter args =>
      simp only [JoinCall.next] at next
      split at next
      · simp at next
      · rename_i notSweeping
        have free : shared.sweeping = false := by simpa using notSweeping
        rcases shared.reg.joinEnter_cases oracle.now args with
          ⟨ref, registered, result⟩ |
          ⟨b, absent, sameId, creator, noFrames, vacant, result⟩
        · simp only [result, Bool.false_eq_true, if_false, Option.some.injEq,
            Prod.mk.injEq] at next
          rw [← next.1, ← next.2]
          exact .joinFound free registered
        · simp only [result, if_true, Option.some.injEq,
            Prod.mk.injEq] at next
          rw [← next.1, ← next.2]
          exact .joinPublish free absent sameId creator noFrames vacant
  | create args now ref =>
      simp only [JoinCall.next, Option.some.injEq, Prod.mk.injEq] at next
      rw [← next.1, ← next.2]
      exact .joinCreate
  | attach args now ref =>
      simp only [JoinCall.next, Option.some.injEq, Prod.mk.injEq] at next
      rw [← next.1, ← next.2]
      exact .joinAttach
  | returned args result => simp [JoinCall.next] at next

/-- A join that a section returns has been computed by it. -/
theorem CallStep.join_returned {oracle : Oracle} {call : JoinCall κ}
    {args : JoinArgs κ} {result : JoinResult} {shared shared' : Shared κ δ}
    (step : CallStep oracle shared (.join call) shared'
      (.join (.returned args result))) :
    call.next oracle shared = some (shared', .returned args result) := by
  cases step <;> rfl

theorem JoinCall.next_args {oracle : Oracle} {call call' : JoinCall κ}
    {shared shared' : Shared κ δ}
    (next : call.next oracle shared = some (shared', call')) :
    call'.args = call.args := by
  cases call with
  | enter args =>
      simp only [JoinCall.next] at next
      split at next
      · simp at next
      · simp only [Option.some.injEq, Prod.mk.injEq] at next
        rw [← next.2]
        split <;> rfl
  | create args now ref | attach args now ref => cases next; rfl
  | returned args result => simp [JoinCall.next] at next

theorem LeaveCall.next_step {oracle : Oracle} {call call' : LeaveCall κ}
    {shared shared' : Shared κ δ}
    (next : call.next oracle shared = some (shared', call')) :
    CallStep oracle shared (.leave call) shared' (.leave call') := by
  cases call with
  | enter id slot =>
      simp only [LeaveCall.next] at next
      split at next
      · simp at next
      · rename_i notSweeping
        have free : shared.sweeping = false := by simpa using notSweeping
        split at next <;> rename_i registered <;>
          simp only [Option.some.injEq, Prod.mk.injEq] at next <;>
          rw [← next.1, ← next.2]
        · exact .leaveMissing free registered
        · exact .leaveFound free registered
  | marking id slot ref =>
      simp only [LeaveCall.next] at next
      split at next
      · simp at next
      · rename_i allowed
        simp only [Option.some.injEq, Prod.mk.injEq] at next
        rw [← next.1, ← next.2]
        exact .leaveMark (by simpa using allowed)
  | returned result => simp [LeaveCall.next] at next

theorem SweepCall.next_step {oracle : Oracle} {call call' : SweepCall}
    {shared shared' : Shared κ δ}
    (next : call.next oracle shared = some (shared', call')) :
    CallStep oracle shared (.sweep call) shared' (.sweep call') := by
  cases call with
  | enter =>
      simp only [SweepCall.next] at next
      split at next
      · simp at next
      · rename_i allowed
        simp only [not_or, Bool.not_eq_true, Decidable.not_not] at allowed
        simp only [Option.some.injEq, Prod.mk.injEq] at next
        rw [← next.1, ← next.2]
        exact .sweepEnter allowed.1 allowed.2
  | scan now remaining creators =>
      cases remaining with
      | nil =>
          simp only [SweepCall.next, Option.some.injEq,
            Prod.mk.injEq] at next
          rw [← next.1, ← next.2]
          exact .sweepEnd
      | cons id ids =>
          simp only [SweepCall.next] at next
          split at next <;> rename_i registered <;>
            simp only [Option.some.injEq, Prod.mk.injEq] at next <;>
            rw [← next.1, ← next.2]
          · exact .sweepKeep (by simp [registered])
          · split
            · rename_i condemned
              exact .sweepCondemn registered condemned
            · rename_i spared
              exact .sweepKeep (by simpa [registered] using spared)
  | delete now id creator ids creators =>
      simp only [SweepCall.next, Option.some.injEq, Prod.mk.injEq] at next
      rw [← next.1, ← next.2]
      exact .sweepDelete
  | returned creators => simp [SweepCall.next] at next

theorem Call.next_step {oracle : Oracle} {call : Call κ}
    {shared shared' : Shared κ δ} {calls' : List (Call κ)}
    (next : call.next oracle shared = some (shared', calls')) :
    ∃ call', calls' = [call'] ∧
      CallStep oracle shared call shared' call' := by
  cases call with
  | join call =>
      obtain ⟨⟨reg', call'⟩, taken, result⟩ := Option.map_eq_some_iff.mp next
      cases result
      exact ⟨_, rfl, call.next_step taken⟩
  | leave call =>
      obtain ⟨⟨reg', call'⟩, taken, result⟩ := Option.map_eq_some_iff.mp next
      cases result
      exact ⟨_, rfl, call.next_step taken⟩
  | sweep call =>
      obtain ⟨⟨reg', call'⟩, taken, result⟩ := Option.map_eq_some_iff.mp next
      cases result
      exact ⟨_, rfl, call.next_step taken⟩

end Byteln.Server

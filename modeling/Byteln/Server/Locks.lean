import Byteln.Library.Deadlock
import Byteln.Server.SeatStates

/-!
# The mutexes of the registry

The methods of the registry lock by lock: every acquisition and every release
of a mutex is a step, and what is done under a mutex happens with its release.
`Leave` would take the registry's mutex under the mutex of a bucket, against
the order of `SweepIdle`, but the seat it has just marked waits for its peer,
so that it never deletes.
-/

namespace Byteln.Server.Locks

open Byteln.Library

/-- What a goroutine can hold.  A writer of the registry's `RWMutex` has the
gate from its announcement on, which keeps others from entering, and then waits
until the readers that are inside have left. -/
inductive Resource where
  | gate
  | readers
  | bucket (ref : Ref)
  deriving DecidableEq

/-- The registry, and how many goroutines hold each resource. -/
structure State (κ δ : Type) where
  reg : Registry κ δ
  held : Resource → Nat

/-- The return value of a finished call. -/
inductive Result (κ δ : Type) where
  | join (result : JoinResult)
  | leave (result : LeaveResult κ)
  | sweepIdle (creators : List String)
  | get (ref : Option Ref)
  | creatorIP (ip : String)
  | bufferIfAlone (buffered : Bool)
  | drainBuffer (frames : List (BufferedFrame δ))

inductive JoinCall (κ : Type) where
  | start (args : JoinArgs κ)
  | await (args : JoinArgs κ) (now : Time)
  | find (args : JoinArgs κ) (now : Time)
  | lock (args : JoinArgs κ) (now : Time) (ref : Ref) (created : Bool)
  | seat (args : JoinArgs κ) (now : Time) (ref : Ref) (created : Bool)

inductive LeaveCall (κ : Type) where
  | start (id : String) (slot : Slot)
  | find (id : String) (slot : Slot)
  | lock (id : String) (slot : Slot) (ref : Ref) (now : Time)
  | mark (id : String) (slot : Slot) (ref : Ref) (now : Time)
  /-- Takes the registry's mutex to delete the entry, under the bucket's. -/
  | announce (id : String) (ref : Ref) (result : LeaveResult κ)
  | await (id : String) (ref : Ref) (result : LeaveResult κ)
  | erase (id : String) (ref : Ref) (result : LeaveResult κ)
  | unlock (ref : Ref) (result : LeaveResult κ)

inductive SweepCall where
  | start
  | await (now : Time)
  | range (now : Time)
  | loop (now : Time) (remaining creators : List String)
  | look (now : Time) (id : String) (ref : Ref)
      (remaining creators : List String)
  | delete (now : Time) (id creator : String)
      (remaining creators : List String)

inductive GetCall where
  | start (id : String)
  | read (id : String)

inductive CreatorCall where
  | start (id : String)
  | read (id : String)
  | lock (ref : Ref)
  | look (ref : Ref)

inductive BufferCall (δ : Type) where
  | lock (ref : Ref) (fromSlot : Slot) (data : δ) (binary : Bool)
  | add (ref : Ref) (fromSlot : Slot) (data : δ) (binary : Bool)

inductive DrainCall where
  | lock (ref : Ref)
  | take (ref : Ref)

inductive Call (κ δ : Type) where
  | join (call : JoinCall κ)
  | leave (call : LeaveCall κ)
  | sweepIdle (call : SweepCall)
  | get (call : GetCall)
  | creatorIP (call : CreatorCall)
  | bufferIfAlone (call : BufferCall δ)
  | drainBuffer (call : DrainCall)
  | returned (result : Result κ δ)

variable {κ δ : Type}

namespace State

def take (s : State κ δ) (resource : Resource) : State κ δ :=
  { s with
    held := Function.update s.held resource (s.held resource + 1) }

def release (s : State κ δ) (resource : Resource) : State κ δ :=
  { s with
    held := Function.update s.held resource (s.held resource - 1) }

/-- `Lock` of a bucket, and the announcement of a writer of the registry. -/
def acquire (s : State κ δ) (resource : Resource) : Option (State κ δ) :=
  if s.held resource = 0 then some (s.take resource) else none

/-- The readers have left, and the writer is in. -/
def drained (s : State κ δ) : Option (State κ δ) :=
  if s.held .readers = 0 then some s else none

def rLock (s : State κ δ) : Option (State κ δ) :=
  if s.held .gate = 0 then some (s.take .readers) else none

def setReg (s : State κ δ) (reg : Registry κ δ) : State κ δ :=
  { s with reg := reg }

end State

def JoinCall.next (oracle : Oracle) (s : State κ δ) :
    JoinCall κ → Option (State κ δ × Call κ δ)
  | .start args =>
      (s.acquire .gate).map fun s => (s, .join (.await args oracle.now))
  | .await args now => s.drained.map fun s => (s, .join (.find args now))
  | .find args now =>
      let (reg, ref, created) := s.reg.joinEnter now args
      some ((s.setReg reg).release .gate, .join (.lock args now ref created))
  | .lock args now ref created =>
      (s.acquire (.bucket ref)).map fun s =>
        (s, .join (.seat args now ref created))
  | .seat args now ref created =>
      let (reg, result) :=
        if created then s.reg.joinCreate now args ref
        else s.reg.joinAttach now args ref
      some ((s.setReg reg).release (.bucket ref), .returned (.join result))

def LeaveCall.next (oracle : Oracle) (s : State κ δ) :
    LeaveCall κ → Option (State κ δ × Call κ δ)
  | .start id slot => s.rLock.map fun s => (s, .leave (.find id slot))
  | .find id slot =>
      some (s.release .readers,
        match s.reg.m.get? id with
        | none => .returned (.leave ⟨true, none, none⟩)
        | some ref => .leave (.lock id slot ref oracle.now))
  | .lock id slot ref now =>
      (s.acquire (.bucket ref)).map fun s =>
        (s, .leave (.mark id slot ref now))
  | .mark id slot ref now =>
      let (reg, result) := s.reg.leaveSection now id slot ref
      -- The entry of the map is deleted in the nested section only.
      let s' := s.setReg { reg with m := s.reg.m }
      if result.deleteBucket && s.reg.seatOccupied ref slot then
        some (s', .leave (.announce id ref result))
      else some (s'.release (.bucket ref), .returned (.leave result))
  | .announce id ref result =>
      (s.acquire .gate).map fun s => (s, .leave (.await id ref result))
  | .await id ref result =>
      s.drained.map fun s => (s, .leave (.erase id ref result))
  | .erase id ref result =>
      some ((s.setReg { s.reg with m := s.reg.m.erase id }).release .gate,
        .leave (.unlock ref result))
  | .unlock ref result =>
      some (s.release (.bucket ref), .returned (.leave result))

def SweepCall.next (oracle : Oracle) (s : State κ δ) :
    SweepCall → Option (State κ δ × Call κ δ)
  | .start =>
      (s.acquire .gate).map fun s => (s, .sweepIdle (.await oracle.now))
  | .await now => s.drained.map fun s => (s, .sweepIdle (.range now))
  | .range now =>
      if oracle.order.Perm s.reg.m.keys then
        some (s, .sweepIdle (.loop now oracle.order []))
      else none
  | .loop _ [] creators =>
      some (s.release .gate, .returned (.sweepIdle creators))
  | .loop now (id :: ids) creators =>
      match s.reg.m.get? id with
      | none => some (s, .sweepIdle (.loop now ids creators))
      | some ref =>
          (s.acquire (.bucket ref)).map fun s =>
            (s, .sweepIdle (.look now id ref ids creators))
  | .look now id ref ids creators =>
      some (s.release (.bucket ref), .sweepIdle
        (match s.reg.heap[ref]? with
          | none => .loop now ids creators
          | some b =>
              if sweepVerdict s.reg.cfg now b then
                .delete now id b.creatorIP ids creators
              else .loop now ids creators))
  | .delete now id creator ids creators =>
      some (s.setReg { s.reg with m := s.reg.m.erase id },
        .sweepIdle (.loop now ids
          (if creator ≠ "" then creators ++ [creator] else creators)))

def GetCall.next (s : State κ δ) :
    GetCall → Option (State κ δ × Call κ δ)
  | .start id => s.rLock.map fun s => (s, .get (.read id))
  | .read id => some (s.release .readers, .returned (.get (s.reg.get id)))

def CreatorCall.next (s : State κ δ) :
    CreatorCall → Option (State κ δ × Call κ δ)
  | .start id => s.rLock.map fun s => (s, .creatorIP (.read id))
  | .read id =>
      some (s.release .readers,
        match s.reg.m.get? id with
        | none => .returned (.creatorIP "")
        | some ref => .creatorIP (.lock ref))
  | .lock ref =>
      (s.acquire (.bucket ref)).map fun s => (s, .creatorIP (.look ref))
  | .look ref =>
      some (s.release (.bucket ref), .returned
        (.creatorIP ((s.reg.heap[ref]?.map Bucket.creatorIP).getD "")))

def BufferCall.next [Payload δ] (oracle : Oracle) (s : State κ δ) :
    BufferCall δ → Option (State κ δ × Call κ δ)
  | .lock ref fromSlot data binary =>
      (s.acquire (.bucket ref)).map fun s =>
        (s, .bufferIfAlone (.add ref fromSlot data binary))
  | .add ref fromSlot data binary =>
      match s.reg.heap[ref]? with
      | none =>
          some (s.release (.bucket ref), .returned (.bufferIfAlone false))
      | some b =>
          let (b, buffered) :=
            b.bufferIfAlone s.reg.cfg oracle.now fromSlot data binary
          some ((s.setReg (s.reg.setBucket ref b)).release (.bucket ref),
            .returned (.bufferIfAlone buffered))

def DrainCall.next (oracle : Oracle) (s : State κ δ) :
    DrainCall → Option (State κ δ × Call κ δ)
  | .lock ref =>
      (s.acquire (.bucket ref)).map fun s => (s, .drainBuffer (.take ref))
  | .take ref =>
      match s.reg.heap[ref]? with
      | none => some (s.release (.bucket ref), .returned (.drainBuffer []))
      | some b =>
          let (b, frames) := b.drainBuffer oracle.now
          some ((s.setReg (s.reg.setBucket ref b)).release (.bucket ref),
            .returned (.drainBuffer frames))

def Call.next [Payload δ] (oracle : Oracle) (call : Call κ δ)
    (s : State κ δ) : Option (State κ δ × Call κ δ) :=
  match call with
  | .join call => call.next oracle s
  | .leave call => call.next oracle s
  | .sweepIdle call => call.next oracle s
  | .get call => call.next s
  | .creatorIP call => call.next s
  | .bufferIfAlone call => call.next oracle s
  | .drainBuffer call => call.next oracle s
  | .returned _ => none

def Call.Entry : Call κ δ → Prop
  | .join (.start _) | .leave (.start _ _) | .sweepIdle .start
  | .get (.start _) | .creatorIP (.start _)
  | .bufferIfAlone (.lock _ _ _ _) | .drainBuffer (.lock _) => True
  | _ => False

/-- Any goroutines calling the registry. -/
def methods (κ δ : Type) [Payload δ] :
    Program (State κ δ) (Call κ δ) Oracle where
  next := fun oracle call s =>
    (call.next oracle s).map fun (s, call) => (s, [call])
  entry := Call.Entry

/-- The registry before any call. -/
def Fresh (cfg : Config) (pool : Pool (State κ δ) (Call κ δ)) : Prop :=
  pool = ⟨⟨newRegistry cfg, fun _ => 0⟩, []⟩

/-! ## Who holds what -/

/-- The resource that the next step of a call takes, or waits for. -/
def Call.wants (s : State κ δ) : Call κ δ → Option Resource
  | .join (.start _) | .sweepIdle .start | .leave (.announce _ _ _)
  | .leave (.start _ _) | .get (.start _) | .creatorIP (.start _) =>
      some .gate
  | .join (.await _ _) | .sweepIdle (.await _) | .leave (.await _ _ _) =>
      some .readers
  | .join (.lock _ _ ref _) | .leave (.lock _ _ ref _)
  | .creatorIP (.lock ref) | .bufferIfAlone (.lock ref _ _ _)
  | .drainBuffer (.lock ref) => some (.bucket ref)
  | .sweepIdle (.loop _ (id :: _) _) => (s.reg.m.get? id).map .bucket
  | _ => none

def Call.holds : Call κ δ → List Resource
  | .join (.await _ _) | .join (.find _ _) | .sweepIdle (.await _)
  | .sweepIdle (.range _) | .sweepIdle (.loop _ _ _)
  | .sweepIdle (.delete _ _ _ _ _) => [.gate]
  | .leave (.find _ _) | .get (.read _) | .creatorIP (.read _) => [.readers]
  | .join (.seat _ _ ref _) | .leave (.mark _ _ ref _)
  | .leave (.announce _ ref _) | .leave (.unlock ref _)
  | .creatorIP (.look ref) | .bufferIfAlone (.add ref _ _ _)
  | .drainBuffer (.take ref) => [.bucket ref]
  | .leave (.await _ ref _) | .leave (.erase _ ref _)
  | .sweepIdle (.look _ _ ref _ _) => [.gate, .bucket ref]
  | _ => []

def locking (κ δ : Type) : Locking (State κ δ) (Call κ δ) Resource where
  wants := Call.wants
  holds := Call.holds

def Call.Over : Call κ δ → Prop
  | .returned _ => True
  | _ => False

/-- The registry's mutex comes before those of the buckets. -/
def Resource.rank : Resource → ℕ
  | .gate => 0
  | .readers => 1
  | .bucket _ => 2

/-- A leave that has decided to delete its bucket. -/
def Call.Deleting : Call κ δ → Prop
  | .leave (.announce _ _ _) | .leave (.await _ _ _)
  | .leave (.erase _ _ _) | .leave (.unlock _ _) => True
  | _ => False

section Step

variable {s s' : State κ δ}

theorem State.take_held (s : State κ δ) (taken resource : Resource) :
    (s.take taken).held resource =
      s.held resource + [taken].count resource := by
  unfold State.take
  by_cases same : resource = taken
  · subst same
    simp
  · have none : [taken].count resource = 0 :=
      List.count_eq_zero.mpr (by simpa using same)
    rw [none]
    exact Function.update_of_ne same _ _

theorem State.release_held {released resource : Resource}
    (holds : [released].count resource ≤ s.held resource) :
    (s.release released).held resource + [released].count resource =
      s.held resource := by
  unfold State.release
  by_cases same : resource = released
  · subst same
    simp only [List.count_singleton_self] at holds ⊢
    rw [Function.update_self]
    exact Nat.sub_add_cancel holds
  · have none : [released].count resource = 0 :=
      List.count_eq_zero.mpr (by simpa using same)
    rw [none]
    exact Function.update_of_ne same _ _

/-- What a step takes or releases is what the call holds afterwards or held
before. -/
def Balanced (s s' : State κ δ) (call call' : Call κ δ) : Prop :=
  ∀ resource, call.holds.count resource ≤ s.held resource →
    s'.held resource + call.holds.count resource =
      s.held resource + call'.holds.count resource

theorem Balanced.kept {call call' : Call κ δ}
    (same : s'.held = s.held) (holds : call'.holds = call.holds) :
    Balanced s s' call call' := by
  intro resource _
  rw [same, holds]

theorem Balanced.takes {call call' : Call κ δ} {resource : Resource}
    (taken : s'.held = (s.take resource).held)
    (holds : call'.holds.Perm (resource :: call.holds)) :
    Balanced s s' call call' := by
  intro other _
  have both : (resource :: call.holds).count other =
      [resource].count other + call.holds.count other :=
    @List.count_append _ _ other [resource] _
  rw [taken, State.take_held, holds.count_eq, both]
  omega

theorem Balanced.releases {call call' : Call κ δ} {resource : Resource}
    (released : s'.held = (s.release resource).held)
    (holds : call.holds.Perm (resource :: call'.holds)) :
    Balanced s s' call call' := by
  intro other counted
  have both : (resource :: call'.holds).count other =
      [resource].count other + call'.holds.count other :=
    @List.count_append _ _ other [resource] _
  rw [holds.count_eq, both] at counted ⊢
  have left := @State.release_held _ _ s resource other (by omega)
  rw [released]
  omega

theorem Balanced.acquires {call call' after : Call κ δ} {resource : Resource}
    (next : (s.acquire resource).map (fun s => (s, after)) = some (s', call'))
    (holds : after.holds.Perm (resource :: call.holds)) :
    Balanced s s' call call' := by
  obtain ⟨taken, acquired, same⟩ := Option.map_eq_some_iff.mp next
  cases same
  unfold State.acquire at acquired
  split at acquired
  · cases acquired
    exact .takes rfl holds
  · cases acquired

theorem Balanced.enters {call call' after : Call κ δ}
    (next : s.rLock.map (fun s => (s, after)) = some (s', call'))
    (holds : after.holds.Perm (.readers :: call.holds)) :
    Balanced s s' call call' := by
  obtain ⟨taken, entered, same⟩ := Option.map_eq_some_iff.mp next
  cases same
  unfold State.rLock at entered
  split at entered
  · cases entered
    exact .takes rfl holds
  · cases entered

theorem Balanced.awaits {call call' after : Call κ δ}
    (next : s.drained.map (fun s => (s, after)) = some (s', call'))
    (holds : after.holds = call.holds) : Balanced s s' call call' := by
  obtain ⟨same, drained, equal⟩ := Option.map_eq_some_iff.mp next
  cases equal
  unfold State.drained at drained
  split at drained
  · cases drained
    exact .kept rfl holds
  · cases drained

variable {oracle : Oracle} {call' : Call κ δ}

theorem JoinCall.balanced {call : JoinCall κ}
    (next : call.next oracle s = some (s', call')) :
    Balanced s s' (.join call) call' := by
  cases call with
  | start args =>
      exact .acquires next (.refl _)
  | await args now =>
      exact .awaits next rfl
  | find args now =>
      cases next
      exact .releases rfl (.refl _)
  | lock args now ref created =>
      exact .acquires next (.refl _)
  | seat args now ref created =>
      cases next
      exact .releases rfl (.refl _)

theorem LeaveCall.balanced {call : LeaveCall κ}
    (next : call.next oracle s = some (s', call')) :
    Balanced s s' (.leave call) call' := by
  cases call with
  | start id slot =>
      exact .enters next (.refl _)
  | find id slot =>
      cases next
      apply Balanced.releases rfl
      split <;> exact .refl _
  | lock id slot ref now =>
      exact .acquires next (.refl _)
  | mark id slot ref now =>
      simp only [LeaveCall.next] at next
      split at next
      · cases next
        exact .kept rfl rfl
      · cases next
        exact .releases rfl (.refl _)
  | announce id ref result =>
      exact .acquires next (.refl _)
  | await id ref result =>
      exact .awaits next rfl
  | erase id ref result =>
      cases next
      exact .releases rfl (.refl _)
  | unlock ref result =>
      cases next
      exact .releases rfl (.refl _)

theorem SweepCall.balanced {call : SweepCall}
    (next : call.next oracle s = some (s', call')) :
    Balanced s s' (.sweepIdle call) call' := by
  cases call with
  | start =>
      exact .acquires next (.refl _)
  | await now =>
      exact .awaits next rfl
  | range now =>
      simp only [SweepCall.next] at next
      split at next
      · cases next
        exact .kept rfl rfl
      · cases next
  | loop now remaining creators =>
      cases remaining with
      | nil =>
          cases next
          exact .releases rfl (.refl _)
      | cons id ids =>
          simp only [SweepCall.next] at next
          split at next
          · cases next
            exact .kept rfl rfl
          · exact .acquires next (.swap _ _ _)
  | look now id ref remaining creators =>
      cases next
      apply Balanced.releases rfl
      split
      · exact .swap _ _ _
      · split <;> exact .swap _ _ _
  | delete now id creator remaining creators =>
      cases next
      exact .kept rfl rfl

theorem GetCall.balanced {call : GetCall}
    (next : call.next s = some (s', call')) :
    Balanced s s' (.get call) call' := by
  cases call with
  | start id =>
      exact .enters next (.refl _)
  | read id =>
      cases next
      exact .releases rfl (.refl _)

theorem CreatorCall.balanced {call : CreatorCall}
    (next : call.next s = some (s', call')) :
    Balanced s s' (.creatorIP call) call' := by
  cases call with
  | start id =>
      exact .enters next (.refl _)
  | read id =>
      cases next
      apply Balanced.releases rfl
      split <;> exact .refl _
  | lock ref =>
      exact .acquires next (.refl _)
  | look ref =>
      cases next
      exact .releases rfl (.refl _)

variable [Payload δ]

theorem BufferCall.balanced {call : BufferCall δ}
    (next : call.next oracle s = some (s', call')) :
    Balanced s s' (.bufferIfAlone call) call' := by
  cases call with
  | lock ref fromSlot data binary =>
      exact .acquires next (.refl _)
  | add ref fromSlot data binary =>
      simp only [BufferCall.next] at next
      split at next <;> cases next <;> exact .releases rfl (.refl _)

omit [Payload δ] in
theorem DrainCall.balanced {call : DrainCall}
    (next : call.next oracle s = some (s', call')) :
    Balanced s s' (.drainBuffer call) call' := by
  cases call with
  | lock ref =>
      exact .acquires next (.refl _)
  | take ref =>
      simp only [DrainCall.next] at next
      split at next <;> cases next <;> exact .releases rfl (.refl _)

theorem Call.balanced {call : Call κ δ}
    (next : call.next oracle s = some (s', call')) :
    Balanced s s' call call' := by
  cases call with
  | join call => exact call.balanced next
  | leave call => exact call.balanced next
  | sweepIdle call => exact call.balanced next
  | get call => exact call.balanced next
  | creatorIP call => exact call.balanced next
  | bufferIfAlone call => exact call.balanced next
  | drainBuffer call => exact call.balanced next
  | returned => cases next

omit [Payload δ] in
private theorem acquire_blocked {resource : Resource} {after : Call κ δ}
    (blocked : (s.acquire resource).map (fun s => (s, after)) = none) :
    s.held resource ≠ 0 := by
  intro free
  unfold State.acquire at blocked
  rw [if_pos free] at blocked
  cases blocked

omit [Payload δ] in
private theorem enter_blocked {after : Call κ δ}
    (blocked : s.rLock.map (fun s => (s, after)) = none) :
    s.held .gate ≠ 0 := by
  intro free
  unfold State.rLock at blocked
  rw [if_pos free] at blocked
  cases blocked

omit [Payload δ] in
private theorem await_blocked {after : Call κ δ}
    (blocked : s.drained.map (fun s => (s, after)) = none) :
    s.held .readers ≠ 0 := by
  intro free
  unfold State.drained at blocked
  rw [if_pos free] at blocked
  cases blocked

/-- A call that is not over and has no step wants a resource that is held. -/
theorem Call.wants_of_blocked {call : Call κ δ} (pending : ¬ call.Over)
    (blocked : ∀ oracle, call.next oracle s = none) :
    ∃ resource, call.wants s = some resource ∧ s.held resource ≠ 0 := by
  have here := blocked ⟨0, s.reg.m.keys⟩
  cases call with
  | join call =>
      cases call with
      | start args | lock args now ref created =>
          exact ⟨_, rfl, acquire_blocked here⟩
      | await args now => exact ⟨_, rfl, await_blocked here⟩
      | find | seat => cases here
  | leave call =>
      cases call with
      | start id slot => exact ⟨_, rfl, enter_blocked here⟩
      | lock id slot ref now | announce id ref result =>
          exact ⟨_, rfl, acquire_blocked here⟩
      | await id ref result => exact ⟨_, rfl, await_blocked here⟩
      | mark id slot ref now =>
          simp only [Call.next, LeaveCall.next] at here
          split at here <;> cases here
      | find | erase | unlock => cases here
  | sweepIdle call =>
      cases call with
      | start => exact ⟨_, rfl, acquire_blocked here⟩
      | await now => exact ⟨_, rfl, await_blocked here⟩
      | range now =>
          simp only [Call.next, SweepCall.next] at here
          rw [if_pos (List.Perm.refl _)] at here
          cases here
      | loop now remaining creators =>
          cases remaining with
          | nil => cases here
          | cons id ids =>
              simp only [Call.next, SweepCall.next] at here
              cases found : s.reg.m.get? id with
              | none =>
                  rw [found] at here
                  cases here
              | some ref =>
                  rw [found] at here
                  exact ⟨.bucket ref, congrArg (Option.map Resource.bucket)
                    found, acquire_blocked here⟩
      | look | delete => cases here
  | get call =>
      cases call with
      | start id => exact ⟨_, rfl, enter_blocked here⟩
      | read => cases here
  | creatorIP call =>
      cases call with
      | start id => exact ⟨_, rfl, enter_blocked here⟩
      | lock ref => exact ⟨_, rfl, acquire_blocked here⟩
      | read | look => cases here
  | bufferIfAlone call =>
      cases call with
      | lock ref fromSlot data binary =>
          exact ⟨_, rfl, acquire_blocked here⟩
      | add ref fromSlot data binary =>
          simp only [Call.next, BufferCall.next] at here
          split at here <;> cases here
  | drainBuffer call =>
      cases call with
      | lock ref => exact ⟨_, rfl, acquire_blocked here⟩
      | take ref =>
          simp only [Call.next, DrainCall.next] at here
          split at here <;> cases here
  | returned => exact absurd trivial pending

omit [Payload δ] in
/-- What a call waits for comes after what it holds. -/
theorem Call.ascends {call : Call κ δ} (keeps : ¬ call.Deleting)
    {resource resource' : Resource} (wants : call.wants s = some resource)
    (holds : resource' ∈ call.holds) : resource'.rank < resource.rank := by
  cases call with
  | join call =>
      cases call with
      | start | find | lock | seat => cases holds <;> cases wants
      | await args now =>
          cases wants
          cases List.mem_singleton.mp holds
          exact Nat.zero_lt_one
  | leave call =>
      cases call with
      | announce | await | erase | unlock => exact absurd trivial keeps
      | start | find | lock | mark => cases holds <;> cases wants
  | sweepIdle call =>
      cases call with
      | await now =>
          cases wants
          cases List.mem_singleton.mp holds
          exact Nat.zero_lt_one
      | loop now remaining creators =>
          cases List.mem_singleton.mp holds
          cases remaining with
          | nil => cases wants
          | cons id ids =>
              obtain ⟨ref, -, rfl⟩ := Option.map_eq_some_iff.mp wants
              exact Nat.zero_lt_two
      | start | range | look | delete => cases holds <;> cases wants
  | get call | creatorIP call | bufferIfAlone call | drainBuffer call =>
      cases call <;> cases holds <;> cases wants
  | returned => cases wants

omit [Payload δ] in
/-- A seat that has just been left waits for its peer, so that its bucket is
not deleted. -/
theorem leaveSection_keeps {reg : Registry κ δ} {now : Time} {id : String}
    {slot : Slot} {ref : Ref} (patient : 0 ≤ reg.cfg.reclaimTTL) :
    ((reg.leaveSection now id slot ref).2.deleteBucket &&
      reg.seatOccupied ref slot) = false := by
  rcases reg.leaveSection_cases now id slot ref with
    ⟨vacant, -⟩ | ⟨b, p, -, -, deletes, -⟩
  · have free : reg.seatOccupied ref slot = false := by
      unfold Registry.seatOccupied
      cases found : reg.heap[ref]? with
      | none => rfl
      | some b =>
          rw [Option.any_some, vacant b found]
          rfl
    rw [free, Bool.and_false]
  · rw [deletes, not_shouldDelete_markLeft slot p patient, Bool.false_and]

omit [Payload δ] in
private theorem after_eq {locked : Option (State κ δ)} {after : Call κ δ}
    (next : locked.map (fun s => (s, after)) = some (s', call')) :
    call' = after := by
  obtain ⟨_, -, same⟩ := Option.map_eq_some_iff.mp next
  exact (Prod.mk.inj same).2.symm

/-- Only a leave that has marked its seat goes on to delete its bucket. -/
theorem Call.keeps_next {call : Call κ δ} (keeps : ¬ call.Deleting)
    (patient : 0 ≤ s.reg.cfg.reclaimTTL)
    (next : call.next oracle s = some (s', call')) :
    ¬ call'.Deleting := by
  cases call with
  | join call =>
      cases call with
      | find | seat =>
          cases next
          exact not_false
      | _ =>
          rw [after_eq next]
          exact not_false
  | leave call =>
      cases call with
      | announce | await | erase | unlock => exact absurd trivial keeps
      | mark id slot ref now =>
          simp only [Call.next, LeaveCall.next, leaveSection_keeps patient]
            at next
          cases next
          exact not_false
      | find id slot =>
          cases next
          split <;> exact not_false
      | _ =>
          rw [after_eq next]
          exact not_false
  | sweepIdle call =>
      have inside : (∃ after, call' = .sweepIdle after) ∨
          ∃ result, call' = .returned result := by
        cases call with
        | loop now remaining creators =>
            cases remaining with
            | nil =>
                cases next
                exact .inr ⟨_, rfl⟩
            | cons id ids =>
                simp only [Call.next, SweepCall.next] at next
                split at next
                · cases next
                  exact .inl ⟨_, rfl⟩
                · exact .inl ⟨_, after_eq next⟩
        | range now =>
            simp only [Call.next, SweepCall.next] at next
            split at next <;> cases next
            exact .inl ⟨_, rfl⟩
        | look | delete =>
            cases next
            exact .inl ⟨_, rfl⟩
        | _ => exact .inl ⟨_, after_eq next⟩
      obtain ⟨after, rfl⟩ | ⟨result, rfl⟩ := inside <;> exact not_false
  | get call =>
      cases call with
      | start =>
          rw [after_eq next]
          exact not_false
      | read =>
          cases next
          exact not_false
  | creatorIP call =>
      cases call with
      | start | lock =>
          rw [after_eq next]
          exact not_false
      | read id =>
          cases next
          split <;> exact not_false
      | look =>
          cases next
          exact not_false
  | bufferIfAlone call =>
      cases call with
      | lock =>
          rw [after_eq next]
          exact not_false
      | add =>
          simp only [Call.next, BufferCall.next] at next
          split at next <;> cases next <;> exact not_false
  | drainBuffer call =>
      cases call with
      | lock =>
          rw [after_eq next]
          exact not_false
      | take =>
          simp only [Call.next, DrainCall.next] at next
          split at next <;> cases next <;> exact not_false
  | returned => cases next

omit [Payload δ] in
theorem joinEnter_cfg (reg : Registry κ δ) (now : Time) (args : JoinArgs κ) :
    (reg.joinEnter now args).1.cfg = reg.cfg := by
  unfold Registry.joinEnter
  split <;> rfl

omit [Payload δ] in
theorem joinAttach_cfg (reg : Registry κ δ) (now : Time) (args : JoinArgs κ)
    (ref : Ref) : (reg.joinAttach now args ref).1.cfg = reg.cfg := by
  unfold Registry.joinAttach
  split <;> rfl

omit [Payload δ] in
theorem leaveSection_cfg (reg : Registry κ δ) (now : Time) (id : String)
    (slot : Slot) (ref : Ref) :
    (reg.leaveSection now id slot ref).1.cfg = reg.cfg := by
  rcases reg.leaveSection_cases now id slot ref with
    ⟨-, same⟩ | ⟨_, _, -, -, -, -, same, -⟩
  · rw [same]
  · exact same

theorem Call.next_cfg {call : Call κ δ}
    (next : call.next oracle s = some (s', call')) :
    s'.reg.cfg = s.reg.cfg := by
  cases call with
  | join call =>
      cases call <;> grind [Call.next, JoinCall.next, State.acquire,
        State.drained, State.take, State.release, State.setReg,
        joinEnter_cfg, joinAttach_cfg, Registry.joinCreate]
  | leave call =>
      cases call <;> grind [Call.next, LeaveCall.next, State.acquire,
        State.drained, State.rLock, State.take, State.release, State.setReg,
        leaveSection_cfg]
  | sweepIdle call =>
      cases call with
      | loop now remaining creators =>
          cases remaining <;> grind [Call.next, SweepCall.next, State.acquire,
            State.take, State.release]
      | _ =>
          grind [Call.next, SweepCall.next, State.acquire, State.drained,
            State.take, State.release, State.setReg]
  | get call =>
      cases call <;> grind [Call.next, GetCall.next, State.rLock, State.take,
        State.release]
  | creatorIP call =>
      cases call <;> grind [Call.next, CreatorCall.next, State.acquire,
        State.rLock, State.take, State.release]
  | bufferIfAlone call =>
      cases call <;> grind [Call.next, BufferCall.next, State.acquire,
        State.take, State.release, State.setReg, Registry.setBucket]
  | drainBuffer call =>
      cases call <;> grind [Call.next, DrainCall.next, State.acquire,
        State.take, State.release, State.setReg, Registry.setBucket]
  | returned => cases next

end Step

/-! ## Runs -/

/-- What holds of every reachable pool. -/
structure Sound (cfg : Config) (pool : Pool (State κ δ) (Call κ δ)) : Prop where
  counted : ∀ resource, pool.shared.held resource =
    (pool.acts.flatMap Call.holds).count resource
  reclaimTTL : pool.shared.reg.cfg.reclaimTTL = cfg.reclaimTTL
  keeps : ∀ call ∈ pool.acts, ¬ call.Deleting
  single : ∀ stack ∈ pool.threads, ∃ call, stack = [call]

section Runs

variable [Payload δ] {cfg : Config} {pool pool' : Pool (State κ δ) (Call κ δ)}

omit [Payload δ] in
theorem Call.Entry.holds {call : Call κ δ} (entry : call.Entry) :
    call.holds = [] ∧ ¬ call.Deleting := by
  cases call with
  | join call | leave call | sweepIdle call | get call | creatorIP call
  | bufferIfAlone call | drainBuffer call =>
      cases call <;> first
        | exact ⟨rfl, not_false⟩
        | exact entry.elim
  | returned => exact entry.elim

theorem methods_next {oracle : Oracle} {call : Call κ δ} {s s' : State κ δ}
    {acts : List (Call κ δ)}
    (next : (methods κ δ).next oracle call s = some (s', acts)) :
    ∃ call', call.next oracle s = some (s', call') ∧ acts = [call'] := by
  obtain ⟨⟨after, call'⟩, stepped, same⟩ := Option.map_eq_some_iff.mp next
  cases same
  exact ⟨call', stepped, rfl⟩

omit [Payload δ] in
theorem Sound.held_ge (sound : Sound cfg pool) {call : Call κ δ}
    {others : List (Call κ δ)} (perm : pool.acts.Perm (call :: others))
    (resource : Resource) :
    pool.shared.held resource = call.holds.count resource +
      (others.flatMap Call.holds).count resource := by
  rw [sound.counted, (perm.flatMap_right _).count_eq, List.flatMap_cons,
    List.count_append]

theorem Sound.step {label : PoolLabel (Call κ δ) Oracle}
    (sound : Sound cfg pool) (patient : 0 ≤ cfg.reclaimTTL)
    (step : (methods κ δ).Step pool label pool') : Sound cfg pool' := by
  cases label with
  | spawn call =>
      obtain ⟨entry, same, perm⟩ := Program.Step.spawn_inv step
      obtain ⟨free, keeps⟩ := entry.holds
      refine ⟨?_, ?_, ?_, ?_⟩
      · intro resource
        rw [same, sound.counted, (perm.flatMap_right _).count_eq,
          List.flatMap_cons, free, List.nil_append]
      · rw [same]
        exact sound.reclaimTTL
      · intro other member
        rcases List.mem_cons.mp (perm.mem_iff.mp member) with rfl | old
        · exact keeps
        · exact sound.keeps other old
      · cases step with
        | spawn threads =>
            intro stack member
            rcases List.mem_append.mp member with old | new
            · exact sound.single stack old
            · exact ⟨call, List.mem_singleton.mp new⟩
  | run call oracle =>
      obtain ⟨acts, others, next, before, after⟩ := Program.Step.run_inv step
      obtain ⟨call', stepped, rfl⟩ := methods_next next
      have running : call ∈ pool.acts := before.mem_iff.mpr (by simp)
      have patient' : 0 ≤ pool.shared.reg.cfg.reclaimTTL := by
        rw [sound.reclaimTTL]
        exact patient
      refine ⟨?_, ?_, ?_, ?_⟩
      · intro resource
        have held := sound.held_ge before resource
        have balance := Call.balanced stepped resource (by omega)
        rw [(after.flatMap_right _).count_eq, List.singleton_append,
          List.flatMap_cons, List.count_append]
        exact Nat.add_right_cancel (balance.trans (by
          rw [held]
          simp only [methods, List.nil_append]
          omega))
      · rw [Call.next_cfg stepped]
        exact sound.reclaimTTL
      · intro other member
        rcases List.mem_cons.mp (after.mem_iff.mp member) with rfl | old
        · exact Call.keeps_next (sound.keeps call running) patient' stepped
        · exact sound.keeps other
            (before.mem_iff.mpr (List.mem_cons_of_mem _ old))
      · obtain ⟨acts, rest, next', moved⟩ := Program.Step.run_stacks step
        obtain ⟨call'', -, rfl⟩ := methods_next next'
        intro stack member
        rcases moved.only stack member with rfl | old | ⟨_, forked, -⟩
        · obtain ⟨top, alone⟩ := sound.single _ moved.before
          obtain ⟨-, rfl⟩ := List.cons.inj alone
          exact ⟨call'', rfl⟩
        · exact sound.single stack old
        · cases forked

theorem sound_of_reachable (patient : 0 ≤ cfg.reclaimTTL)
    (reachable : ((methods κ δ).system (Fresh cfg)).Reachable pool) :
    Sound cfg pool := by
  apply reachable.invariant (Sound cfg)
  · rintro _ rfl
    refine ⟨fun _ => rfl, rfl, ?_, ?_⟩
    · intro call member
      cases member
    · intro stack member
      cases member
  · intro pool label pool' sound step
    exact sound.step patient step

omit [Payload δ] in
theorem Sound.pending_of_holds (sound : Sound cfg pool) {call : Call κ δ}
    (member : call ∈ pool.acts) {resource : Resource}
    (holds : resource ∈ call.holds) :
    ∃ j, Program.Pending Call.Over pool j ∧
      pool.threads[j]? = some [call] := by
  obtain ⟨stack, listed, inside⟩ := List.mem_flatten.mp member
  obtain ⟨top, rfl⟩ := sound.single stack listed
  obtain rfl := List.mem_singleton.mp inside
  obtain ⟨j, found⟩ := List.mem_iff_getElem?.mp listed
  refine ⟨j, ⟨call, [], found, ?_⟩, found⟩
  intro ended
  cases call with
  | returned => cases holds
  | _ => exact ended

theorem Sound.ranked (sound : Sound cfg pool) :
    Program.Ranked (methods κ δ) Call.Over (locking κ δ) Resource.rank
      pool where
  waits := by
    rintro i ⟨⟨call, rest, top, pending⟩, stuck⟩
    have blocked : ∀ oracle, call.next oracle pool.shared = none := by
      intro oracle
      have none := stuck oracle
      unfold Program.exec at none
      rw [top] at none
      exact Option.map_eq_none_iff.mp (Option.map_eq_none_iff.mp none)
    obtain ⟨resource, wants, taken⟩ := call.wants_of_blocked pending blocked
    rw [sound.counted, ← Nat.pos_iff_ne_zero, List.count_pos_iff,
      List.mem_flatMap] at taken
    obtain ⟨holder, member, holds⟩ := taken
    obtain ⟨j, pendingHolder, found⟩ := sound.pending_of_holds member holds
    exact ⟨j, pendingHolder, call, rest, [holder], resource, top, wants,
      found, holder, List.mem_singleton_self _, holds⟩
  ascends := by
    intro call rest resource call' resource' listed wants member holds
    obtain ⟨top, alone⟩ := sound.single _ listed
    obtain ⟨rfl, rfl⟩ := List.cons.inj alone
    obtain rfl := List.mem_singleton.mp member
    exact Call.ascends (sound.keeps _ (List.mem_flatten.mpr
      ⟨_, listed, List.mem_singleton_self _⟩)) wants holds

omit [Payload δ] in
theorem Resource.rank_lt (resource : Resource) : resource.rank < 3 := by
  cases resource with
  | gate => exact Nat.zero_lt_succ 2
  | readers => exact Nat.one_lt_succ_succ 1
  | bucket ref => exact Nat.lt_succ_self 2

/-- Whatever calls of the registry run at the same time, and wherever they are
interrupted, no calls wait for one another, and as long as some call is not
over there is one that goes on. -/
theorem registry_not_deadlocked (cfg : Config) (patient : 0 ≤ cfg.reclaimTTL)
    {pool : Pool (State κ δ) (Call κ δ)}
    (reachable : ((methods κ δ).system (Fresh cfg)).Reachable pool) :
    ¬ (methods κ δ).Deadlocked Call.Over (locking κ δ) pool ∧
      ((∃ i, Program.Pending Call.Over pool i) →
        ∃ i oracle pool', (methods κ δ).exec pool (i, oracle) = some pool') := by
  have ranked := (sound_of_reachable patient reachable).ranked
  constructor
  · exact ranked.not_deadlocked Resource.rank_lt
  · exact ranked.goes_on Resource.rank_lt

end Runs

/-- A leave holds the room's bucket, and a sweep that holds the registry is about
to take it. -/
private def crossing :
    Option (Pool (State String String) (Call String String)) :=
  (methods String String).execAll
    ⟨⟨newRegistry roomConfig, fun _ => 0⟩,
      [[.join (.start (roomJoin "alice" "1"))], [.leave (.start "room" 0)],
        [.sweepIdle .start]]⟩
    (List.replicate 5 (0, ⟨0, []⟩) ++ List.replicate 3 (1, ⟨1, []⟩) ++
      List.replicate 3 (2, ⟨2, ["room"]⟩))

private def marksRoom : Call String String → Bool
  | .leave (.mark _ _ ref _) => ref = 0
  | _ => false

private def sweepsRoom : Call String String → Bool
  | .sweepIdle (.loop _ remaining _) => remaining = ["room"]
  | _ => false

theorem registry_not_deadlocked_crossing :
    ∃ pool, crossing = some pool ∧ pool.acts.any marksRoom = true ∧
      pool.acts.any sweepsRoom = true ∧
      ¬ (methods String String).Deadlocked Call.Over (locking String String)
        pool ∧
      ((∃ i, Program.Pending Call.Over pool i) →
        ∃ i oracle pool', (methods String String).exec pool (i, oracle) =
          some pool') := by
  have reached : crossing.any (fun pool => pool.acts.any marksRoom &&
      pool.acts.any sweepsRoom) = true := by
    decide
  obtain ⟨pool, ran, crosses⟩ := (Option.any_eq_true _ _).mp reached
  obtain ⟨marks, sweeps⟩ := Bool.and_eq_true_iff.mp crosses
  refine ⟨pool, ran, marks, sweeps, ?_⟩
  apply registry_not_deadlocked roomConfig (by decide)
  refine Program.execAll_run ?_ ran
  have started : ((methods String String).system (Fresh roomConfig)).Reachable
      ⟨⟨newRegistry roomConfig, fun _ => 0⟩, []⟩ := .start rfl
  exact Program.spawnAll_reachable started
    [.join (.start (roomJoin "alice" "1")), .leave (.start "room" 0),
      .sweepIdle .start] (by simp [methods, Call.Entry])

end Byteln.Server.Locks

import Byteln.Client.IncomingSteps
import Byteln.Client.TransferEffects

/-!
# What a receiver takes in

The incoming transfers of a room are counted, and their declared sizes added
up, when a chunk asks for a new one.  Nothing else lets a room grow, so the
limits hold in every state.
-/

namespace Byteln.Client

open Byteln.Library

namespace Engine

variable {sha256 : Bytes → JSString} {turn : Turn} {s s' : Engine}
  {env : Env}

/-! ## Sections that bring no chunk -/

/-- Entries may have left the rooms; what is declared stays. -/
structure Shrinks (s s' : Engine) : Prop where
  limits : s'.limits = s.limits
  listed : ∀ bucketId id,
    s'.inc.find bucketId id = s.inc.find bucketId id ∨
      s'.inc.find bucketId id = none
  kept : ∀ (ref : Ref) (i : Incoming), s.incoming[ref]? = some i →
    ∃ i', s'.incoming[ref]? = some i' ∧ i.Same i'

theorem Shrinks.refl (s : Engine) : Shrinks s s where
  limits := rfl
  listed := fun _ _ => .inl rfl
  kept := fun _ i found => ⟨i, found, .refl i⟩

theorem Shrinks.trans {middle : Engine} (first : Shrinks s middle)
    (second : Shrinks middle s') : Shrinks s s' where
  limits := second.limits.trans first.limits
  listed := by
    intro bucketId id
    rcases second.listed bucketId id with same | gone
    · rw [same]
      exact first.listed bucketId id
    · exact .inr gone
  kept := by
    intro ref i found
    obtain ⟨i₁, found₁, same₁⟩ := first.kept ref i found
    obtain ⟨i₂, found₂, same₂⟩ := second.kept ref i₁ found₁
    refine ⟨i₂, found₂, ?_⟩
    exact
      { bucketId := same₂.bucketId.trans same₁.bucketId
        id := same₂.id.trans same₁.id
        header := same₂.header.trans same₁.header
        total := same₂.total.trans same₁.total }

theorem limits_of_move (move : Move sha256 turn s s') :
    s'.limits = s.limits := by
  cases move <;> rfl

theorem shrinks_of_move (other : ∀ bucketId c,
      turn.event ≠ .handleChunk bucketId c)
    (move : Move sha256 turn s s') : Shrinks s s' where
  limits := limits_of_move move
  listed := by
    intro bucketId id
    rcases move.inc bucketId id with same | gone | ⟨⟨c, event, -⟩, -⟩
    · exact .inl same
    · exact .inr gone.1
    · exact absurd event (other bucketId c)
  kept := fun _ _ found => move.incoming_kept found

theorem shrinks_of_moves (other : ∀ bucketId c,
      turn.event ≠ .handleChunk bucketId c)
    (moves : Moves sha256 turn s s') : Shrinks s s' := by
  induction moves with
  | refl => exact .refl s
  | tail _ move induction =>
      exact induction.trans (shrinks_of_move other move)

/-! ## Declared sizes -/

/-- The declared sizes of the incoming transfers of a room. -/
def sizes (s : Engine) (bucketId : JSString) : List Nat :=
  (s.pending bucketId).map fun i => i.header.size

/-- Every entry of a room has its transfer. -/
theorem sizes_eq (s : Engine) (bucketId : JSString) :
    s.sizes bucketId = (s.inc.refs bucketId).filterMap fun ref =>
      s.incoming[ref]?.map fun i => i.header.size := by
  unfold sizes pending
  rw [List.map_filterMap]

theorem allocated (sound : s.Sound) {bucketId : JSString} {ref : Ref}
    (listed : ref ∈ s.inc.refs bucketId) :
    ∃ i, s.incoming[ref]? = some i := by
  obtain ⟨id, entry⟩ := (Rooms.mem_refs_iff _ _ _).mp listed
  obtain ⟨i, found, -⟩ := sound.inKeys _ _ _ entry
  exact ⟨i, found⟩

theorem length_sizes (sound : s.Sound) (bucketId : JSString) :
    (s.sizes bucketId).length = (s.inc.refs bucketId).length := by
  rw [sizes_eq, List.length_filterMap_eq_countP, List.countP_eq_length]
  intro ref listed
  obtain ⟨i, found⟩ := allocated sound listed
  rw [found]
  rfl

theorem sizes_subperm (sound : s.Sound) (shrinks : Shrinks s s')
    (bucketId : JSString) :
    (s'.sizes bucketId).Subperm (s.sizes bucketId) := by
  have fewer := Rooms.refs_subperm (shrinks.listed bucketId)
  have same : s'.sizes bucketId =
      (s'.inc.refs bucketId).filterMap fun ref =>
        s.incoming[ref]?.map fun i => i.header.size := by
    rw [sizes_eq]
    apply List.filterMap_congr
    intro ref listed
    obtain ⟨i, found⟩ := allocated sound (fewer.subset listed)
    obtain ⟨i', found', kept⟩ := shrinks.kept ref i found
    rw [found, found', Option.map_some, Option.map_some, kept.header]
  obtain ⟨kept, perm, sublist⟩ := fewer
  rw [same, sizes_eq]
  exact ⟨kept.filterMap _, perm.filterMap _, sublist.filterMap _⟩

/-! ## Sections that bring a chunk -/

/-- The rooms, and what the transfers declare, are as before. -/
structure Declares (s s' : Engine) : Prop where
  limits : s'.limits = s.limits
  inc : s'.inc = s.inc
  headers : ∀ ref : Ref, (s'.incoming[ref]?.map fun i => i.header) =
    s.incoming[ref]?.map fun i => i.header

theorem Declares.sizes (declares : Declares s s') (bucketId : JSString) :
    s'.sizes bucketId = s.sizes bucketId := by
  have same : ∀ ref : Ref, (s'.incoming[ref]?.map fun i => i.header.size) =
      s.incoming[ref]?.map fun i => i.header.size := by
    intro ref
    have headers := congrArg (Option.map TransferHeader.size)
      (declares.headers ref)
    simpa [Option.map_map, Function.comp_def] using headers
  rw [sizes_eq, sizes_eq, declares.inc]
  exact List.filterMap_congr fun ref _ => same ref

/-- Only a transfer has changed, and not what it declares. -/
theorem Declares.set {ref : Ref} {i i' : Incoming}
    (limits : s'.limits = s.limits) (inc : s'.inc = s.inc)
    (incoming : s'.incoming = s.incoming.set ref i')
    (found : s.incoming[ref]? = some i) (header : i'.header = i.header) :
    Declares s s' where
  limits := limits
  inc := inc
  headers := by
    intro other
    rw [incoming, getElem?_set_of_some found]
    split
    · rename_i here
      rw [here, found, Option.map_some, Option.map_some, header]
    · rfl

theorem declares_complete {ref : Ref} {i i' : Incoming}
    (found : s.incoming[ref]? = some i) (header : i'.header = i.header) :
    Declares s (s.complete ref i') := by
  unfold complete
  split
  · exact .set rfl rfl rfl found header
  · exact .set rfl rfl rfl found header
  · exact .set rfl rfl rfl found header

theorem declares_fill {ref : Ref} {i : Incoming}
    (found : s.incoming[ref]? = some i)
    (c : TransferChunkPlainMessage Time) :
    Declares s (s.fill env ref i c) := by
  unfold fill
  split
  · exact ⟨rfl, rfl, fun _ => rfl⟩
  · dsimp only
    split
    · exact declares_complete found rfl
    · split
      · exact .set rfl rfl rfl found rfl
      · exact .set rfl rfl rfl found rfl

/-- A new transfer comes last in its room. -/
theorem sizes_addIn (sound : s.Sound) {i : Incoming}
    (absent : s.inc.find i.bucketId i.id = none) (bucketId : JSString) :
    (s.addIn i).sizes bucketId =
      if bucketId = i.bucketId then s.sizes bucketId ++ [i.header.size]
      else s.sizes bucketId := by
  have before : ∀ bucketId, ((s.inc.refs bucketId).filterMap fun ref =>
      (s.incoming ++ [i])[ref]?.map fun i => i.header.size) =
      s.sizes bucketId := by
    intro bucketId
    rw [sizes_eq]
    apply List.filterMap_congr
    intro ref listed
    obtain ⟨i', found⟩ := allocated sound listed
    obtain ⟨inBounds, -⟩ := List.getElem?_eq_some_iff.mp found
    rw [List.getElem?_append_left inBounds]
  rw [sizes_eq]
  simp only [addIn, Rooms.refs_put s.inc s.incoming.length absent]
  split
  · rename_i here
    rw [List.filterMap_append, before, here]
    simp
  · exact before bucketId

/-! ## The limits -/

/-- No room has more transfers, or larger ones together, than the limits
allow. -/
def WithinLimits (s : Engine) : Prop :=
  ∀ bucketId, (s.sizes bucketId).length ≤ s.limits.maxIncomingPerRoom ∧
    (s.sizes bucketId).sum ≤ s.limits.maxIncomingBytesPerRoom

theorem WithinLimits.declares (within : s.WithinLimits)
    (declares : Declares s s') : s'.WithinLimits := by
  intro bucketId
  rw [declares.sizes, declares.limits]
  exact within bucketId

theorem WithinLimits.shrinks (within : s.WithinLimits) (sound : s.Sound)
    (shrinks : Shrinks s s') : s'.WithinLimits := by
  intro bucketId
  obtain ⟨count, bytes⟩ := within bucketId
  obtain ⟨kept, perm, sublist⟩ := sizes_subperm sound shrinks bucketId
  rw [shrinks.limits, ← perm.length_eq, ← perm.sum_eq]
  exact ⟨sublist.length_le.trans count,
    (sublist.sum_le_sum fun _ _ => Nat.zero_le _).trans bytes⟩

/-- A transfer is listed only while there is room for it. -/
theorem WithinLimits.handleChunk (within : s.WithinLimits) (sound : s.Sound)
    (bucketId : JSString) (c : TransferChunkPlainMessage Time) :
    (s.handleChunk env bucketId c).WithinLimits := by
  unfold Engine.handleChunk
  split
  · rename_i ref i found
    split
    · exact within
    · exact within.declares
        (declares_fill (findIn_eq_some_iff.mp found).2 c)
  · rename_i missing
    split
    · exact within
    · split
      · exact within.declares ⟨rfl, rfl, fun _ => rfl⟩
      · dsimp only
        split
        · exact within.declares ⟨rfl, rfl, fun _ => rfl⟩
        · rename_i fits
          rw [not_or, not_le, not_lt] at fits
          let i := Incoming.open env.now bucketId c
          have absent : s.inc.find i.bucketId i.id = none :=
            sound.find_of_findIn_none missing
          have added : (s.addIn i).WithinLimits := by
            intro other
            rw [sizes_addIn sound absent]
            split
            · rename_i here
              obtain rfl : other = bucketId := here
              have count : (s.sizes other).length <
                  s.limits.maxIncomingPerRoom := by
                rw [sizes, List.length_map]
                exact fits.1
              rw [List.length_append, List.sum_append]
              exact ⟨count, fits.2⟩
            · exact within other
          have found : (s.addIn i).incoming[s.incoming.length]? = some i :=
            List.getElem?_concat_length
          have ready : (s.addIn i).ensureTimer.WithinLimits :=
            added.declares ⟨rfl, rfl, fun _ => rfl⟩
          split
          · have checked : ((s.addIn i).ensureTimer.suspend
                (.storage s.incoming.length)).WithinLimits :=
              ready.declares ⟨rfl, rfl, fun _ => rfl⟩
            apply checked.declares
            apply declares_fill
            exact found
          · apply ready.declares
            apply declares_fill
            exact found

theorem withinLimits_of_reachable {limits : TransferLimits}
    {checksStorage : Bool}
    (reached : (Engine.system sha256 limits checksStorage).Reachable s) :
    s.limits = limits ∧ s.WithinLimits := by
  obtain ⟨start, trace, initial, run⟩ := reached
  induction run with
  | refl =>
      obtain rfl : start = .new limits checksStorage := initial
      refine ⟨rfl, ?_⟩
      intro bucketId
      exact ⟨Nat.zero_le _, Nat.zero_le _⟩
  | @snoc middle finish trace label run stepped induction =>
      obtain ⟨same, within⟩ := induction
      have sound := sound_of_reachable ⟨start, trace, initial, run⟩
      obtain ⟨event, env⟩ := label
      have moves : Moves sha256 (Turn.of middle event env) middle finish :=
        step_moves sound rfl stepped
      have limits' : finish.limits = middle.limits := by
        clear same within stepped
        induction moves with
        | refl => rfl
        | tail _ move induction =>
            exact (limits_of_move move).trans induction
      refine ⟨limits'.trans same, ?_⟩
      by_cases chunk : ∃ bucketId c, event = .handleChunk bucketId c
      · obtain ⟨bucketId, c, rfl⟩ := chunk
        obtain rfl := Option.some.inj stepped
        exact within.handleChunk sound bucketId c
      · have other : ∀ bucketId c, event ≠ .handleChunk bucketId c :=
          fun bucketId c same => chunk ⟨bucketId, c, same⟩
        exact within.shrinks sound (shrinks_of_moves other moves)

/-! ## Refused transfers -/

/-- What storing a chunk tells the outside ends with the transfers of the
room. -/
theorem log_fill (s : Engine) (env : Env) (ref : Ref) (i : Incoming)
    (c : TransferChunkPlainMessage Time) :
    (s.fill env ref i c).log = s.log ∨ ∃ calls bucketId transfers,
      (s.fill env ref i c).log =
        s.log ++ calls ++ [.publish bucketId transfers] := by
  unfold fill
  split
  · exact .inl rfl
  · dsimp only
    split
    · left
      unfold complete
      split <;> rfl
    · right
      split
      · exact ⟨[_], _, _, rfl⟩
      · exact ⟨[], _, _, by rw [List.append_nil]; rfl⟩

/-- A chunk that is answered with a cancel changes nothing. -/
theorem handleChunk_refused {bucketId : JSString}
    {c : TransferChunkPlainMessage Time}
    {msg : TransferCancelPlainMessage Time}
    (refused : (s.handleChunk env bucketId c).log =
      s.log ++ [.send bucketId (.xferCancel msg)]) :
    s.handleChunk env bucketId c =
      s.record (.send bucketId (.xferCancel msg)) := by
  have silent : s.log ≠ s.log ++ [.send bucketId (.xferCancel msg)] := by
    intro same
    have lengths := congrArg List.length same
    simp at lengths
  have stored : ∀ {s₁ : Engine} {ref : Ref} {i : Incoming},
      s₁.log = s.log → (s₁.fill env ref i c).log ≠
        s.log ++ [.send bucketId (.xferCancel msg)] := by
    intro s₁ ref i same filled
    rcases log_fill s₁ env ref i c with kept | ⟨calls, room, transfers, told⟩
    · rw [kept, same] at filled
      exact silent filled
    · rw [told] at filled
      have last := congrArg List.getLast? filled
      simp at last
  unfold handleChunk at refused ⊢
  split
  · rename_i ref i found
    simp only [found] at refused
    split at refused
    · exact absurd refused silent
    · exact absurd refused (stored rfl)
  · rename_i missing
    simp only [missing] at refused
    split at refused
    · exact absurd refused silent
    · rename_i incoming
      split at refused
      · simp [ackKnown, sendCtl, record] at refused
      · rename_i unknown
        rw [if_neg incoming, if_neg unknown]
        split at refused
        · rename_i full
          rw [if_pos full]
          simp only [sendCancel, sendCtl, record, List.append_cancel_left_eq,
            List.cons.injEq, and_true] at refused ⊢
          rw [refused]
        · apply absurd refused
          apply stored
          split <;> rfl

/-- The memory a peer can claim is bounded, and a chunk of a transfer that is
refused leaves the others alone. -/
theorem intake_within_limits {limits : TransferLimits} {checksStorage : Bool}
    (reached : (Engine.system sha256 limits checksStorage).Reachable s) :
    (∀ bucketId,
      (s.sizes bucketId).length ≤ limits.maxIncomingPerRoom ∧
      (s.inc.refs bucketId).length ≤ limits.maxIncomingPerRoom ∧
      (s.sizes bucketId).sum ≤ limits.maxIncomingBytesPerRoom) ∧
    ∀ env bucketId c msg,
      (s.handleChunk env bucketId c).log =
        s.log ++ [.send bucketId (.xferCancel msg)] →
      s.handleChunk env bucketId c =
        s.record (.send bucketId (.xferCancel msg)) := by
  obtain ⟨rfl, within⟩ := withinLimits_of_reachable reached
  have sound := sound_of_reachable reached
  constructor
  · intro bucketId
    obtain ⟨count, bytes⟩ := within bucketId
    refine ⟨count, ?_, bytes⟩
    rw [← length_sizes sound]
    exact count
  · intro env bucketId c msg refused
    exact handleChunk_refused refused

/-- Room for one transfer. -/
def singleLimits : TransferLimits :=
  { DEFAULT_TRANSFER_LIMITS with maxIncomingPerRoom := 1 }

/-- The last chunk of a payload of two. -/
def secondChunk (id : JSString) : TransferChunkPlainMessage Time where
  id := id
  index := 1
  total := 2
  header :=
    { kind := .file, ts := 0, mime := [], size := 262145, sha256 := [],
      name := none, w := none, h := none, replyTo := none }
  data := [7]

def intakeEnv : Env where
  now := 0
  canSend := fun _ => true
  hasMessage := fun _ _ => false

/-- A second transfer is refused while the first one is pending. -/
theorem intake_within_limits_single :
    let s := (Engine.new singleLimits false).handleChunk intakeEnv []
      (secondChunk [1])
    (s.sizes []).length ≤ 1 ∧
      s.handleChunk intakeEnv [] (secondChunk [2]) =
        s.record (.send [] (.xferCancel
          { ts := 0, id := [2], reason := some (js "busy") })) := by
  intro s
  have reached : (Engine.system (fun _ => []) singleLimits false).Reachable
      s := by
    have stepped : (Engine.new singleLimits false).step (fun _ => [])
        intakeEnv (.handleChunk [] (secondChunk [1])) = some s := rfl
    exact reachable_step (.start rfl) stepped
  obtain ⟨within, refuses⟩ := intake_within_limits reached
  exact ⟨(within []).1, refuses intakeEnv [] (secondChunk [2]) _ rfl⟩

end Engine

end Byteln.Client

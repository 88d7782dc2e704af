import Byteln.Client.Consent
import Byteln.Client.ManagerSteps

/-!
# Approval of a merge

Chunks of a bundle are put together without a look at the room's session, and
the bundle is merged once it is complete.  `GuardedMerges` is what is missing:
the last chunk arrives while the room's session is for the bundle's request,
and no step ends that session while the bundle is read and merged.
-/

namespace Byteln.Client

open Byteln.Library

variable {ν : Type}

/-- The room and the request of a bundle that is being read or merged. -/
def Activation.merging : Activation ν → Option (JSString × JSString)
  | .unpackHistory b r _ | .mergeMessages b r _ _ => some (b, r)
  | _ => none

section Steps

variable {device device' : Device ν} {b r : JSString}

theorem Device.Active.congr (active : device.Active b r)
    (sessions : device'.resyncSessions = device.resyncSessions) :
    device'.Active b r := by
  obtain ⟨session, found, sameRequest⟩ := active
  exact ⟨session, sessions ▸ found, sameRequest⟩

theorem receivePart_sessions (chunk : HistoryChunkPlainMessage)
    (pending : PendingHistory) :
    (device.receivePart b chunk pending).1.resyncSessions =
      device.resyncSessions := by
  unfold Device.receivePart
  split
  · rfl
  · split
    · rfl
    · dsimp only
      split <;> rfl

/-- Receiving chunks does not touch the sessions. -/
theorem handleHistoryChunk_sessions (chunk : HistoryChunkPlainMessage) :
    (device.handleHistoryChunk b chunk).1.resyncSessions =
      device.resyncSessions := by
  unfold Device.handleHistoryChunk
  split
  · split
    · rfl
    · split
      · rfl
      · exact receivePart_sessions _ _
  · split
    · rfl
    · exact receivePart_sessions _ _

variable [LinearOrder ν] {codec : HistoryCodec ν}
  {nfc : JSString → JSString} {outside : Outside ν} {act act' : Activation ν}

/-- A merge goes on from a merge, or starts with the last chunk of its
bundle.  Neither touches the sessions. -/
theorem merging_origin
    (started : act' ∈ (act.next codec nfc outside device).2)
    (merging : act'.merging = some (b, r)) :
    (act.next codec nfc outside device).1.resyncSessions =
        device.resyncSessions ∧
      (act.merging = some (b, r) ∨
        ∃ chunk, act = .onBinary b (.historyChunk chunk) ∧
          r = bundleRequestId chunk.id ∧ device.Completes chunk) := by
  cases Device.next_starts started with
  | @unpack b' chunk assembled complete =>
      obtain ⟨rfl, rfl⟩ := by simpa [Activation.merging] using merging
      constructor
      · dsimp only [Activation.next, Device.onBinary]
        split
        · rfl
        · exact handleHistoryChunk_sessions chunk
      · exact .inr ⟨chunk, rfl, rfl, complete⟩
  | merge unpacked =>
      refine ⟨?_, .inl merging⟩
      dsimp only [Activation.next, Device.unpackHistory]
      rw [unpacked]
  | mergeSeen known =>
      refine ⟨?_, .inl merging⟩
      dsimp only [Activation.next, Device.mergeMessages]
      rw [if_pos known]
  | merged new =>
      refine ⟨?_, .inl merging⟩
      dsimp only [Activation.next, Device.mergeMessages]
      rw [if_neg new]
  | _ => cases merging

end Steps

section Runs

variable [LinearOrder ν] (codec : HistoryCodec ν) (nfc : JSString → JSString)

/-- The condition on a step.  The last chunk of a bundle arrives while the
room's session is for its request; and while a bundle is read or merged, no
other activation ends or replaces the session of its request. -/
def GuardedMerges :
    Device.Pool ν → PoolLabel (Activation ν) (Outside ν) → Prop
  | pool, .run act outside =>
      (∀ b chunk, act = .onBinary b (.historyChunk chunk) →
        pool.shared.Completes chunk →
        pool.shared.Active b (bundleRequestId chunk.id)) ∧
      ∀ others, pool.acts.Perm (act :: others) →
        ∀ other ∈ others, ∀ b r, other.merging = some (b, r) →
          pool.shared.Active b r →
          (act.next codec nfc outside pool.shared).1.Active b r
  | _, .spawn _ => True

variable {codec nfc}

theorem merging_active
    {start pool : Device.Pool ν}
    {trace : Device.Trace ν}
    (idle : start.threads = [])
    (run : ((deviceSystem codec nfc).restrict (GuardedMerges codec nfc)).Run
      start trace pool) :
    ∀ act ∈ pool.acts, ∀ b r, act.merging = some (b, r) →
      pool.shared.Active b r := by
  refine Program.run_invariant (manager codec nfc)
    (fun _ device acts => ∀ act ∈ acts, ∀ b r, act.merging = some (b, r) →
      device.Active b r) ?_ ?_ ?_ ?_ run
  · intro _ device acts acts' perm active act member
    exact active act (perm.mem_iff.mpr member)
  · intro _ pool act entry _ active other member b r merging
    rcases List.mem_cons.mp member with rfl | earlier
    · cases entry <;> cases merging
    · exact active other earlier b r merging
  · intro _ pool act outside device' acts others perm active next guarded
    obtain ⟨rfl, rfl⟩ := Prod.mk.inj (Option.some.inj next)
    intro other member b r merging
    rcases List.mem_append.mp member with new | old
    · obtain ⟨sessions, earlier | ⟨chunk, rfl, rfl, complete⟩⟩ :=
        merging_origin new merging
      · exact (active act (by simp) b r earlier).congr sessions
      · exact (guarded.1 b chunk rfl complete).congr sessions
    · have waiting : other ∈ others := by simpa [manager] using old
      refine guarded.2 others perm other waiting b r merging ?_
      exact active other (List.mem_cons_of_mem _ waiting) b r merging
  · intro act member
    simp [Pool.acts, idle] at member

end Runs

/-- When its merges are guarded, a device adds a message of a bundle only
while the room's session is for the bundle's request, to which its user has
consented. -/
theorem bundles_merged_with_consent [LinearOrder ν] {codec : HistoryCodec ν}
    {nfc : JSString → JSString} {start pool pool' : Device.Pool ν}
    {trace : Device.Trace ν}
    (loaded : start.shared.Loaded) (idle : start.threads = [])
    (run : ((deviceSystem codec nfc).restrict (GuardedMerges codec nfc)).Run
      start trace pool)
    {b r : JSString} {seen : List JSString} {m : StoredMessage ν}
    {msgs : List (StoredMessage ν)} {outside : Outside ν}
    (merges : (manager codec nfc).Step pool
      (.run (.mergeMessages b r seen (m :: msgs)) outside) pool')
    (added : m.id ∉ seen) :
    pool'.shared.store = pool.shared.store.addMessage b m ∧
      pool.shared.Active b r ∧ Consented trace b r := by
  obtain ⟨acts, others, next, perm, -⟩ := Program.Step.run_inv merges
  have pending : .mergeMessages b r seen (m :: msgs) ∈ pool.acts :=
    perm.mem_iff.mpr (by simp)
  have active := merging_active idle run _ pending b r rfl
  refine ⟨?_, active, ?_⟩
  · have stepped := congrArg (fun outcome => outcome.1.store)
      (Option.some.inj next)
    dsimp only [Activation.next, Device.mergeMessages] at stepped
    rw [if_neg added] at stepped
    exact stepped.symm
  · obtain ⟨session, found, rfl⟩ := active
    have invariant := consentInvariant_of_run loaded idle run
    exact invariant.1.sessions b session found

private def bundle : HistoryChunkPlainMessage where
  id := js "r:requester"
  index := 0
  total := 1
  data := [7]
  compressedLength := some 1

/-- The message of the bundle, as the receiver reads it. -/
private def written : StoredMessage Nat :=
  ⟨.text ⟨0, [], some [7], none⟩, [7], .self⟩

/-- The user accepts a resync, and the peer sends its bundle. -/
private def approvedMoves :
    List (Program.Move (Activation Nat) (Outside Nat)) :=
  [.spawn (.onBinary sampleRoom (.resyncRequest 0 (js "r") none)),
    .run 0 (calm []), .run 0 (calm []),
    .spawn (.respondResync sampleRoom true), .run 1 (calm []),
    .run 1 (calm []), .spawn (.onBinary sampleRoom (.historyChunk bundle)),
    .run 2 (calm []), .run 2 (calm [])]

/-- The step runs alone, and a chunk arrives in a session of its request. -/
private def orderly :
    Device.Pool Nat × PoolLabel (Activation Nat) (Outside Nat) → Bool
  | (pool, .run act _) =>
      pool.acts.length ≤ 1 &&
        match act with
        | .onBinary b (.historyChunk chunk) =>
            (pool.shared.resyncSessions.get? b).any fun session =>
              session.requestId = bundleRequestId chunk.id
        | _ => true
  | _ => true

private theorem guarded_of_orderly {codec : HistoryCodec Nat}
    {nfc : JSString → JSString}
    {entry : Device.Pool Nat × PoolLabel (Activation Nat) (Outside Nat)}
    (holds : orderly entry = true) :
    GuardedMerges codec nfc entry.1 entry.2 := by
  obtain ⟨pool, label⟩ := entry
  cases label with
  | spawn act => trivial
  | run act outside =>
      obtain ⟨alone, inSession⟩ := Bool.and_eq_true_iff.mp holds
      constructor
      · rintro b chunk rfl _
        obtain ⟨session, found, same⟩ := (Option.any_eq_true _ _).mp inSession
        exact ⟨session, found, by simpa using same⟩
      · intro others perm other member
        have counted := perm.length_eq
        simp only [List.length_cons] at counted
        have short : pool.acts.length ≤ 1 := of_decide_eq_true alone
        have none : others.length = 0 := by omega
        rw [List.length_eq_zero_iff.mp none] at member
        cases member

theorem bundles_merged_with_consent_approved :
    ∃ (trace : Device.Trace Nat) (pool pool' : Device.Pool Nat),
      (manager idCodec id).Step pool
        (.run (.mergeMessages sampleRoom (js "r") [] [written]) (calm []))
        pool' ∧
      pool'.shared.store = pool.shared.store.addMessage sampleRoom written ∧
        pool.shared.Active sampleRoom (js "r") ∧
        Consented trace sampleRoom (js "r") := by
  obtain ⟨trace, pool, played, holds, threads⟩ : ∃ trace pool,
      (manager idCodec id).play ⟨.blank, []⟩ approvedMoves =
        some (trace, pool) ∧ trace.all orderly = true ∧
        pool.threads = [[], [],
          [.mergeMessages sampleRoom (js "r") [] [written]]] :=
    ⟨_, _, rfl, rfl, rfl⟩
  have run : (deviceSystem idCodec id).Run ⟨.blank, []⟩ trace pool := by
    refine Program.play_run ?_ played
    intro act member
    have either : act = .onBinary sampleRoom (.resyncRequest 0 (js "r") none) ∨
        act = .respondResync sampleRoom true ∨
        act = .onBinary sampleRoom (.historyChunk bundle) := by
      simpa [approvedMoves] using member
    rcases either with rfl | rfl | rfl <;> constructor
  have guarded : ((deviceSystem idCodec id).restrict
      (GuardedMerges idCodec id)).Run ⟨.blank, []⟩ trace pool := by
    refine Lts.run_restrict_iff.mpr ⟨run, fun entry member => ?_⟩
    exact guarded_of_orderly (List.all_eq_true.mp holds entry member)
  obtain ⟨shared, _⟩ := pool
  obtain rfl := threads
  have merges : (manager idCodec id).Step
      ⟨shared, [[], []] ++ [[.mergeMessages sampleRoom (js "r") []
        [written]]]⟩ (.run _ (calm [])) _ :=
    .run [[], []] [] [] rfl
  refine ⟨trace, _, _, merges, ?_⟩
  exact bundles_merged_with_consent ⟨rfl, rfl, rfl, rfl, rfl⟩ rfl guarded merges
    (by simp)

/-- A peer sends a bundle out of the blue, and it is merged. -/
private def unapprovedMoves :
    List (Program.Move (Activation Nat) (Outside Nat)) :=
  [.spawn (.onBinary sampleRoom (.historyChunk bundle)), .run 0 (calm []),
    .run 0 (calm []), .run 0 (calm [])]

/-- Without any consent, and without a session, a peer's bundle puts a message
attributed to the user into the store. -/
theorem unapproved_bundle_merged :
    ∃ (trace : Device.Trace Nat) (pool : Device.Pool Nat),
      (deviceSystem idCodec id).Run ⟨.blank, []⟩ trace pool ∧
        (∃ entry ∈ trace, entry.2 = .run (.mergeMessages sampleRoom (js "r")
          [] [written]) (calm [])) ∧
        pool.shared.store.get? sampleRoom written.id = some written ∧
        written.origin = .self ∧
        (∀ entry ∈ trace, entry.1.shared.resyncSessions = .empty) ∧
        ∀ b r, ¬ Consented trace b r := by
  obtain ⟨trace, pool, played, labels, sessions, stored⟩ : ∃ trace pool,
      (manager idCodec id).play ⟨.blank, []⟩ unapprovedMoves =
        some (trace, pool) ∧
      trace.map Prod.snd =
        [.spawn (.onBinary sampleRoom (.historyChunk bundle)),
          .run (.onBinary sampleRoom (.historyChunk bundle)) (calm []),
          .run (.unpackHistory sampleRoom (js "r") [7]) (calm []),
          .run (.mergeMessages sampleRoom (js "r") [] [written]) (calm [])] ∧
      trace.map (fun entry => entry.1.shared.resyncSessions) =
        List.replicate 4 .empty ∧
      pool.shared.store.get? sampleRoom written.id = some written :=
    ⟨_, _, rfl, rfl, rfl, rfl⟩
  have run : (deviceSystem idCodec id).Run ⟨.blank, []⟩ trace pool := by
    refine Program.play_run ?_ played
    intro act member
    obtain rfl : act = .onBinary sampleRoom (.historyChunk bundle) := by
      simpa [unapprovedMoves] using member
    constructor
  refine ⟨trace, pool, run, ?_, stored, rfl, ?_, ?_⟩
  · refine List.mem_map.mp ?_
    rw [labels]
    simp
  · intro entry member
    refine List.eq_of_mem_replicate (n := 4) ?_
    rw [← sessions]
    exact List.mem_map_of_mem member
  · rintro b r ⟨⟨pool', label⟩, member, consents⟩
    have listed := List.mem_map_of_mem (f := Prod.snd) member
    rw [labels] at listed
    have either : label = .spawn (.onBinary sampleRoom (.historyChunk bundle)) ∨
        ∃ act outside, label = .run act outside ∧
          (∀ b, act ≠ .requestResync b) ∧ ∀ b, act ≠ .respondResync b true := by
      simp only [List.mem_cons, List.not_mem_nil, or_false] at listed
      rcases listed with spawned | ran | ran | ran
      · exact .inl spawned
      · exact .inr ⟨_, _, ran, by simp, by simp⟩
      · exact .inr ⟨_, _, ran, by simp, by simp⟩
      · exact .inr ⟨_, _, ran, by simp, by simp⟩
    rcases either with rfl | ⟨act, outside, rfl, noRequest, noAnswer⟩
    · exact consents
    · unfold Consents at consents
      split at consents
      · rename_i equal
        cases equal
        exact noRequest _ rfl
      · rename_i equal
        cases equal
        exact noAnswer _ rfl
      · exact consents

end Byteln.Client

import Byteln.Server.Relay

/-!
# What one step of the relay does

For every step of the relay, the registry call or bucket section it performs
and its effect on the peers, told apart from everything else it does.
-/

namespace Byteln.Server.Relay

open Byteln.Library

/-! ## What a step does to the registry -/

/-- The registry call an activation is in. -/
def Act.call? : Act → Option (Call PeerRef)
  | .handleConn (.join _ _ _ call) => some (.join call)
  | .dropPeer (.leave _ _ call) => some (.leave call)
  | .sweep call => some (.sweep call)
  | _ => none

/-- A section under the mutex of a bucket outside any registry call. -/
inductive Poke (oracle : Server.Oracle) (s : State) (b : Bucket PeerRef Frame) :
    Act → Ref → Bucket PeerRef Frame → Prop where
  | touch {ref : Ref} :
      Poke oracle s b (.touch ref) ref (b.touch oracle.now)
  | record {p : PeerRef} {ref : Ref} {data : List UInt8} {binary : Bool}
      {now : Time} :
      Poke oracle s b (.readPeer (.record p ref data binary now)) ref
        (b.recordBytes data.length).1
  | buffer {p : PeerRef} {ref : Ref} {data : List UInt8} {binary : Bool} :
      Poke oracle s b (.readPeer (.bufferIfAlone p ref data binary)) ref
        (b.bufferIfAlone s.calls.reg.cfg oracle.now (s.peers p).slotIndex
          ⟨data, p⟩ binary).1
  | drain {p : PeerRef} {ref : Ref} :
      Poke oracle s b (.handleConn (.drain p ref)) ref
        (b.drainBuffer oracle.now).1

/-- A join that returns without rejection has told its peer the slot. -/
def TellsSlot (s' : State) (act : Act) (call' : Call PeerRef) : Prop :=
  ∀ args result, call' = .join (.returned args result) →
    result.rejected = false →
    ∃ req existed p call, act = .handleConn (.join req existed p call) ∧
      call.args = args ∧ (s'.peers p).slot = some result.slot

/-- Every step performs one section of its registry call, one section in a
bucket, or none. -/
inductive RegistryStep (oracle : Server.Oracle) (s s' : State) :
    Act → Prop where
  | call {act : Act} {call call' : Call PeerRef} :
      act.call? = some call →
      CallStep oracle s.calls call s'.calls call' →
      TellsSlot s' act call' →
      RegistryStep oracle s s' act
  | poke {act : Act} {ref : Ref} {b b' : Bucket PeerRef Frame} :
      s.bucket? ref = some b →
      Poke oracle s b act ref b' →
      s'.calls = (s.setBucket ref b').calls →
      RegistryStep oracle s s' act
  | quiet {act : Act} :
      act.call? = none →
      s'.calls = s.calls →
      RegistryStep oracle s s' act

@[simp] theorem State.modifyPeer_calls (s : State) (p : PeerRef)
    (f : Peer → Peer) : (s.modifyPeer p f).calls = s.calls := rfl

theorem HandleConn.next_registry {oracle : Oracle} {s s' : State}
    {call : HandleConn} {acts : List Act}
    (next : call.next oracle s = some (s', acts)) :
    RegistryStep oracle.toOracle s s' (.handleConn call) := by
  cases call with
  | get req =>
      simp only [HandleConn.next] at next
      split at next
      · simp at next
      · split at next <;> cases next <;> exact .quiet rfl rfl
  | allowCreate req => cases next; exact .quiet rfl rfl
  | tryAcquire req => cases next; exact .quiet rfl rfl
  | upgrade req existed =>
      simp only [HandleConn.next] at next
      split at next <;> cases next <;> exact .quiet rfl rfl
  | join req existed p call =>
      simp only [HandleConn.next] at next
      split at next
      · simp at next
      · rename_i calls args result taken
        have step := call.next_step taken
        have sameArgs : args = call.args := call.next_args taken
        split at next <;> cases next
        · rename_i rejected
          refine .call rfl step ?_
          rintro args' result' equality accepted
          obtain ⟨rfl, rfl⟩ := by simpa using equality
          simp [rejected] at accepted
        · refine .call rfl step ?_
          rintro args' result' equality -
          obtain ⟨rfl, rfl⟩ := by simpa using equality
          exact ⟨req, existed, p, call, rfl, sameArgs.symm,
            by simp [State.modifyPeer]⟩
      · rename_i calls call' notReturned taken
        cases next
        refine .call rfl (call.next_step taken) ?_
        rintro args result equality -
        exact (notReturned args result (Call.join.inj equality)).elim
  | list p b slot => cases next; exact .quiet rfl rfl
  | drain p b =>
      simp only [HandleConn.next] at next
      split at next
      · simp at next
      · rename_i bucket found
        cases next
        exact .poke found .drain rfl
  | handleRead p | done p => cases next; exact .quiet rfl rfl
  | start p =>
      simp only [HandleConn.next] at next
      split at next <;> cases next <;> exact .quiet rfl rfl

theorem DropPeer.next_registry {oracle : Oracle} {s s' : State}
    {call : DropPeer} {acts : List Act}
    (next : call.next oracle s = some (s', acts)) :
    RegistryStep oracle.toOracle s s' (.dropPeer call) := by
  cases call with
  | swap p =>
      simp only [DropPeer.next] at next
      split at next <;> cases next <;> exact .quiet rfl rfl
  | creatorIP p =>
      simp only [DropPeer.next] at next
      split at next
      · simp at next
      · cases next; exact .quiet rfl rfl
  | teardown p ip => cases next; exact .quiet rfl rfl
  | unlist p ip => cases next; exact .quiet rfl rfl
  | leave p ip call =>
      simp only [DropPeer.next] at next
      split at next
      · simp at next
      · rename_i calls result taken
        cases next
        exact .call rfl (call.next_step taken) (by simp [TellsSlot])
      · rename_i calls call' _ taken
        cases next
        exact .call rfl (call.next_step taken) (by simp [TellsSlot])

theorem ReadPeer.next_registry {oracle : Oracle} {s s' : State}
    {call : ReadPeer} {acts : List Act}
    (next : call.next oracle s = some (s', acts)) :
    RegistryStep oracle.toOracle s s' (.readPeer call) := by
  cases call with
  | enter p | again p | loop p | clear p | idle p | done p =>
      cases next; exact .quiet rfl rfl
  | swap p =>
      simp only [ReadPeer.next] at next
      split at next <;> cases next <;> exact .quiet rfl rfl
  | readFrame p =>
      simp only [ReadPeer.next] at next
      split at next <;> cases next <;> exact .quiet rfl rfl
  | ping p answer =>
      simp only [ReadPeer.next] at next
      split at next
      · simp at next
      · cases next; exact .quiet rfl rfl
  | handle p data binary =>
      simp only [ReadPeer.next] at next
      split_ifs at next <;> cases next <;> exact .quiet rfl rfl
  | get p data binary now =>
      simp only [ReadPeer.next] at next
      split at next
      · simp at next
      · split at next <;> cases next <;> exact .quiet rfl rfl
  | record p b data binary now =>
      simp only [ReadPeer.next] at next
      split at next
      · split at next
        · simp at next
        · rename_i bucket found
          cases next
          exact .poke found .record rfl
      · cases next; exact .quiet rfl rfl
  | age p b data binary now =>
      simp only [ReadPeer.next] at next
      split at next
      · simp at next
      · cases next; exact .quiet rfl rfl
  | bufferIfAlone p b data binary =>
      simp only [ReadPeer.next] at next
      split at next
      · simp at next
      · rename_i bucket found
        cases next
        exact .poke found .buffer rfl
  | otherConn p b data binary =>
      simp only [ReadPeer.next] at next
      split at next
      · simp at next
      · cases next; exact .quiet rfl rfl

theorem WriteLoop.next_registry {oracle : Oracle} {s s' : State}
    {call : WriteLoop} {acts : List Act}
    (next : call.next oracle s = some (s', acts)) :
    RegistryStep oracle.toOracle s s' (.writeLoop call) := by
  cases call with
  | loop p | drain p =>
      simp only [WriteLoop.next] at next
      split at next <;> cases next <;> exact .quiet rfl rfl
  | check p | done p => cases next; exact .quiet rfl rfl

theorem Act.next_registry {oracle : Oracle} {s s' : State} {act : Act}
    {acts : List Act} (next : act.next oracle s = some (s', acts)) :
    RegistryStep oracle.toOracle s s' act := by
  cases act with
  | handleConn call => exact call.next_registry next
  | dropPeer call => exact call.next_registry next
  | readPeer call => exact call.next_registry next
  | writeLoop call => exact call.next_registry next
  | event p hup =>
      simp only [Act.next] at next
      split at next <;> cases next; exact .quiet rfl rfl
  | sweep call =>
      simp only [Act.next] at next
      split at next
      · simp at next
      · rename_i calls creators taken
        cases next
        exact .call rfl (call.next_step taken) (by simp [TellsSlot])
      · rename_i calls call' _ taken
        cases next
        exact .call rfl (call.next_step taken) (by simp [TellsSlot])
  | touch b =>
      simp only [Act.next] at next
      split at next
      · simp at next
      · rename_i bucket found
        cases next
        exact .poke found .touch rfl
  | notifyPeerPresence b | notifySeat b slot | closeSeat b slot =>
      simp only [Act.next] at next
      split at next
      · simp at next
      · cases next; exact .quiet rfl rfl
  | shutdown | stopPoller | releaseBucket ip | enqueue p out
  | ensureWriter p =>
      cases next; exact .quiet rfl rfl
  | closePoller =>
      simp only [Act.next] at next
      split at next <;> cases next <;> exact .quiet rfl rfl
  | send p out =>
      simp only [Act.next] at next
      split at next <;> cases next <;> exact .quiet rfl rfl

/-! ## What a step does to the peers -/

/-- The peer keeps its bucket and its slot, accepts nothing, is not registered
with the poller anew and stays closed. -/
structure Tame (p p' : Peer) : Prop where
  slot : p'.slot = p.slot
  queued : p'.queued = p.queued
  polled : p'.polled = true → p.polled = true
  bucket : p'.bucket = p.bucket
  closed : p.closed = true → p'.closed = true

theorem Tame.refl (p : Peer) : Tame p p :=
  ⟨rfl, rfl, id, rfl, id⟩

/-- Every step leaves all peers tame, or allocates one, seats one, registers
one with the poller, or queues a frame for one. -/
inductive PeersStep (s s' : State) : Act → Prop where
  | tame {act : Act} :
      (∀ p, Tame (s.peers p) (s'.peers p)) →
      s'.allocated = s.allocated →
      PeersStep s s' act
  | allocated {req : Request} {existed : Bool} :
      (s'.peers s.allocated).slot = none →
      (s'.peers s.allocated).queued = [] →
      (s'.peers s.allocated).polled = false →
      (∀ p, p ≠ s.allocated → s'.peers p = s.peers p) →
      s'.allocated = s.allocated + 1 →
      PeersStep s s' (.handleConn (.upgrade req existed))
  | seated {req : Request} {existed : Bool} {p : PeerRef}
      {call : JoinCall PeerRef} {slot : Slot} :
      s'.peers = (s.modifyPeer p fun peer =>
        { peer with slot := some slot }).peers →
      s'.allocated = s.allocated →
      PeersStep s s' (.handleConn (.join req existed p call))
  | started {p : PeerRef} {ok : Bool} :
      s'.peers = (s.modifyPeer p fun peer =>
        { peer with desc := true, polled := ok }).peers →
      s'.allocated = s.allocated →
      PeersStep s s' (.handleConn (.start p))
  | queued {p : PeerRef} {out : Outbound} :
      s'.peers = (s.modifyPeer p fun peer =>
        { peer with
          sendCh := peer.sendCh ++ [out]
          queued := peer.queued ++ [out] }).peers →
      s'.allocated = s.allocated →
      PeersStep s s' (.send p out)

theorem State.modifyPeer_self (s : State) (p : PeerRef) (f : Peer → Peer) :
    (s.modifyPeer p f).peers p = f (s.peers p) := by
  simp [modifyPeer]

theorem State.modifyPeer_of_ne (s : State) {p q : PeerRef} (f : Peer → Peer)
    (different : q ≠ p) : (s.modifyPeer p f).peers q = s.peers q := by
  simp [modifyPeer, different]

private theorem PeersStep.same {s s' : State} {act : Act}
    (peers : s'.peers = s.peers) (allocated : s'.allocated = s.allocated) :
    PeersStep s s' act :=
  .tame (fun p => peers ▸ .refl (s.peers p)) allocated

private theorem PeersStep.modify {s : State} {p : PeerRef} {f : Peer → Peer}
    {act : Act} (tame : ∀ peer, Tame peer (f peer)) :
    PeersStep s (s.modifyPeer p f) act := by
  refine .tame (fun q => ?_) rfl
  by_cases same : q = p
  · subst q
    rw [State.modifyPeer_self]
    exact tame _
  · rw [State.modifyPeer_of_ne _ _ same]
    exact .refl _

theorem HandleConn.next_peers {oracle : Oracle} {s s' : State}
    {call : HandleConn} {acts : List Act}
    (next : call.next oracle s = some (s', acts)) :
    PeersStep s s' (.handleConn call) := by
  cases call with
  | get req =>
      simp only [HandleConn.next] at next
      split at next
      · simp at next
      · split at next <;> cases next <;> exact .same rfl rfl
  | allowCreate req => cases next; exact .same rfl rfl
  | tryAcquire req => cases next; exact .same rfl rfl
  | upgrade req existed =>
      simp only [HandleConn.next] at next
      split at next
      · cases next
        exact .allocated (by simp [Peer.zero]) (by simp [Peer.zero])
          (by simp [Peer.zero]) (fun p different => by simp [different]) rfl
      · cases next; exact .same rfl rfl
  | join req existed p call =>
      simp only [HandleConn.next] at next
      split at next
      · simp at next
      · split at next <;> cases next
        · exact .same rfl rfl
        · exact .seated rfl rfl
      · cases next; exact .same rfl rfl
  | list p b slot => cases next; exact .same rfl rfl
  | drain p b =>
      simp only [HandleConn.next] at next
      split at next
      · simp at next
      · cases next; exact .same rfl rfl
  | handleRead p | done p => cases next; exact .same rfl rfl
  | start p =>
      simp only [HandleConn.next] at next
      split at next <;> cases next
      · exact .same rfl rfl
      · exact .started rfl rfl

theorem DropPeer.next_peers {oracle : Oracle} {s s' : State}
    {call : DropPeer} {acts : List Act}
    (next : call.next oracle s = some (s', acts)) :
    PeersStep s s' (.dropPeer call) := by
  cases call with
  | swap p =>
      simp only [DropPeer.next] at next
      split at next <;> cases next
      · exact .same rfl rfl
      · exact .modify fun _ => ⟨rfl, rfl, id, rfl, fun _ => rfl⟩
  | creatorIP p =>
      simp only [DropPeer.next] at next
      split at next
      · simp at next
      · cases next; exact .same rfl rfl
  | teardown p ip =>
      cases next
      exact .modify fun _ => ⟨rfl, rfl, fun polled => by simp at polled, rfl, id⟩
  | unlist p ip => cases next; exact .same rfl rfl
  | leave p ip call =>
      simp only [DropPeer.next] at next
      split at next
      · simp at next
      · cases next; exact .same rfl rfl
      · cases next; exact .same rfl rfl

theorem ReadPeer.next_peers {oracle : Oracle} {s s' : State}
    {call : ReadPeer} {acts : List Act}
    (next : call.next oracle s = some (s', acts)) :
    PeersStep s s' (.readPeer call) := by
  cases call with
  | enter p | loop p | idle p => cases next; exact .same rfl rfl
  | again p | clear p | done p =>
      cases next; exact .modify fun _ => ⟨rfl, rfl, id, rfl, id⟩
  | swap p =>
      simp only [ReadPeer.next] at next
      split at next <;> cases next
      · exact .same rfl rfl
      · exact .modify fun _ => ⟨rfl, rfl, id, rfl, id⟩
  | readFrame p =>
      simp only [ReadPeer.next] at next
      split at next <;> cases next <;> exact .same rfl rfl
  | ping p answer =>
      simp only [ReadPeer.next] at next
      split at next
      · simp at next
      · cases next; exact .same rfl rfl
  | handle p data binary =>
      simp only [ReadPeer.next] at next
      split_ifs at next <;> cases next <;> exact .same rfl rfl
  | get p data binary now =>
      simp only [ReadPeer.next] at next
      split at next
      · simp at next
      · split at next <;> cases next <;> exact .same rfl rfl
  | record p b data binary now =>
      simp only [ReadPeer.next] at next
      split at next
      · split at next
        · simp at next
        · cases next; exact .same rfl rfl
      · cases next; exact .same rfl rfl
  | age p b data binary now | bufferIfAlone p b data binary
  | otherConn p b data binary =>
      simp only [ReadPeer.next] at next
      split at next
      · simp at next
      · cases next; exact .same rfl rfl

theorem WriteLoop.next_peers {oracle : Oracle} {s s' : State}
    {call : WriteLoop} {acts : List Act}
    (next : call.next oracle s = some (s', acts)) :
    PeersStep s s' (.writeLoop call) := by
  cases call with
  | loop p | drain p =>
      simp only [WriteLoop.next] at next
      split at next <;> cases next
      · exact .same rfl rfl
      · exact .modify fun _ => ⟨rfl, rfl, id, rfl, id⟩
  | check p => cases next; exact .same rfl rfl
  | done p => cases next; exact .modify fun _ => ⟨rfl, rfl, id, rfl, id⟩

theorem Act.next_peers {oracle : Oracle} {s s' : State} {act : Act}
    {acts : List Act} (next : act.next oracle s = some (s', acts)) :
    PeersStep s s' act := by
  cases act with
  | handleConn call => exact call.next_peers next
  | dropPeer call => exact call.next_peers next
  | readPeer call => exact call.next_peers next
  | writeLoop call => exact call.next_peers next
  | event p hup =>
      simp only [Act.next] at next
      split at next <;> cases next; exact .same rfl rfl
  | sweep call =>
      simp only [Act.next] at next
      split at next
      · simp at next
      · cases next; exact .same rfl rfl
      · cases next; exact .same rfl rfl
  | touch b | notifyPeerPresence b | notifySeat b slot | closeSeat b slot =>
      simp only [Act.next] at next
      split at next
      · simp at next
      · cases next; exact .same rfl rfl
  | shutdown | stopPoller | releaseBucket ip | enqueue p out =>
      cases next; exact .same rfl rfl
  | closePoller =>
      simp only [Act.next] at next
      split at next <;> cases next <;> exact .same rfl rfl
  | send p out =>
      simp only [Act.next] at next
      split at next <;> cases next
      · exact .queued rfl rfl
      · exact .same rfl rfl
  | ensureWriter p => cases next; exact .modify fun _ => ⟨rfl, rfl, id, rfl, id⟩

theorem Act.next_allocated_le {oracle : Oracle} {s s' : State} {act : Act}
    {acts : List Act} (next : act.next oracle s = some (s', acts)) :
    s.allocated ≤ s'.allocated := by
  cases act.next_peers next with
  | allocated _ _ _ _ same => exact (Nat.le_succ _).trans same.ge
  | tame _ same | seated _ same | started _ same | queued _ same =>
      exact same.ge

/-- Only drops, readers and write loops are started. -/
theorem Act.forks_cases {oracle : Oracle} {act act' : Act} {s : State}
    (member : act' ∈ act.forks oracle s) :
    (∃ p, act' = .dropPeer (.swap p)) ∨ (∃ p, act' = .readPeer (.enter p)) ∨
      ∃ p, act' = .writeLoop (.loop p) := by
  unfold Act.forks at member
  split at member
  · split_ifs at member
    · simp at member
    · exact .inl ⟨_, List.mem_singleton.mp member⟩
    · exact .inr (.inl ⟨_, List.mem_singleton.mp member⟩)
  · split at member
    · simp at member
    · exact .inr (.inr ⟨_, List.mem_singleton.mp member⟩)
  · simp at member

end Byteln.Server.Relay

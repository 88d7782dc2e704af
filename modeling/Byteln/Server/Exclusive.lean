import Byteln.Library.Detour
import Byteln.Server.Seating

/-!
# One reader and one handler for each peer

A reader sets `reading` before it reads and resets it when it is done, so a
peer has one at most.  A peer's `handleConn` goes on after its one join.
-/

namespace Byteln.Server.Relay

open Byteln.Library

/-- The peer whose reader has set `reading`. -/
def Act.reader : Act → Option PeerRef
  | .readPeer (.enter _) | .readPeer (.swap _) | .readPeer (.again _) => none
  | .readPeer call => some call.peer
  | _ => none

/-- The peer that a handler drains a buffer to, until it has done so. -/
def Act.handler : Act → Option PeerRef
  | .handleConn (.list q _ _) | .handleConn (.drain q _)
  | .handleConn (.handleRead q) => some q
  | _ => none

/-- A peer has one reader and one handler at most, and nothing is queued for it
before it has joined. -/
structure Exclusive (s : State) (acts : List Act) : Prop where
  readers : (acts.filterMap Act.reader).Nodup
  reading : ∀ p ∈ acts.filterMap Act.reader, (s.peers p).reading = true
  handlers : (acts.filterMap Act.handler).Nodup
  answers : ∀ p answer, .readPeer (.ping p answer) ∈ acts →
    ∀ frame binary, answer ≠ .data frame binary
  unqueued : ∀ p, (s.peers p).slot = none → (s.peers p).queued = []

section Step

variable {oracle : Oracle} {s s' : State} {act : Act}
  {acts others : List Act}

private theorem forks_idle {act' : Act}
    (forked : act' ∈ act.forks oracle s) :
    act'.reader = none ∧ act'.handler = none ∧
      ∀ p answer, act' ≠ .readPeer (.ping p answer) := by
  rcases Act.forks_cases forked with ⟨_, rfl⟩ | ⟨_, rfl⟩ | ⟨_, rfl⟩ <;>
    refine ⟨rfl, rfl, ?_⟩ <;>
    intro p answer same <;>
    cases same

/-! ## Readers -/

theorem ReadPeer.next_reader {call : ReadPeer}
    (next : call.next oracle s = some (s', acts)) :
    acts.filterMap Act.reader = (Act.readPeer call).reader.toList ∨
      (∃ p, call = .swap p ∧ (s.peers p).reading = false ∧
        (s'.peers p).reading = true ∧ acts.filterMap Act.reader = [p]) ∨
      ∃ p, call = .done p ∧ acts.filterMap Act.reader = [] := by
  cases call with
  | swap p =>
      simp only [ReadPeer.next] at next
      split at next
      · cases next
        exact .inl rfl
      · rename_i free
        cases next
        refine .inr (.inl ⟨p, rfl, Bool.eq_false_iff.mpr free, ?_, rfl⟩)
        rw [State.modifyPeer_self]
  | done p =>
      cases next
      exact .inr (.inr ⟨p, rfl, rfl⟩)
  | enter p | again p | loop p | clear p | idle p =>
      left
      cases next
      first
        | rfl
        | split <;> rfl
  | readFrame p =>
      left
      simp only [ReadPeer.next] at next
      split at next <;> cases next <;> rfl
  | handle p data binary =>
      left
      simp only [ReadPeer.next] at next
      split_ifs at next <;> cases next <;> rfl
  | get p data binary now =>
      left
      simp only [ReadPeer.next] at next
      split at next
      · cases next
      · split at next <;> cases next <;> rfl
  | ping p answer =>
      left
      simp only [ReadPeer.next] at next
      split at next
      · cases next
      · cases next
        split <;> rfl
  | record p b data binary now =>
      left
      simp only [ReadPeer.next] at next
      split at next
      · split at next
        · cases next
        · cases next
          split <;> rfl
      · cases next
        rfl
  | age p b data binary now | bufferIfAlone p b data binary
  | otherConn p b data binary =>
      left
      simp only [ReadPeer.next] at next
      split at next
      · cases next
      · cases next
        split <;> rfl

/-- Only readers leave a reader behind. -/
theorem reader_outside (next : act.next oracle s = some (s', acts))
    (outside : ∀ call, act ≠ .readPeer call) {act' : Act}
    (started : act' ∈ acts) : act'.reader = none := by
  cases act with
  | readPeer call => exact absurd rfl (outside call)
  | handleConn call =>
      cases call <;> grind [Act.next, HandleConn.next, Act.reader, refuse]
  | dropPeer call =>
      cases call <;> grind [Act.next, DropPeer.next, Act.reader, afterLeave]
  | writeLoop call =>
      cases call <;> grind [Act.next, WriteLoop.next, Act.reader]
  | _ => grind [Act.next, Act.reader]

/-- A reader goes on, sets `reading`, or is done. -/
theorem reader_next (next : act.next oracle s = some (s', acts)) :
    acts.filterMap Act.reader = act.reader.toList ∨
      (∃ p, act = .readPeer (.swap p) ∧ (s.peers p).reading = false ∧
        (s'.peers p).reading = true ∧ acts.filterMap Act.reader = [p]) ∨
      ∃ p, act = .readPeer (.done p) ∧ acts.filterMap Act.reader = [] := by
  by_cases inside : ∃ call, act = .readPeer call
  · obtain ⟨call, rfl⟩ := inside
    rcases call.next_reader next with
      goes | ⟨p, rfl, free, set, only⟩ | ⟨p, rfl, none⟩
    · exact .inl goes
    · exact .inr (.inl ⟨p, rfl, free, set, only⟩)
    · exact .inr (.inr ⟨p, rfl, none⟩)
  · left
    have outside : ∀ call, act ≠ .readPeer call := not_exists.mp inside
    have none : act.reader = none := by
      cases act with
      | readPeer call => exact absurd rfl (outside call)
      | _ => rfl
    have goesOn : acts.filterMap Act.reader = [] :=
      List.filterMap_eq_nil_iff.mpr fun _ => reader_outside next outside
    rw [none, goesOn]
    rfl

/-- A set `reading` stays, unless its reader is done. -/
theorem reading_stays (next : act.next oracle s = some (s', acts))
    (fresh : (s.peers s.allocated).reading = false) {p : PeerRef}
    (notDone : act ≠ .readPeer (.done p))
    (reading : (s.peers p).reading = true) :
    (s'.peers p).reading = true := by
  cases act.next_write next with
  | none same => rwa [same]
  | @one q peer change written =>
      rw [written]
      by_cases same : p = q
      · subst same
        rw [Function.update_self]
        cases change with
        | allocated =>
            rw [reading] at fresh
            cases fresh
        | reading => rfl
        | readDone => exact absurd rfl notDone
        | _ => exact reading
      · rwa [Function.update_of_ne same]

/-! ## Handlers -/

theorem refuse_handler (req : Request) (existed : Bool) :
    (refuse req existed).filterMap Act.handler = [] := by
  unfold refuse
  split <;> rfl

theorem closeBucketPeers_handler {p : PeerRef} {b : Ref} {act' : Act}
    (started : act' ∈ closeBucketPeers p b) : act'.handler = none := by
  simp only [closeBucketPeers, List.mem_cons, List.not_mem_nil, or_false]
    at started
  rcases started with rfl | rfl | rfl <;> rfl

theorem handler_outside (next : act.next oracle s = some (s', acts))
    (outside : ∀ call, act ≠ .handleConn call) {act' : Act}
    (started : act' ∈ acts) : act'.handler = none := by
  cases act with
  | handleConn call => exact absurd rfl (outside call)
  | readPeer call =>
      cases call <;>
        grind [Act.next, ReadPeer.next, Act.handler, closeBucketPeers_handler]
  | dropPeer call =>
      cases call <;> grind [Act.next, DropPeer.next, Act.handler, afterLeave]
  | writeLoop call =>
      cases call <;> grind [Act.next, WriteLoop.next, Act.handler]
  | _ => grind [Act.next, Act.handler]

theorem HandleConn.next_handler {call : HandleConn}
    (next : call.next oracle s = some (s', acts)) :
    (acts.filterMap Act.handler).Sublist (Act.handleConn call).handler.toList ∨
      ∃ req existed p inner ref slot,
        call = .join req existed p inner ∧
          acts = [.handleConn (.list p ref slot)] := by
  cases call with
  | get req =>
      left
      simp only [HandleConn.next] at next
      split at next
      · cases next
      · split at next <;> cases next <;> exact List.nil_sublist _
  | allowCreate req =>
      left
      simp only [HandleConn.next] at next
      generalize s.limit.allowCreate oracle.now req.ip = answer at next
      cases next
      split <;> exact List.nil_sublist _
  | tryAcquire req =>
      left
      simp only [HandleConn.next] at next
      generalize s.limit.tryAcquireBucket req.ip = answer at next
      cases next
      split <;> exact List.nil_sublist _
  | upgrade req existed =>
      left
      simp only [HandleConn.next] at next
      split at next
      · cases next
        exact List.nil_sublist _
      · cases next
        rw [refuse_handler]
        exact List.nil_sublist _
  | join req existed p inner =>
      simp only [HandleConn.next] at next
      split at next
      · cases next
      · split at next <;> cases next
        · left
          rw [refuse_handler]
          exact List.nil_sublist _
        · exact .inr ⟨req, existed, p, inner, _, _, rfl, rfl⟩
      · cases next
        exact .inl (List.nil_sublist _)
  | list p b slot =>
      cases next
      exact .inl (List.Sublist.refl _)
  | drain p b =>
      left
      simp only [HandleConn.next] at next
      split at next
      · cases next
      · cases next
        simp [List.filterMap_map, Function.comp_def, Act.handler]
  | handleRead p =>
      left
      cases next
      split <;> exact List.nil_sublist _
  | start p =>
      left
      simp only [HandleConn.next] at next
      split at next
      · cases next
        exact List.nil_sublist _
      · cases next
        split <;> exact List.nil_sublist _
  | done p =>
      cases next
      exact .inl (List.nil_sublist _)

/-- A handler goes on or ends, or begins when its join has returned. -/
theorem handler_next (next : act.next oracle s = some (s', acts)) :
    (acts.filterMap Act.handler).Sublist act.handler.toList ∨
      ∃ req existed p call ref slot,
        act = .handleConn (.join req existed p call) ∧
          acts = [.handleConn (.list p ref slot)] := by
  by_cases inside : ∃ call, act = .handleConn call
  · obtain ⟨call, rfl⟩ := inside
    rcases call.next_handler next with
      goes | ⟨req, existed, p, inner, ref, slot, rfl, only⟩
    · exact .inl goes
    · exact .inr ⟨req, existed, p, inner, ref, slot, rfl, only⟩
  · left
    have outside : ∀ call, act ≠ .handleConn call := not_exists.mp inside
    rw [List.filterMap_eq_nil_iff.mpr fun _ => handler_outside next outside]
    exact List.nil_sublist _

/-! ## Both are kept -/

theorem Act.joined_of_handler {p : PeerRef} (handles : act.handler = some p) :
    act.joined = some p := by
  unfold Act.handler at handles
  split at handles
  case h_4 => cases handles
  all_goals exact handles

theorem ping_not_mem_close {p q : PeerRef} {b : Ref} {answer : Outbound} :
    .readPeer (.ping p answer) ∉ closeBucketPeers q b := by
  simp [closeBucketPeers]

/-- Only answers of the relay itself are queued by a ping. -/
theorem ping_from (next : act.next oracle s = some (s', acts)) {p : PeerRef}
    {answer : Outbound} (pinged : .readPeer (.ping p answer) ∈ acts)
    (frame : Frame) (binary : Bool) : answer ≠ .data frame binary := by
  cases act with
  | readPeer call =>
      cases call <;> grind [Act.next, ReadPeer.next, ping_not_mem_close]
  | handleConn call =>
      cases call with
      | list q b slot =>
          cases next
          simp at pinged
      | _ => grind [Act.next, HandleConn.next, refuse]
  | dropPeer call =>
      cases call <;> grind [Act.next, DropPeer.next, afterLeave]
  | writeLoop call =>
      cases call <;> grind [Act.next, WriteLoop.next]
  | _ => grind [Act.next]

theorem unqueued_step (seating : Seating s (act :: others))
    (settled : Settled s (act :: others))
    (unqueued : ∀ p, (s.peers p).slot = none → (s.peers p).queued = [])
    (next : act.next oracle s = some (s', acts)) {p : PeerRef}
    (unassigned : (s'.peers p).slot = none) : (s'.peers p).queued = [] := by
  have before : (s.peers p).slot = none := by
    cases assigned : (s.peers p).slot with
    | none => rfl
    | some slot =>
        rw [seating.slotsKept next p slot assigned] at unassigned
        cases unassigned
  cases act.next_write next with
  | none same =>
      rw [same]
      exact unqueued p before
  | @one q peer change written =>
      rw [written]
      by_cases same : p = q
      · subst same
        rw [Function.update_self]
        cases change with
        | allocated => rfl
        | queued =>
            have assigned := settled.working _ List.mem_cons_self rfl p rfl
            rw [before] at assigned
            cases assigned
        | _ => exact unqueued p before
      · rw [Function.update_of_ne same]
        exact unqueued p before

theorem Exclusive.perm {acts' : List Act} (exclusive : Exclusive s acts)
    (same : acts.Perm acts') : Exclusive s acts' where
  readers := (same.filterMap _).nodup_iff.mp exclusive.readers
  reading := fun p member =>
    exclusive.reading p ((same.filterMap _).mem_iff.mpr member)
  handlers := (same.filterMap _).nodup_iff.mp exclusive.handlers
  answers := fun p answer member =>
    exclusive.answers p answer (same.mem_iff.mpr member)
  unqueued := exclusive.unqueued

theorem Exclusive.spawn (exclusive : Exclusive s acts) (entry : act.Entry) :
    Exclusive s (act :: acts) := by
  have idle : act.reader = none ∧ act.handler = none ∧
      ∀ p answer, act ≠ .readPeer (.ping p answer) := by
    unfold Act.Entry at entry
    split at entry
    · exact ⟨rfl, rfl, nofun⟩
    · exact ⟨rfl, rfl, nofun⟩
    · exact ⟨rfl, rfl, nofun⟩
    · exact ⟨rfl, rfl, nofun⟩
    · exact entry.elim
  obtain ⟨noReader, noHandler, noPing⟩ := idle
  refine ⟨?_, ?_, ?_, ?_, exclusive.unqueued⟩
  · rw [List.filterMap_cons_none noReader]
    exact exclusive.readers
  · rw [List.filterMap_cons_none noReader]
    exact exclusive.reading
  · rw [List.filterMap_cons_none noHandler]
    exact exclusive.handlers
  · intro p answer member
    rcases List.mem_cons.mp member with same | old
    · exact absurd same.symm (noPing p answer)
    · exact exclusive.answers p answer old

theorem Exclusive.step (exclusive : Exclusive s (act :: others))
    (seating : Seating s (act :: others))
    (settled : Settled s (act :: others))
    (fresh : (s.peers s.allocated).reading = false)
    (next : act.next oracle s = some (s', acts)) :
    Exclusive s' (acts ++ (act.forks oracle s ++ others)) := by
  have forkedReader : (act.forks oracle s).filterMap Act.reader = [] :=
    List.filterMap_eq_nil_iff.mpr fun _ forked => (forks_idle forked).1
  have forkedHandler : (act.forks oracle s).filterMap Act.handler = [] :=
    List.filterMap_eq_nil_iff.mpr fun _ forked => (forks_idle forked).2.1
  have readers := exclusive.readers
  have handlers := exclusive.handlers
  rw [filterMap_cons_toList] at readers handlers
  have waits : ∀ p ∈ others.filterMap Act.reader,
      (s.peers p).reading = true := by
    intro p member
    apply exclusive.reading
    rw [filterMap_cons_toList]
    exact List.mem_append_right _ member
  have later : ∀ p ∈ others.filterMap Act.reader,
      (s'.peers p).reading = true := by
    intro p member
    apply reading_stays next fresh _ (waits p member)
    rintro rfl
    exact (List.nodup_append.mp readers).2.2 p (by simp [Act.reader,
      ReadPeer.peer]) p member rfl
  refine ⟨?_, ?_, ?_, ?_, fun p => unqueued_step seating settled
    exclusive.unqueued next⟩
  · rw [List.filterMap_append, List.filterMap_append, forkedReader,
      List.nil_append]
    rcases reader_next next with
      goes | ⟨p, rfl, free, -, only⟩ | ⟨p, rfl, none⟩
    · rwa [goes]
    · rw [only, List.singleton_append, List.nodup_cons]
      refine ⟨fun member => ?_, (List.nodup_append.mp readers).2.1⟩
      have set := waits p member
      rw [free] at set
      cases set
    · rw [none]
      exact (List.nodup_append.mp readers).2.1
  · intro p member
    rw [List.filterMap_append, List.filterMap_append, forkedReader,
      List.nil_append, List.mem_append] at member
    rcases member with own | member
    · rcases reader_next next with
        goes | ⟨p', rfl, -, set, only⟩ | ⟨p', rfl, none⟩
      · rw [goes] at own
        have set : (s.peers p).reading = true := by
          apply exclusive.reading
          rw [filterMap_cons_toList]
          exact List.mem_append_left _ own
        apply reading_stays next fresh _ set
        rintro rfl
        cases next
        cases goes
      · rw [only] at own
        obtain rfl := List.mem_singleton.mp own
        exact set
      · rw [none] at own
        cases own
    · exact later p member
  · rw [List.filterMap_append, List.filterMap_append, forkedHandler,
      List.nil_append]
    rcases handler_next next with
      goes | ⟨req, existed, p, call, ref, slot, rfl, rfl⟩
    · exact handlers.sublist (goes.append (List.Sublist.refl _))
    · have own : [Act.handleConn (.list p ref slot)].filterMap Act.handler =
          [p] := rfl
      rw [own, List.singleton_append, List.nodup_cons]
      refine ⟨fun member => ?_, (List.nodup_append.mp handlers).2.1⟩
      obtain ⟨other, waiting, handles⟩ := List.mem_filterMap.mp member
      have assigned := seating.joined other (List.mem_cons_of_mem _ waiting) p
        (Act.joined_of_handler handles)
      have unassigned := (seating.unseated p (by simp [Act.joining])).2
      rw [unassigned] at assigned
      cases assigned
  · intro p answer member
    rcases List.mem_append.mp member with started | rest
    · exact ping_from next started
    · rcases List.mem_append.mp rest with forked | waiting
      · exact absurd rfl ((forks_idle forked).2.2 p answer)
      · exact exclusive.answers p answer (List.mem_cons_of_mem _ waiting)

end Step

/-! ## Runs -/

theorem Exclusive.run_step {pool pool' : Pool State Act}
    {label : PoolLabel Act Oracle} (exclusive : Exclusive pool.shared pool.acts)
    (seated : WellSeated pool) (step : relay.Step pool label pool') :
    Exclusive pool'.shared pool'.acts := by
  cases label with
  | spawn act =>
      obtain ⟨entry, same, perm⟩ := Program.Step.spawn_inv step
      rw [same]
      exact (exclusive.spawn entry).perm perm.symm
  | run act oracle =>
      obtain ⟨acts, others, next, before, after⟩ := Program.Step.run_inv step
      have fresh :
          (pool.shared.peers pool.shared.allocated).reading = false := by
        rw [seated.allocated.zero _ le_rfl]
        rfl
      exact ((exclusive.perm before).step (seated.seating.perm before)
        (seated.settled.perm before) fresh next).perm after.symm

theorem exclusive_started {cfg : Limits} {buckets : Config}
    {createPerMin maxBuckets : Int} {start : Pool State Act}
    (started : Started cfg buckets createPerMin maxBuckets start) :
    Exclusive start.shared start.acts := by
  rw [started]
  exact ⟨List.nodup_nil, by simp [Pool.acts], List.nodup_nil,
    by simp [Pool.acts], fun _ _ => rfl⟩

end Byteln.Server.Relay

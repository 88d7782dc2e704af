import Byteln.Server.Writers

/-!
# Readers and the events they serve

An edge-triggered event either starts a reader or, when one is running, asks
it through `readAgain` for another round.  `Attends` says that a peer will be
read again; an event is lost when the pool refuses its reader, or when the
running reader has looked at `readAgain` for the last time before it is set.
-/

namespace Byteln.Server.Relay

open Byteln.Library

/-- The reader will make a read attempt, unless the peer is closed. -/
def ReadPeer.Reads (s : State) : ReadPeer → Prop
  | .done _ => False
  | .idle p => (s.peers p).readAgain = true
  | _ => True

/-- The peer will be read again, or the reader that leaves it closes it. -/
def Attends (s : State) (p : PeerRef) (stack : List Act) : Prop :=
  (∃ call, .readPeer call ∈ stack ∧ call.peer = p ∧ call.Reads s) ∨
    [.dropPeer (.swap p), .readPeer (.done p)].Sublist stack ∨
    ∃ b, [.closeSeat b 1, .readPeer (.done p)].Sublist stack

/-- The reader is on its way out, but the peer is being closed with it. -/
def Closing (p : PeerRef) (stack : List Act) : Prop :=
  [.dropPeer (.swap p), .readPeer (.done p)].Sublist stack ∨
    ∃ b, [.closeSeat b 1, .readPeer (.done p)].Sublist stack

/-- A read event of the peer that no read attempt has followed. -/
def Unread (p : PeerRef) (trace : List (Pool State Act × PoolLabel Act Oracle)) :
    Prop :=
  ∃ before pool oracle after,
    trace = before ++ (pool, .run (.event p false) oracle) :: after ∧
      ∀ entry ∈ after, ∀ oracle,
        entry.2 ≠ .run (.readPeer (.readFrame p)) oracle

/-- The condition on a step and what came before it.  The pool refuses a reader
only while another one will read.  While an event is unread, `readAgain` is set
by a reader that gives up only while another one has yet to look at it or the
peer is closed or being closed, and a reader that closes both seats of its
bucket closes its own peer or leaves another reader. -/
def KeepsReading (earlier : List (Pool State Act × PoolLabel Act Oracle))
    (pool : Pool State Act) : PoolLabel Act Oracle → Prop
  | .run (.event p false) oracle =>
      oracle.ok = false → (pool.shared.peers p).closed = true ∨
        ∃ stack ∈ pool.threads, Attends pool.shared p stack
  | .run (.readPeer (.again p)) _ =>
      Unread p earlier → (pool.shared.peers p).closed = true ∨
        (∃ stack ∈ pool.threads, Closing p stack) ∨
        ∃ others call, pool.acts.Perm (.readPeer (.again p) :: others) ∧
          .readPeer call ∈ others ∧ call.peer = p ∧ call ≠ .done p
  | .run (.closeSeat ref 1) _ =>
      ∀ rest p, (.closeSeat ref 1 :: rest) ∈ pool.threads →
        .readPeer (.done p) ∈ rest →
        Unread p earlier → (pool.shared.peers p).closed = true ∨
          (∃ b, pool.shared.bucket? ref = some b ∧ b.peerConn 1 = some p) ∨
          ∃ call, .readPeer call ∈ pool.acts ∧ call.peer = p ∧
            call.Reads pool.shared
  | _ => True

theorem Unread.of_snoc {p : PeerRef}
    {trace : List (Pool State Act × PoolLabel Act Oracle)}
    {pool : Pool State Act} {label : PoolLabel Act Oracle}
    (unread : Unread p (trace ++ [(pool, label)])) :
    (∃ oracle, label = .run (.event p false) oracle) ∨
      Unread p trace ∧
        ∀ oracle, label ≠ .run (.readPeer (.readFrame p)) oracle := by
  obtain ⟨before, pool', oracle, after, equal, none⟩ := unread
  rcases List.eq_nil_or_concat after with rfl | ⟨earlier, last, rfl⟩
  · have same := (List.append_inj' equal rfl).2
    exact .inl ⟨oracle, (Prod.mk.inj (List.cons.inj same).1).2⟩
  · right
    rw [List.concat_eq_append, ← List.cons_append, ← List.append_assoc] at equal
    obtain ⟨rfl, same⟩ := List.append_inj' equal rfl
    obtain rfl := (List.cons.inj same).1
    refine ⟨⟨before, pool', oracle, earlier, rfl, ?_⟩, ?_⟩
    · exact fun entry member => none entry (by simp [member])
    · exact none (pool, label) (by simp)

/-- Unread peers are closed or attended. -/
def Attended (trace : List (Pool State Act × PoolLabel Act Oracle))
    (pool : Pool State Act) : Prop :=
  ∀ p, Unread p trace → (pool.shared.peers p).closed = true ∨
    ∃ stack ∈ pool.threads, Attends pool.shared p stack

section Stacks

variable {s s' : State} {p : PeerRef} {act : Act} {acts rest : List Act}

theorem Closing.attends (closing : Closing p rest) : Attends s p rest :=
  .inr closing

theorem Closing.tail (closing : Closing p (act :: rest))
    (noDrop : act ≠ .dropPeer (.swap p)) (noClose : ∀ b, act ≠ .closeSeat b 1) :
    Closing p (acts ++ rest) := by
  rcases closing with dropping | ⟨b, closing⟩
  · rcases List.sublist_cons_iff.mp dropping with below | ⟨tail, same, -⟩
    · exact .inl (below.trans (List.sublist_append_right _ _))
    · exact absurd (List.cons.inj same).1.symm noDrop
  · rcases List.sublist_cons_iff.mp closing with below | ⟨tail, same, -⟩
    · exact .inr ⟨b, below.trans (List.sublist_append_right _ _)⟩
    · exact absurd (List.cons.inj same).1.symm (noClose b)

theorem Attends.append (attends : Attends s p rest) :
    Attends s p (acts ++ rest) := by
  rcases attends with ⟨call, member, reads⟩ | dropping | ⟨b, closing⟩
  · exact .inl ⟨call, List.mem_append_right _ member, reads⟩
  · exact .inr (.inl (dropping.trans (List.sublist_append_right _ _)))
  · exact .inr (.inr ⟨b, closing.trans (List.sublist_append_right _ _)⟩)

theorem Attends.below (attends : Attends s p acts) :
    Attends s p (acts ++ rest) := by
  rcases attends with ⟨call, member, reads⟩ | dropping | ⟨b, closing⟩
  · exact .inl ⟨call, List.mem_append_left _ member, reads⟩
  · exact .inr (.inl (dropping.trans (List.sublist_append_left _ _)))
  · exact .inr (.inr ⟨b, closing.trans (List.sublist_append_left _ _)⟩)

/-- A set `readAgain` that is not cleared keeps a stack attending. -/
theorem Attends.mono (attends : Attends s p rest)
    (again : (s.peers p).readAgain = true → (s'.peers p).readAgain = true) :
    Attends s' p rest := by
  refine attends.imp_left ?_
  rintro ⟨call, member, works, reads⟩
  refine ⟨call, member, works, ?_⟩
  cases call with
  | idle q =>
      obtain rfl : q = p := works
      exact again reads
  | _ => exact reads

/-- What attends is below the top of the stack, or on top. -/
theorem Attends.cases_top (attends : Attends s p (act :: rest)) :
    Attends s p rest ∨
      (∃ call, act = .readPeer call ∧ call.peer = p ∧ call.Reads s) ∨
      act = .dropPeer (.swap p) ∨
      ∃ b, act = .closeSeat b 1 ∧ .readPeer (.done p) ∈ rest := by
  rcases attends with ⟨call, member, works, reads⟩ | dropping | ⟨b, closing⟩
  · rcases List.mem_cons.mp member with same | below
    · exact .inr (.inl ⟨call, same.symm, works, reads⟩)
    · exact .inl (.inl ⟨call, below, works, reads⟩)
  · rcases List.sublist_cons_iff.mp dropping with below | ⟨tail, same, -⟩
    · exact .inl (.inr (.inl below))
    · exact .inr (.inr (.inl (List.cons.inj same).1.symm))
  · rcases List.sublist_cons_iff.mp closing with below | ⟨tail, same, sublist⟩
    · exact .inl (.inr (.inr ⟨b, below⟩))
    · obtain ⟨top, rfl⟩ := List.cons.inj same
      exact .inr (.inr (.inr ⟨b, top.symm, sublist.subset (by simp)⟩))

end Stacks

section Step

variable {oracle : Oracle} {s s' : State} {act : Act} {acts : List Act}
  {p : PeerRef}

/-- Only a reader that begins a round clears `readAgain`. -/
theorem readAgain_stays (next : act.next oracle s = some (s', acts))
    (fresh : (s.peers s.allocated).readAgain = false)
    (noClear : act ≠ .readPeer (.clear p))
    (again : (s.peers p).readAgain = true) :
    (s'.peers p).readAgain = true := by
  cases act.next_write next with
  | none same => rwa [same]
  | @one q peer change written =>
      rw [written]
      by_cases same : p = q
      · subst same
        rw [Function.update_self]
        cases change with
        | allocated =>
            rw [again] at fresh
            cases fresh
        | again => rfl
        | cleared => exact absurd rfl noClear
        | _ => exact again
      · rwa [Function.update_of_ne same]

private theorem attends_of {call : ReadPeer}
    (member : .readPeer call ∈ acts) (works : call.peer = p)
    (reads : call.Reads s) : Attends s p acts :=
  .inl ⟨call, member, works, reads⟩

/-- A reader that will read does so after its step too, closes its peer, or
leaves that to the reader that has set `reading`. -/
theorem reader_attends {call : ReadPeer}
    (next : call.next oracle s = some (s', acts)) (reads : call.Reads s)
    (noFrame : call ≠ .readFrame call.peer)
    (noAgain : call ≠ .again call.peer) :
    (s'.peers call.peer).closed = true ∨ Attends s' call.peer acts := by
  cases call with
  | done q => exact reads.elim
  | readFrame q => exact absurd rfl noFrame
  | again q => exact absurd rfl noAgain
  | enter q =>
      cases next
      by_cases closed : (s.peers q).closed = true
      · exact .inl closed
      · refine .inr (.inl ⟨.swap q, ?_, rfl, trivial⟩)
        simp [closed]
  | swap q =>
      simp only [ReadPeer.next] at next
      split at next <;> cases next <;>
        exact .inr (attends_of (List.mem_singleton_self _) rfl trivial)
  | loop q =>
      cases next
      by_cases closed : (s.peers q).closed = true
      · exact .inl closed
      · refine .inr (.inl ⟨.clear q, ?_, rfl, trivial⟩)
        simp [closed]
  | clear q =>
      cases next
      exact .inr (attends_of (List.mem_singleton_self _) rfl trivial)
  | idle q =>
      cases next
      have again : (s.peers q).readAgain = true := reads
      refine .inr (.inl ⟨.loop q, ?_, rfl, trivial⟩)
      simp [again]
  | ping q answer =>
      simp only [ReadPeer.next] at next
      split at next
      · cases next
      · cases next
        refine .inr (.inl ⟨.readFrame q, ?_, rfl, trivial⟩)
        simp
  | handle q data binary =>
      right
      simp only [ReadPeer.next] at next
      split_ifs at next <;> cases next
      · exact attends_of (List.mem_singleton_self _) rfl trivial
      · exact attends_of (List.mem_singleton_self _) rfl trivial
      · exact .inr (.inl (List.Sublist.refl _))
  | get q data binary now =>
      right
      simp only [ReadPeer.next] at next
      split at next
      · cases next
      · split at next <;> cases next
        · exact .inr (.inl (List.Sublist.refl _))
        · exact attends_of (List.mem_cons_of_mem _ (List.mem_singleton_self _))
            rfl trivial
  | record q b data binary now =>
      right
      simp only [ReadPeer.next] at next
      split at next
      · split at next
        · cases next
        · cases next
          split
          · exact .inr (.inr ⟨b, List.sublist_cons_self _ _⟩)
          · exact attends_of (List.mem_singleton_self _) rfl trivial
      · cases next
        exact attends_of (List.mem_singleton_self _) rfl trivial
  | age q b data binary now =>
      right
      simp only [ReadPeer.next] at next
      split at next
      · cases next
      · cases next
        split
        · exact .inr (.inr ⟨b, List.sublist_cons_self _ _⟩)
        · exact attends_of (List.mem_singleton_self _) rfl trivial
  | bufferIfAlone q b data binary =>
      right
      simp only [ReadPeer.next] at next
      split at next
      · cases next
      · cases next
        refine attends_of (List.mem_singleton_self _) ?_ ?_
        · split <;> rfl
        · split <;> trivial
  | otherConn q b data binary =>
      right
      simp only [ReadPeer.next] at next
      split at next
      · cases next
      · cases next
        refine .inl ⟨.readFrame q, ?_, rfl, trivial⟩
        simp

end Step

section Pools

variable {trace : List (Pool State Act × PoolLabel Act Oracle)}
  {pool pool' : Pool State Act} {act : Act} {oracle : Oracle}
  {acts rest others : List Act} {p : PeerRef}

/-- An activation besides the running one is there after the step too. -/
private theorem waits_elsewhere {act' : Act}
    (step : relay.Step pool (.run act oracle) pool')
    (perm : pool.acts.Perm (act :: others)) (waits : act' ∈ others) :
    ∃ stack ∈ pool'.threads, act' ∈ stack := by
  obtain ⟨acts, others', -, before, after⟩ := Program.Step.run_inv step
  have same := (perm.symm.trans before).cons_inv
  exact List.mem_flatten.mp (after.mem_iff.mpr (List.mem_append_right _
    (List.mem_append_right _ (same.mem_iff.mp waits))))

/-- An event starts a reader, unless the peer is closed or the pool full. -/
private theorem event_attends
    (keeps : KeepsReading trace pool (.run (.event p false) oracle))
    (next : (Act.event p false).next oracle pool.shared =
      some (pool'.shared, acts))
    (moved : Program.StackStep pool pool' (.event p false) acts rest
      ((Act.event p false).forks oracle pool.shared)) :
    (pool'.shared.peers p).closed = true ∨
      ∃ stack ∈ pool'.threads, Attends pool'.shared p stack := by
  have same : pool.shared = pool'.shared := by
    simp only [Act.next] at next
    split at next
    · exact (Prod.mk.inj (Option.some.inj next)).1
    · cases next
  rw [← same]
  by_cases closed : (pool.shared.peers p).closed = true
  · exact .inl closed
  · right
    by_cases admitted : oracle.ok = true
    · refine ⟨_, moved.forked (.readPeer (.enter p)) ?_,
        .inl ⟨.enter p, by simp, rfl, trivial⟩⟩
      simp [Act.forks, closed, admitted]
    · have attends := (keeps (Bool.eq_false_iff.mpr admitted)).resolve_left
        closed
      refine moved.exists_stack attends fun running => ?_
      rcases running.cases_top with below | ⟨_, same, _⟩ | same | ⟨_, same, _⟩
      · exact ⟨_, moved.after, below.append⟩
      · cases same
      · cases same
      · cases same

/-- A reader that gives up leaves the read to another one. -/
private theorem again_attends
    (step : relay.Step pool (.run (.readPeer (.again p)) oracle) pool')
    (keeps : KeepsReading trace pool (.run (.readPeer (.again p)) oracle))
    (next : (Act.readPeer (.again p)).next oracle pool.shared =
      some (pool'.shared, acts))
    (moved : Program.StackStep pool pool' (.readPeer (.again p)) acts rest
      ((Act.readPeer (.again p)).forks oracle pool.shared))
    (unread : Unread p trace) :
    (pool.shared.peers p).closed = true ∨
      ∃ stack ∈ pool'.threads, Attends pool'.shared p stack := by
  have again : (pool'.shared.peers p).readAgain = true := by
    simp only [Act.next, ReadPeer.next] at next
    obtain ⟨shared, -⟩ := Prod.mk.inj (Option.some.inj next)
    rw [← shared, State.modifyPeer_self]
  rcases keeps unread with
    closed | closing | ⟨others, call, perm, waits, works, notDone⟩
  · exact .inl closed
  · right
    obtain ⟨stack, member, closes⟩ := moved.exists_stack closing
      fun closing => ⟨_, moved.after, closing.tail (by simp) (by simp)⟩
    exact ⟨stack, member, closes.attends⟩
  · right
    obtain ⟨stack, member, inStack⟩ := waits_elsewhere step perm waits
    refine ⟨stack, member, .inl ⟨call, inStack, works, ?_⟩⟩
    cases call with
    | done q =>
        obtain rfl : q = p := works
        exact absurd rfl notDone
    | idle q =>
        obtain rfl : q = p := works
        exact again
    | _ => trivial

/-- A reader that closes both seats of its bucket closes its own peer, or leaves
the read to another one. -/
private theorem closeSeat_attends {b : Ref}
    (keeps : KeepsReading trace pool (.run (.closeSeat b 1) oracle))
    (next : (Act.closeSeat b 1).next oracle pool.shared =
      some (pool'.shared, acts))
    (moved : Program.StackStep pool pool' (.closeSeat b 1) acts rest
      ((Act.closeSeat b 1).forks oracle pool.shared))
    (leaving : .readPeer (.done p) ∈ rest) (unread : Unread p trace) :
    (pool.shared.peers p).closed = true ∨
      ∃ stack ∈ pool'.threads, Attends pool'.shared p stack := by
  rcases keeps rest p moved.before leaving unread with
    closed | ⟨bucket, found, seated⟩ | ⟨call, waits, works, reads⟩
  · exact .inl closed
  · right
    simp only [Act.next, found, seated] at next
    obtain ⟨-, rfl⟩ := Prod.mk.inj (Option.some.inj next)
    refine ⟨_, moved.after, .inr (.inl ?_)⟩
    exact List.Sublist.cons_cons _ (List.singleton_sublist.mpr leaving)
  · right
    have same : pool'.shared = pool.shared := by
      simp only [Act.next] at next
      split at next
      · cases next
      · exact (Prod.mk.inj (Option.some.inj next)).1.symm
    obtain ⟨stack, member, inStack⟩ :=
      moved.exists_stack (List.mem_flatten.mp waits) fun running => by
        rcases List.mem_cons.mp running with here | below
        · cases here
        · exact ⟨_, moved.after, List.mem_append_right _ below⟩
    exact ⟨stack, member, .inl ⟨call, inStack, works, same ▸ reads⟩⟩

private theorem events_step (attended : Attended trace pool)
    (allocated : Allocated pool.shared pool.acts)
    (step : relay.Step pool (.run act oracle) pool')
    (keeps : KeepsReading trace pool (.run act oracle))
    (next : act.next oracle pool.shared = some (pool'.shared, acts))
    (moved : Program.StackStep pool pool' act acts rest
      (act.forks oracle pool.shared))
    (unread : Unread p (trace ++ [(pool, .run act oracle)])) :
    (pool'.shared.peers p).closed = true ∨
      ∃ stack ∈ pool'.threads, Attends pool'.shared p stack := by
  have zero := allocated.zero _ le_rfl
  have closedStays : (pool.shared.peers p).closed = true →
      (pool'.shared.peers p).closed = true :=
    closed_stays next (by rw [zero]; rfl)
  rcases unread.of_snoc with ⟨oracle', same⟩ | ⟨before, noFrame⟩
  · obtain ⟨rfl, rfl⟩ := PoolLabel.run.inj same
    exact event_attends keeps next moved
  by_cases clears : act = .readPeer (.clear p)
  · subst clears
    obtain ⟨-, rfl⟩ := Prod.mk.inj (Option.some.inj next)
    exact .inr ⟨_, moved.after, .inl ⟨.readFrame p, by simp, rfl, trivial⟩⟩
  have again := readAgain_stays (p := p) next (by rw [zero]; rfl) clears
  rcases attended p before with closed | ⟨stack, member, attends⟩
  · exact .inl (closedStays closed)
  rcases moved.kept stack member with rfl | kept
  · rcases attends.cases_top with
      below | ⟨call, rfl, rfl, reads⟩ | rfl | ⟨b, rfl, leaving⟩
    · exact .inr ⟨_, moved.after, (below.mono again).append⟩
    · by_cases gives : call = .again call.peer
      · generalize call.peer = q at *
        subst gives
        exact (again_attends step keeps next moved before).imp_left closedStays
      · have noFrame' : call ≠ .readFrame call.peer :=
          fun same => noFrame oracle (by rw [← same])
        exact (reader_attends next reads noFrame' gives).imp_right
          fun attends => ⟨_, moved.after, attends.below⟩
    · left
      simp only [Act.next, DropPeer.next] at next
      split at next <;> obtain ⟨same, -⟩ := Prod.mk.inj (Option.some.inj next)
      · rename_i closed
        exact same ▸ closed
      · rw [← same, State.modifyPeer_self]
    · exact (closeSeat_attends keeps next moved leaving before).imp_left
        closedStays
  · exact .inr ⟨stack, kept, attends.mono again⟩

theorem Attended.step {label : PoolLabel Act Oracle}
    (attended : Attended trace pool)
    (allocated : Allocated pool.shared pool.acts)
    (step : relay.Step pool label pool')
    (keeps : KeepsReading trace pool label) :
    Attended (trace ++ [(pool, label)]) pool' := by
  intro p unread
  cases label with
  | spawn act =>
      cases step with
      | spawn threads entry =>
          rcases unread.of_snoc with ⟨_, same⟩ | ⟨before, -⟩
          · cases same
          · refine (attended p before).imp_right ?_
            rintro ⟨stack, member, attends⟩
            exact ⟨stack, List.mem_append_left _ member, attends⟩
  | run act oracle =>
      obtain ⟨acts, rest, next, moved⟩ := Program.Step.run_stacks step
      exact events_step attended allocated step keeps next moved unread

end Pools

theorem attended_of_run {cfg : Limits} {buckets : Config}
    {createPerMin maxBuckets : Int} {start pool : Pool State Act}
    {trace : List (Pool State Act × PoolLabel Act Oracle)}
    (started : Started cfg buckets createPerMin maxBuckets start)
    (run : (relay.system (Started cfg buckets createPerMin
      maxBuckets)).Run start trace pool)
    (always : Lts.AlwaysMeet KeepsReading trace) :
    Attended trace pool ∧ Allocated pool.shared pool.acts := by
  induction run with
  | refl =>
      obtain rfl := started
      refine ⟨?_, allocated_started cfg buckets createPerMin maxBuckets⟩
      rintro p ⟨before, pool, oracle, after, equal, -⟩
      simp at equal
  | snoc run step induction =>
      obtain ⟨earlier, keeps⟩ := Lts.alwaysMeet_snoc.mp always
      obtain ⟨attended, allocated⟩ := induction earlier
      exact ⟨attended.step allocated step keeps, allocated.pool step⟩

/-- While no reader of an open peer is running or scheduled, every read event
delivered for the peer has been followed by a read attempt. -/
theorem no_event_lost {cfg : Limits} {buckets : Config}
    {createPerMin maxBuckets : Int} {start pool eventPool : Pool State Act}
    {trace before after : List (Pool State Act × PoolLabel Act Oracle)}
    {p : PeerRef} {oracle : Oracle}
    (started : Started cfg buckets createPerMin maxBuckets start)
    (run : (relay.system (Started cfg buckets createPerMin
      maxBuckets)).Run start trace pool)
    (always : Lts.AlwaysMeet KeepsReading trace)
    (isOpen : (pool.shared.peers p).closed = false)
    (noReader : ∀ call, .readPeer call ∈ pool.acts → call.peer ≠ p)
    (event : trace =
      before ++ (eventPool, .run (.event p false) oracle) :: after) :
    ∃ entry ∈ after, ∃ oracle,
      entry.2 = .run (.readPeer (.readFrame p)) oracle := by
  by_contra none
  push Not at none
  have unread : Unread p trace :=
    ⟨before, eventPool, oracle, after, event, none⟩
  rcases (attended_of_run started run always).1 p unread with
    closed | ⟨stack, member, attends⟩
  · rw [isOpen] at closed
    cases closed
  · have running : ∀ act ∈ stack, act ∈ pool.acts :=
      fun act inStack => List.mem_flatten.mpr ⟨stack, member, inStack⟩
    rcases attends with ⟨call, reader, works, -⟩ | dropping | ⟨b, closing⟩
    · exact noReader call (running _ reader) works
    · exact noReader (.done p) (running _ (dropping.subset (by simp))) rfl
    · exact noReader (.done p) (running _ (closing.subset (by simp))) rfl

/-- Alice connects and is registered with the poller. -/
private def registerMoves : List (Program.Move Act Oracle) :=
  connects "alice" "192.0.2.1" :: runs 0 14

/-- An event starts a reader. -/
private def eventMoves (position : Nat) : List (Program.Move Act Oracle) :=
  polls 0 false :: runs position 1

/-- The pool admits the step's reader, and the step neither gives up a read
nor closes a seat. -/
private def startsReader : Pool State Act × PoolLabel Act Oracle → Bool
  | (_, .run (.event _ _) oracle) => oracle.ok
  | (_, .run (.readPeer (.again _)) _) => false
  | (_, .run (.closeSeat _ _) _) => false
  | _ => true

private theorem alwaysReading_of_startsReader
    {trace : List (Pool State Act × PoolLabel Act Oracle)}
    (tested : trace.all startsReader = true) :
    Lts.AlwaysMeet KeepsReading trace := by
  rintro earlier pool label later rfl
  have starts := List.all_eq_true.mp tested (pool, label) (by simp)
  revert starts
  unfold KeepsReading
  split <;> intro starts
  · intro refused
    simp [startsReader, refused] at starts
  · cases starts
  · cases starts
  · trivial

/-- Neither a reader nor an event in progress. -/
private def Act.unreading : Act → Bool
  | .readPeer _ => false
  | _ => true

private theorem no_reader_of_unreading {acts : List Act} {p : PeerRef}
    (unreading : acts.all Act.unreading = true) :
    ∀ call, .readPeer call ∈ acts → call.peer ≠ p := by
  intro call member
  cases List.all_eq_true.mp unreading _ member

/-- An event is followed by a reader that finds nothing to read. -/
theorem no_event_lost_idle :
    ∃ (pool eventPool : Pool State Act) (oracle : Oracle)
      (before after : List (Pool State Act × PoolLabel Act Oracle)),
      (relay.system (Started roomLimits roomConfig 10 10)).Run
        ⟨New roomLimits roomConfig 10 10, []⟩
        (before ++ (eventPool, .run (.event 0 false) oracle) :: after) pool ∧
      ∃ entry ∈ after, ∃ oracle,
        entry.2 = .run (.readPeer (.readFrame 0)) oracle := by
  obtain ⟨trace, pool, played, checked, isOpen, unreading, eventPool, oracle,
    event⟩ : ∃ trace pool,
      relay.play ⟨New roomLimits roomConfig 10 10, []⟩
        (registerMoves ++ (eventMoves 2 ++ runs 3 7)) =
        some (trace, pool) ∧
      trace.all startsReader = true ∧ (pool.shared.peers 0).closed = false ∧
      pool.acts.all Act.unreading = true ∧ ∃ eventPool oracle,
      trace = trace.take 16 ++
        (eventPool, .run (.event 0 false) oracle) :: trace.drop 17 :=
    ⟨_, _, rfl, rfl, rfl, rfl, _, _, rfl⟩
  have run := played_run played rfl
  refine ⟨pool, eventPool, oracle, trace.take 16, trace.drop 17, event ▸ run, ?_⟩
  exact no_event_lost rfl run (alwaysReading_of_startsReader checked) isOpen
    (no_reader_of_unreading unreading) event

/-- Not a read attempt. -/
private def attemptsNothing : Pool State Act × PoolLabel Act Oracle → Bool
  | (_, .run (.readPeer (.readFrame _)) _) => false
  | _ => true

/-- A second event comes while the reader of the first one is still running,
but `readAgain` is set when that one has looked at it and cleared `reading`: no
read attempt follows. -/
theorem event_lost :
    ∃ (start pool eventPool : Pool State Act)
      (trace before after : List (Pool State Act × PoolLabel Act Oracle))
      (oracle : Oracle),
      Started roomLimits roomConfig 10 10 start ∧
      (relay.system (Started roomLimits roomConfig 10 10)).Run start trace
        pool ∧
      (pool.shared.peers 0).closed = false ∧
      (∀ call, .readPeer call ∈ pool.acts → call.peer ≠ 0) ∧
      trace = before ++ (eventPool, .run (.event 0 false) oracle) :: after ∧
      ∀ entry ∈ after, ∀ oracle,
        entry.2 ≠ .run (.readPeer (.readFrame 0)) oracle := by
  obtain ⟨trace, pool, played, isOpen, unreading, attempts, eventPool, oracle,
    event⟩ : ∃ trace pool,
      relay.play ⟨New roomLimits roomConfig 10 10, []⟩
        (registerMoves ++ (eventMoves 2 ++ runs 3 5 ++ eventMoves 4 ++
          runs 5 2 ++ runs 3 2 ++ runs 5 1)) =
        some (trace, pool) ∧
      (pool.shared.peers 0).closed = false ∧
      pool.acts.all Act.unreading = true ∧
      (trace.drop 24).all attemptsNothing = true ∧ ∃ eventPool oracle,
      trace = trace.take 23 ++
        (eventPool, .run (.event 0 false) oracle) :: trace.drop 24 :=
    ⟨_, _, rfl, rfl, rfl, rfl, _, _, rfl⟩
  have run := played_run played rfl
  refine ⟨_, pool, eventPool, trace, _, _, oracle, rfl, run, isOpen,
    no_reader_of_unreading unreading, event, ?_⟩
  rintro ⟨pool', label⟩ member oracle' rfl
  cases List.all_eq_true.mp attempts _ member

end Byteln.Server.Relay

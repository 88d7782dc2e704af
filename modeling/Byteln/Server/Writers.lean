import Byteln.Server.Allocation

/-!
# Write loops and the frames they are to write

A producer that finds `writing` set leaves its frame to the write loop that is
running.  `Tends` says that somebody will still look at the queue of a peer; a
frame is stranded when the write loop has had its last look before the frame
was queued, and clears `writing` only after the producer has looked at it.
-/

namespace Byteln.Server.Relay

open Byteln.Library

/-- The queue of the peer will be looked at: by a producer that has sent and
has yet to call `ensureWriter`, or by a write loop; or a write loop that could
not write closes the peer. -/
def Tends (p : PeerRef) (stack : List Act) : Prop :=
  .ensureWriter p ∈ stack ∨
    (∃ call, .writeLoop call ∈ stack ∧ call.peer = p ∧ call ≠ .done p) ∨
    [.dropPeer (.swap p), .writeLoop (.done p)].Sublist stack

/-- The condition on the steps: a producer does not find `writing` set by a
write loop that has had its last look, unless nothing is queued, the peer is
closed or about to be closed by the write loop, or another producer has yet to
look at `writing`. -/
def FindsWriter : Pool State Act → PoolLabel Act Oracle → Prop
  | pool, .run (.ensureWriter p) _ =>
      (pool.shared.peers p).writing = true →
        .writeLoop (.done p) ∈ pool.acts →
        (pool.shared.peers p).sendCh = [] ∨
          (pool.shared.peers p).closed = true ∨
          (∃ stack ∈ pool.threads,
            [.dropPeer (.swap p), .writeLoop (.done p)].Sublist stack) ∨
          ∃ others, pool.acts.Perm (.ensureWriter p :: others) ∧
            .ensureWriter p ∈ others
  | _, _ => True

/-- A set flag belongs to a write loop, and queued frames are looked at. -/
structure Tended (pool : Pool State Act) : Prop where
  writing : ∀ p, (pool.shared.peers p).writing = true →
    ∃ stack ∈ pool.threads, ∃ call, .writeLoop call ∈ stack ∧ call.peer = p
  queues : ∀ p, (pool.shared.peers p).sendCh ≠ [] →
    (pool.shared.peers p).closed = true ∨
      ∃ stack ∈ pool.threads, Tends p stack

section Stacks

variable {p : PeerRef} {act : Act} {acts rest : List Act}

theorem Tends.append (tends : Tends p rest) : Tends p (acts ++ rest) := by
  rcases tends with produced | ⟨call, running, works⟩ | dropping
  · exact .inl (List.mem_append_right _ produced)
  · exact .inr (.inl ⟨call, List.mem_append_right _ running, works⟩)
  · exact .inr (.inr (dropping.trans (List.sublist_append_right _ _)))

theorem Tends.below (tends : Tends p acts) : Tends p (acts ++ rest) := by
  rcases tends with produced | ⟨call, running, works⟩ | dropping
  · exact .inl (List.mem_append_left _ produced)
  · exact .inr (.inl ⟨call, List.mem_append_left _ running, works⟩)
  · exact .inr (.inr (dropping.trans (List.sublist_append_left _ _)))

/-- What tends a queue is the activation on top of the stack, or below it. -/
theorem Tends.tail (tends : Tends p (act :: rest))
    (noProducer : act ≠ .ensureWriter p)
    (noWriter : ∀ call, act = .writeLoop call → call.peer = p →
      call = .done p)
    (noDrop : act ≠ .dropPeer (.swap p)) : Tends p rest := by
  rcases tends with produced | ⟨call, running, works, looks⟩ | dropping
  · exact .inl ((List.mem_cons.mp produced).resolve_left noProducer.symm)
  · rcases List.mem_cons.mp running with same | below
    · exact absurd (noWriter call same.symm works) looks
    · exact .inr (.inl ⟨call, below, works, looks⟩)
  · rcases List.sublist_cons_iff.mp dropping with below | ⟨tail, same, -⟩
    · exact .inr (.inr below)
    · exact absurd (List.cons.inj same).1.symm noDrop

end Stacks

section Step

variable {oracle : Oracle} {s s' : State} {act : Act} {acts : List Act}
  {p : PeerRef}

/-- Only a send lengthens a queue. -/
theorem sendCh_frame (next : act.next oracle s = some (s', acts))
    (noSend : ∀ out, act ≠ .send p out)
    (noWriter : ∀ call, act = .writeLoop call → call.peer ≠ p) :
    (s'.peers p).sendCh = (s.peers p).sendCh ∨ (s'.peers p).sendCh = [] := by
  cases act.next_write next with
  | none same => exact .inl (by rw [same])
  | @one q peer change written =>
      rw [written]
      by_cases same : p = q
      · subst same
        rw [Function.update_self]
        cases change with
        | allocated => exact .inr rfl
        | taken | drained => exact absurd rfl (noWriter _ rfl)
        | queued out => exact absurd rfl (noSend out)
        | _ => exact .inl rfl
      · exact .inl (by rw [Function.update_of_ne same])

/-- Only a producer sets `writing`. -/
theorem writing_frame (next : act.next oracle s = some (s', acts))
    (noProducer : act ≠ .ensureWriter p)
    (writing : (s'.peers p).writing = true) :
    (s.peers p).writing = true ∧ act ≠ .writeLoop (.done p) := by
  constructor
  · cases act.next_write next with
    | none same => rwa [same] at writing
    | @one q peer change written =>
        rw [written] at writing
        by_cases same : p = q
        · subst same
          rw [Function.update_self] at writing
          cases change with
          | allocated => cases writing
          | writeDone => cases writing
          | ensured => exact absurd rfl noProducer
          | _ => exact writing
        · rwa [Function.update_of_ne same] at writing
  · rintro rfl
    cases next
    rw [State.modifyPeer_self] at writing
    cases writing

/-- A write loop goes on until its deferred reset. -/
theorem writeLoop_continues {call : WriteLoop}
    (next : call.next oracle s = some (s', acts))
    (looks : call ≠ .done call.peer) :
    ∃ call', .writeLoop call' ∈ acts ∧ call'.peer = call.peer := by
  cases call with
  | loop q | drain q =>
      simp only [WriteLoop.next] at next
      split at next <;> cases next
      · exact ⟨_, List.mem_singleton_self _, rfl⟩
      · split
        · exact ⟨_, List.mem_singleton_self _, rfl⟩
        · exact ⟨.done q, by simp, rfl⟩
  | check q =>
      cases next
      refine ⟨_, List.mem_singleton_self _, ?_⟩
      split <;> rfl
  | done q => exact absurd rfl looks

end Step

section Pools

variable {pool pool' : Pool State Act} {act : Act} {oracle : Oracle}
  {acts rest : List Act} {p : PeerRef}

private theorem writing_step (tended : Tended pool)
    (next : act.next oracle pool.shared = some (pool'.shared, acts))
    (moved : Program.StackStep pool pool' act acts rest
      (act.forks oracle pool.shared))
    (writing : (pool'.shared.peers p).writing = true) :
    ∃ stack ∈ pool'.threads, ∃ call, .writeLoop call ∈ stack ∧
      call.peer = p := by
  have below : ∀ call, Act.writeLoop call ∈ rest → call.peer = p →
      ∃ stack ∈ pool'.threads, ∃ call, .writeLoop call ∈ stack ∧
        call.peer = p :=
    fun call member works =>
      ⟨_, moved.after, call, List.mem_append_right _ member, works⟩
  by_cases produces : act = .ensureWriter p
  · subst produces
    by_cases before : (pool.shared.peers p).writing = true
    · refine moved.exists_stack (tended.writing p before) ?_
      rintro ⟨call, member, works⟩
      rcases List.mem_cons.mp member with same | member
      · cases same
      · exact below call member works
    · refine ⟨_, moved.forked (.writeLoop (.loop p)) ?_, .loop p, by simp,
        rfl⟩
      simp [Act.forks, before]
  · obtain ⟨before, notDone⟩ := writing_frame next produces writing
    refine moved.exists_stack (tended.writing p before) ?_
    rintro ⟨call, member, rfl⟩
    rcases List.mem_cons.mp member with rfl | member
    · have looks : call ≠ .done call.peer := fun same => notDone (by rw [← same])
      obtain ⟨call', started, works⟩ := writeLoop_continues next looks
      exact ⟨_, moved.after, call', List.mem_append_left _ started, works⟩
    · exact below call member rfl

/-- A producer leaves its frame to a write loop, or starts one. -/
private theorem ensured_tends (tended : Tended pool)
    (step : relay.Step pool (.run (.ensureWriter p) oracle) pool')
    (finds : FindsWriter pool (.run (.ensureWriter p) oracle))
    (moved : Program.StackStep pool pool' (.ensureWriter p) acts rest
      ((Act.ensureWriter p).forks oracle pool.shared))
    (queued : (pool.shared.peers p).sendCh ≠ []) :
    (pool.shared.peers p).closed = true ∨
      ∃ stack ∈ pool'.threads, Tends p stack := by
  by_cases writing : (pool.shared.peers p).writing = true
  · obtain ⟨stack, member, call, running, works⟩ := tended.writing p writing
    by_cases looks : call = .done p
    · subst looks
      have leaving : .writeLoop (.done p) ∈ pool.acts :=
        List.mem_flatten.mpr ⟨stack, member, running⟩
      rcases finds writing leaving with
        empty | closed | dropping | ⟨others, perm, another⟩
      · exact absurd empty queued
      · exact .inl closed
      · right
        obtain ⟨stack', member', sublist⟩ := moved.exists_stack dropping (by
          intro sublist
          rcases List.sublist_cons_iff.mp sublist with below | ⟨tail, same, -⟩
          · exact ⟨_, moved.after,
              below.trans (List.sublist_append_right _ _)⟩
          · cases (List.cons.inj same).1)
        exact ⟨stack', member', .inr (.inr sublist)⟩
      · right
        obtain ⟨acts', others', -, before, after⟩ := Program.Step.run_inv step
        have waiting : .ensureWriter p ∈ others' :=
          ((perm.symm.trans before).cons_inv).mem_iff.mp another
        have pending : .ensureWriter p ∈ pool'.acts :=
          after.mem_iff.mpr (by simp [waiting])
        obtain ⟨stack', member', produced⟩ := List.mem_flatten.mp pending
        exact ⟨stack', member', .inl produced⟩
    · right
      have looking : ∃ stack ∈ pool.threads, ∃ call, .writeLoop call ∈ stack ∧
          call.peer = p ∧ call ≠ .done p :=
        ⟨stack, member, call, running, works, looks⟩
      obtain ⟨stack', member', writer⟩ := moved.exists_stack looking (by
        rintro ⟨call', running', writer⟩
        rcases List.mem_cons.mp running' with same | below
        · cases same
        · exact ⟨_, moved.after, call', List.mem_append_right _ below, writer⟩)
      exact ⟨stack', member', .inr (.inl writer)⟩
  · right
    refine ⟨_, moved.forked (.writeLoop (.loop p)) ?_,
      .inr (.inl ⟨.loop p, by simp, rfl, by simp⟩)⟩
    simp [Act.forks, writing]

/-- The write loop looks at the queue again unless it has found it empty, or
closes the peer. -/
private theorem writer_tends {call : WriteLoop} {s' : State}
    (next : call.next oracle pool.shared = some (s', acts))
    (queued : (s'.peers call.peer).sendCh ≠ []) :
    Tends call.peer acts ∨ call = .done call.peer ∧
      (s'.peers call.peer).sendCh =
        (pool.shared.peers call.peer).sendCh := by
  cases call with
  | loop q | drain q =>
      left
      simp only [WriteLoop.next] at next
      split at next <;> cases next
      · rename_i empty
        exact absurd empty queued
      · split
        · exact .inr (.inl ⟨.drain q, by simp, rfl, by simp⟩)
        · exact .inr (.inr (List.Sublist.refl _))
  | check q =>
      left
      cases next
      refine .inr (.inl ⟨.loop q, ?_, rfl, by simp⟩)
      have some : (pool.shared.peers q).sendCh.length ≠ 0 :=
        fun none => queued (List.length_eq_zero_iff.mp none)
      simp [some]
  | done q =>
      right
      cases next
      refine ⟨rfl, ?_⟩
      dsimp only [WriteLoop.peer]
      rw [State.modifyPeer_self]

private theorem queues_step (tended : Tended pool)
    (allocated : Allocated pool.shared pool.acts)
    (step : relay.Step pool (.run act oracle) pool')
    (finds : FindsWriter pool (.run act oracle))
    (next : act.next oracle pool.shared = some (pool'.shared, acts))
    (moved : Program.StackStep pool pool' act acts rest
      (act.forks oracle pool.shared))
    (queued : (pool'.shared.peers p).sendCh ≠ []) :
    (pool'.shared.peers p).closed = true ∨
      ∃ stack ∈ pool'.threads, Tends p stack := by
  have fresh : (pool.shared.peers pool.shared.allocated).closed = false := by
    rw [allocated.zero _ le_rfl]
    rfl
  have kept : (pool.shared.peers p).sendCh ≠ [] →
      (Tends p (act :: rest) → ∃ stack ∈ pool'.threads, Tends p stack) →
      (pool'.shared.peers p).closed = true ∨
        ∃ stack ∈ pool'.threads, Tends p stack := by
    intro before running
    rcases tended.queues p before with closed | tends
    · exact .inl (closed_stays next fresh closed)
    · exact .inr (moved.exists_stack tends running)
  by_cases produces : act = .ensureWriter p
  · subst produces
    obtain ⟨shared, -⟩ := Prod.mk.inj (Option.some.inj next)
    rw [← shared, State.modifyPeer_self] at queued
    refine (ensured_tends tended step finds moved queued).imp_left ?_
    exact closed_stays next fresh
  by_cases sends : ∃ out, act = .send p out
  · obtain ⟨out, rfl⟩ := sends
    simp only [Act.next] at next
    split at next
    · obtain ⟨-, rfl⟩ := Prod.mk.inj (Option.some.inj next)
      exact .inr ⟨_, moved.after, .inl (by simp)⟩
    · obtain ⟨same, -⟩ := Prod.mk.inj (Option.some.inj next)
      rw [← same] at queued
      refine kept queued fun tends => ⟨_, moved.after, ?_⟩
      exact (tends.tail (by simp) (by simp) (by simp)).append
  by_cases writes : ∃ call, act = .writeLoop call ∧ call.peer = p
  · obtain ⟨call, rfl, rfl⟩ := writes
    rcases writer_tends next queued with tends | ⟨leaving, same⟩
    · exact .inr ⟨_, moved.after, tends.below⟩
    · rw [same] at queued
      refine kept queued fun tends => ⟨_, moved.after, ?_⟩
      refine (tends.tail (by simp) ?_ (by simp)).append
      rintro call' same' -
      rw [← Act.writeLoop.inj same', ← leaving]
  by_cases drops : act = .dropPeer (.swap p)
  · subst drops
    simp only [Act.next, DropPeer.next] at next
    split at next <;> obtain ⟨same, -⟩ := Prod.mk.inj (Option.some.inj next)
    · rename_i closed
      exact .inl (same ▸ closed)
    · rw [← same, State.modifyPeer_self]
      exact .inl rfl
  · have same := sendCh_frame next (fun out same => sends ⟨out, same⟩)
      fun call same works => writes ⟨call, same, works⟩
    rw [same.resolve_right queued] at queued
    refine kept queued fun tends => ⟨_, moved.after, ?_⟩
    refine (tends.tail produces ?_ drops).append
    exact fun call same works => absurd ⟨call, same, works⟩ writes

theorem Tended.step {label : PoolLabel Act Oracle} (tended : Tended pool)
    (allocated : Allocated pool.shared pool.acts)
    (step : relay.Step pool label pool') (finds : FindsWriter pool label) :
    Tended pool' := by
  cases label with
  | spawn act =>
      cases step with
      | spawn threads entry =>
          refine ⟨fun p writing => ?_, fun p queued => ?_⟩
          · obtain ⟨stack, member, running⟩ := tended.writing p writing
            exact ⟨stack, List.mem_append_left _ member, running⟩
          · refine (tended.queues p queued).imp_right ?_
            rintro ⟨stack, member, tends⟩
            exact ⟨stack, List.mem_append_left _ member, tends⟩
  | run act oracle =>
      obtain ⟨acts, rest, next, moved⟩ := Program.Step.run_stacks step
      exact ⟨fun p => writing_step tended next moved,
        fun p => queues_step tended allocated step finds next moved⟩

end Pools

theorem tended_of_reachable {cfg : Limits} {buckets : Config}
    {createPerMin maxBuckets : Int} {pool : Pool State Act}
    (reachable : ((relay.system (Started cfg buckets createPerMin
      maxBuckets)).restrict FindsWriter).Reachable pool) : Tended pool := by
  refine (reachable.invariant (fun pool => Tended pool ∧
    Allocated pool.shared pool.acts) ?_ ?_).1
  · rintro pool rfl
    refine ⟨⟨?_, ?_⟩, allocated_started cfg buckets createPerMin maxBuckets⟩
    · intro p writing
      cases writing
    · intro p queued
      exact absurd rfl queued
  · rintro pool label pool' ⟨tended, allocated⟩ ⟨step, finds⟩
    exact ⟨tended.step allocated step finds, allocated.pool step⟩

/-- While no write loop of an open peer is running and no producer is between
its send and its look at `writing`, nothing is queued for the peer. -/
theorem no_frame_stranded {cfg : Limits} {buckets : Config}
    {createPerMin maxBuckets : Int} {pool : Pool State Act} {p : PeerRef}
    (reachable : ((relay.system (Started cfg buckets createPerMin
      maxBuckets)).restrict FindsWriter).Reachable pool)
    (isOpen : (pool.shared.peers p).closed = false)
    (noWriter : ∀ call, .writeLoop call ∈ pool.acts → call.peer ≠ p)
    (noProducer : .ensureWriter p ∉ pool.acts) :
    (pool.shared.peers p).sendCh = [] := by
  by_contra queued
  rcases (tended_of_reachable reachable).queues p queued with
    closed | ⟨stack, member, tends⟩
  · rw [isOpen] at closed
    cases closed
  · have running : ∀ act ∈ stack, act ∈ pool.acts :=
      fun act inStack => List.mem_flatten.mpr ⟨stack, member, inStack⟩
    rcases tends with produced | ⟨call, writer, works, -⟩ | dropping
    · exact noProducer (running _ produced)
    · exact noWriter call (running _ writer) works
    · exact noWriter (.done p)
        (running _ (dropping.subset (by simp))) rfl

/-- Alice connects; her slot is queued and written. -/
private def welcomeMoves : List (Program.Move Act Oracle) :=
  [connects "alice" "192.0.2.1"] ++ runs 0 10 ++ runs 1 4

/-- The step does not come upon a running write loop. -/
private def startsWriter : Pool State Act × PoolLabel Act Oracle → Bool
  | (pool, .run (.ensureWriter p) _) => !(pool.shared.peers p).writing
  | _ => true

private theorem findsWriter_of_startsWriter
    {entry : Pool State Act × PoolLabel Act Oracle}
    (starts : startsWriter entry = true) : FindsWriter entry.1 entry.2 := by
  obtain ⟨pool, label⟩ := entry
  cases label with
  | spawn act => trivial
  | run act oracle =>
      cases act with
      | ensureWriter p =>
          intro writing
          have free : (!(pool.shared.peers p).writing) = true := starts
          rw [writing] at free
          cases free
      | _ => trivial

/-- Neither a write loop nor a producer that has yet to look at `writing`. -/
private def Act.silent : Act → Bool
  | .writeLoop _ | .ensureWriter _ => false
  | _ => true

private theorem no_writer_of_silent {acts : List Act} {p : PeerRef}
    (silent : acts.all Act.silent = true) :
    (∀ call, .writeLoop call ∈ acts → call.peer ≠ p) ∧
      .ensureWriter p ∉ acts := by
  constructor
  · intro call member
    cases List.all_eq_true.mp silent _ member
  · intro member
    cases List.all_eq_true.mp silent _ member

/-- The first message to a new connection has been taken from the queue. -/
theorem no_frame_stranded_slot :
    ∃ pool : Pool State Act,
      (pool.shared.peers 0).queued = [.control (.slot 0)] ∧
        (pool.shared.peers 0).sendCh = [] := by
  obtain ⟨trace, pool, played, checked, silent, isOpen, queued⟩ :
      ∃ trace pool, relay.play ⟨New roomLimits roomConfig 10 10, []⟩
        welcomeMoves = some (trace, pool) ∧
      trace.all startsWriter = true ∧ pool.acts.all Act.silent = true ∧
      (pool.shared.peers 0).closed = false ∧
      (pool.shared.peers 0).queued = [.control (.slot 0)] :=
    ⟨_, _, rfl, rfl, rfl, rfl, rfl⟩
  have run := played_run played rfl
  have meets : Lts.AllMeet FindsWriter trace := fun entry member =>
    findsWriter_of_startsWriter (List.all_eq_true.mp checked entry member)
  obtain ⟨noWriter, noProducer⟩ := no_writer_of_silent silent
  have reachable : ((relay.system (Started roomLimits roomConfig 10
      10)).restrict FindsWriter).Reachable pool :=
    ⟨_, trace, rfl, Lts.run_restrict_iff.mpr ⟨run, meets⟩⟩
  exact ⟨pool, queued, no_frame_stranded reachable isOpen noWriter noProducer⟩

/-- Alice connects, and asks for a pong just when her write loop has found the
queue empty and has yet to clear its flag. -/
private def strandingRun : Option (Pool State Act) :=
  relay.execAll
    (busy [.handleConn (.get (roomRequest "alice" "192.0.2.1")),
      .event 0 false])
    (List.replicate 10 (0, fine 0) ++ List.replicate 3 (2, fine 0) ++
      List.replicate 4 (0, fine 0) ++ [(1, fine 0)] ++
      List.replicate 4 (3, fine 0) ++ [(3, { fine 0 with read := .ctrlPing })] ++
      List.replicate 5 (3, fine 0) ++ [(2, fine 0)])

/-- The pong stays in the queue of an open peer: its producer has left it to a
write loop that was on its way out. -/
theorem pong_stranded :
    ∃ pool, (relay.system (Started roomLimits roomConfig 10 10)).Reachable
        pool ∧
      (pool.shared.peers 0).closed = false ∧
      (∀ call, .writeLoop call ∈ pool.acts → call.peer ≠ 0) ∧
      .ensureWriter 0 ∉ pool.acts ∧
      (pool.shared.peers 0).sendCh = [.control .pong] := by
  have stranded : strandingRun.any (fun pool =>
      !(pool.shared.peers 0).closed && pool.acts.all Act.silent &&
        (pool.shared.peers 0).sendCh = [.control .pong]) = true := by decide
  obtain ⟨pool, ran, check⟩ := (Option.any_eq_true _ _).mp stranded
  simp only [Bool.and_eq_true, decide_eq_true_eq, Bool.not_eq_true'] at check
  obtain ⟨⟨isOpen, silent⟩, queued⟩ := check
  obtain ⟨noWriter, noProducer⟩ := no_writer_of_silent silent
  exact ⟨pool, Program.execAll_run (busy_reachable (by simp [Act.Entry])) ran,
    isOpen, noWriter, noProducer, queued⟩

end Byteln.Server.Relay

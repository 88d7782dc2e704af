import Byteln.Client.CallAccounts

/-!
# Waiting for a client to close

Every promise of `closeAndWait` settles: it is settled, or its timeout is
still to come.  A flow waits only for promises that there are.
-/

namespace Byteln.Client

open Byteln.Library

namespace ConnectionManager

/-- What can happen to the promises of `closeAndWait`: they are settled, and
new ones are settled or have a timeout. -/
structure WaitsMove (before after : ConnectionManager) : Prop where
  length : before.closeWaits.length ≤ after.closeWaits.length
  kept : ∀ (ref : Nat) wait wait', before.closeWaits[ref]? = some wait →
    after.closeWaits[ref]? = some wait' → WaitRetreats wait wait'
  queued : ∃ tasks, after.queued = before.queued ++ tasks ∧
    ∀ (ref : Nat) wait, before.closeWaits.length ≤ ref →
      after.closeWaits[ref]? = some wait →
        wait.settled = true ∨
          wait.ws.isSome = true ∧ .closeTimeout ref ∈ tasks

variable {manager before middle after : ConnectionManager}
  {task : RoomTask} {tasks others : List RoomTask} {outside : Surroundings}
  {turn : ConnectionManager × List RoomTask}

theorem Retreats.waitsMove (retreats : Retreats before after) :
    WaitsMove before after := by
  obtain ⟨tasks, queued, -, waits⟩ := retreats.queued
  exact ⟨retreats.waitsLength, retreats.waits, tasks, queued, waits⟩

theorem WaitsMove.of_same (closeWaits : after.closeWaits = before.closeWaits)
    (queued : ∃ tasks, after.queued = before.queued ++ tasks) :
    WaitsMove before after := by
  obtain ⟨tasks, queued⟩ := queued
  refine ⟨closeWaits ▸ le_rfl, ?_, tasks, queued, ?_⟩
  · intro ref wait wait' found found'
    rw [closeWaits, found] at found'
    obtain rfl := Option.some.inj found'
    exact ⟨rfl, rfl, id⟩
  · intro ref wait beyond found
    rw [closeWaits, List.getElem?_eq_none beyond] at found
    cases found

theorem WaitsMove.trans (first : WaitsMove before middle)
    (second : WaitsMove middle after) : WaitsMove before after := by
  obtain ⟨tasks, queued, new⟩ := first.queued
  obtain ⟨tasks', queued', new'⟩ := second.queued
  refine ⟨first.length.trans second.length, ?_, tasks ++ tasks',
    by rw [queued', queued, List.append_assoc], ?_⟩
  · intro ref wait wait'' found found''
    obtain ⟨inside, -⟩ := List.getElem?_eq_some_iff.mp found
    have found' := List.getElem?_eq_getElem (inside.trans_le first.length)
    have early := first.kept ref wait _ found found'
    have late := second.kept ref _ wait'' found' found''
    exact ⟨late.client.trans early.client, late.ws.trans early.ws,
      fun settled => late.settled (early.settled settled)⟩
  · intro ref wait beyond found
    rcases Nat.lt_or_ge ref middle.closeWaits.length with inside | outside
    · have found' := List.getElem?_eq_getElem inside
      have kept := second.kept ref _ wait found' found
      rcases new ref _ beyond found' with settled | ⟨own, started⟩
      · exact .inl (kept.settled settled)
      · exact .inr ⟨kept.ws ▸ own, List.mem_append_left _ started⟩
    · rcases new' ref wait outside found with settled | ⟨own, started⟩
      · exact .inl settled
      · exact .inr ⟨own, List.mem_append_right _ started⟩

theorem connect_waitsMove (manager : ConnectionManager) (ref : Nat) :
    WaitsMove manager (manager.connect ref) := by
  unfold connect
  split
  · exact .of_same rfl ⟨[], (List.append_nil _).symm⟩
  · dsimp only
    refine WaitsMove.trans (WaitsMove.trans ?_
      (Retreats.notify _ ref _ []).waitsMove) (.of_same rfl ⟨_, rfl⟩)
    split <;> exact .of_same rfl ⟨[], (List.append_nil _).symm⟩

theorem startClient_waitsMove (manager : ConnectionManager)
    (outside : Surroundings) (room result : Nat) :
    WaitsMove manager (manager.startClient outside room result).1 := by
  have made : WaitsMove manager (manager.withClient room) :=
    .of_same rfl ⟨[], (List.append_nil _).symm⟩
  exact (made.trans (connect_waitsMove _ _)).trans
    (waitForRelay_quiet _ outside 0 result).retreats.waitsMove

theorem connectRelay_waitsMove (manager : ConnectionManager)
    (outside : Surroundings) (result : Nat) :
    WaitsMove manager (manager.connectRelay outside result).1 := by
  unfold connectRelay
  split
  · exact (Retreats.settle manager result false).waitsMove
  · split
    · exact (Retreats.settle manager result false).waitsMove
    · have marked := (Retreats.modifyRuntime manager fun runtime =>
        { runtime with bucketFull := false }).waitsMove
      dsimp only
      split
      · exact marked.trans (Retreats.closeAndWait _ _).waitsMove
      · exact marked.trans (startClient_waitsMove _ outside _ result)

theorem WaitsMove.unsuppress (moves : WaitsMove manager turn.1) :
    WaitsMove manager (unsuppress turn).1 :=
  moves.trans (.of_same rfl ⟨[], (List.append_nil _).symm⟩)

theorem flow_waitsMove {stage : ConnectFlow} {result : Nat}
    (goes : manager.flow outside result stage = some turn) :
    WaitsMove manager turn.1 := by
  have same : WaitsMove manager manager := (Retreats.refl manager).waitsMove
  have settled : ∀ value, WaitsMove manager (manager.settle result value) :=
    fun value => (Retreats.settle manager result value).waitsMove
  cases stage with
  | reconnectClosing room wait =>
      simp only [flow] at goes
      split at goes <;> cases goes
      exact (Retreats.dropClient manager room).waitsMove
  | reconnectPause =>
      simp only [flow] at goes
      split at goes <;> cases goes
      · have entered : Quiet manager (manager.openRoom result) :=
          enter_quiet manager result rfl
        exact entered.retreats.waitsMove.unsuppress
      · exact (connectRoom_quiet manager result).retreats.waitsMove.unsuppress
  | connectClosing room wait =>
      simp only [flow] at goes
      split at goes <;> cases goes
      exact (Retreats.dropClient manager room).waitsMove
  | connectToken =>
      simp only [flow] at goes
      split at goes <;> cases goes
      · exact (connectRelay_waitsMove manager outside result).unsuppress
      · exact (settled false).trans
          (.of_same rfl ⟨[], (List.append_nil _).symm⟩)
  | openCredentials =>
      simp only [flow] at goes
      split at goes <;> cases goes
      · exact same
      · exact settled false
  | openRecord =>
      simp only [flow] at goes
      split at goes <;> cases goes
      · exact same
      · exact settled false
  | openMessages =>
      cases goes
      exact .of_same rfl ⟨[], (List.append_nil _).symm⟩
  | openPending =>
      cases goes
      exact same
  | openToken =>
      simp only [flow] at goes
      split at goes <;> cases goes
      · exact connectRelay_waitsMove manager outside result
      · exact settled false
  | relayClosing room wait =>
      simp only [flow] at goes
      split at goes <;> cases goes
      exact (Retreats.dropClient manager room).waitsMove.trans
        (startClient_waitsMove _ outside room result)
  | waitForRelay polls =>
      cases goes
      exact (waitForRelay_quiet manager outside polls result).retreats.waitsMove

/-- Every step moves the promises of `closeAndWait` this way. -/
theorem Sound.waitsMove (sound : manager.Sound (task :: others))
    (runs : task.run outside manager = some turn) :
    WaitsMove manager turn.1 := by
  cases opens : task.opens with
  | false =>
      have kept : manager.Sound others := by
        apply sound.of_openings
        cases task <;> first | exact .refl _ | cases opens
      exact (kept.quiet runs opens).retreats.waitsMove
  | true =>
      cases task with
      | flow stage result => exact flow_waitsMove runs
      | openSocket client generation =>
          cases runs
          unfold ConnectionManager.openSocket
          split
          · exact (Retreats.refl manager).waitsMove
          · split
            · exact .of_same rfl ⟨[], (List.append_nil _).symm⟩
            · exact (Retreats.refl manager).waitsMove
      | socketOpen ws =>
          obtain ⟨after, opened, rfl⟩ := Option.map_eq_some_iff.mp runs
          unfold ConnectionManager.onSocketOpen at opened
          split at opened
          · rename_i ref seen found
            obtain rfl := Option.some.inj opened
            have reset : WaitsMove manager ((manager.modifySocket ws
                fun socket => { socket with readyState := .open }).modifyClient
                  ref fun client => { client with reconnectAttempt := 0 }) :=
              .of_same rfl ⟨[], (List.append_nil _).symm⟩
            exact reset.trans (Retreats.notify _ ref .open []).waitsMove
          · cases opened
      | _ => cases opens

end ConnectionManager

/-- Every promise of `closeAndWait` settles, and flows wait for such ones. -/
structure WaitsServed (manager : ConnectionManager) (tasks : List RoomTask) :
    Prop where
  waits : ∀ (ref : Nat) wait, manager.closeWaits[ref]? = some wait →
    wait.settled = true ∨ wait.ws.isSome = true ∧ .closeTimeout ref ∈ tasks
  flows : ∀ stage result wait, .flow stage result ∈ tasks →
    stage.wait? = some wait → wait < manager.closeWaits.length

open ConnectionManager

/-- The timeout settles its promise. -/
theorem finishWait_settles {manager : ConnectionManager} {ref : Nat}
    {wait wait' : CloseWait} (found : manager.closeWaits[ref]? = some wait)
    (served : wait.settled = true ∨ wait.ws.isSome = true)
    (found' : (manager.finishWait ref).closeWaits[ref]? = some wait') :
    wait'.settled = true := by
  unfold finishWait at found'
  obtain ⟨client, ws, settled⟩ := wait
  split at found'
  · simp only [modifyClient, List.getElem?_modify_eq, found,
      Option.map_eq_map, Option.map_some, Option.some.injEq] at found'
    subst found'
    rfl
  · rename_i other
    rw [found] at found'
    obtain rfl := Option.some.inj found'
    cases ws with
    | none =>
        rcases served with settled | own
        · exact settled
        · cases own
    | some ws =>
        cases settled with
        | true => rfl
        | false => exact absurd found (other client ws)

theorem waitsServed_of_reachable {pool : Pool ConnectionManager RoomTask}
    (reachable : connectionSystem.Reachable pool) :
    WaitsServed pool.shared pool.acts := by
  refine Program.reachable_invariant WaitsServed ?_ ?_ ?_ ?_
    (Program.reachable_unrestricted reachable)
  · intro manager tasks others moved served
    refine ⟨fun ref wait found => ?_, fun stage result wait member => ?_⟩
    · rw [← moved.mem_iff]
      exact served.waits ref wait found
    · exact served.flows stage result wait (moved.mem_iff.mpr member)
  · rintro pool rfl
    exact ⟨fun ref wait found => (nomatch found),
      fun stage result wait member => (nomatch member)⟩
  · intro manager tasks task entry served
    refine ⟨fun ref wait found => (served.waits ref wait found).imp_right
      fun ⟨own, member⟩ => ⟨own, List.mem_cons_of_mem task member⟩, ?_⟩
    intro stage result wait member
    rcases List.mem_cons.mp member with same | old
    · subst same
      cases entry
    · exact served.flows stage result wait old
  · intro pool manager' task tasks others outside reached moved served next _
    obtain ⟨turn, runs, same⟩ := Option.map_eq_some_iff.mp next
    obtain ⟨rfl, rfl⟩ := Prod.mk.inj same
    obtain ⟨sound, idle⟩ := sound_of_reachable
      (Lts.reachable_of_restrict reached)
    have sound := sound.of_openings (openings_perm moved)
    have moves := sound.waitsMove runs
    obtain ⟨queued, grown, new⟩ := moves.queued
    rw [idle, List.nil_append] at grown
    have forks : connectionManager.forks outside task pool.shared =
        turn.1.queued := by
      simp [connectionManager, RoomTask.forks, runs]
    rw [forks]
    constructor
    · intro ref wait' found'
      have found' : turn.1.closeWaits[ref]? = some wait' := found'
      rcases Nat.lt_or_ge ref pool.shared.closeWaits.length with inside |
        outside'
      · have found := List.getElem?_eq_getElem inside
        have kept := moves.kept ref _ wait' found found'
        rcases served.waits ref _ found with settled | ⟨own, member⟩
        · exact .inl (kept.settled settled)
        · rcases List.mem_cons.mp member with same | old
          · left
            subst same
            cases runs
            exact finishWait_settles found (.inr own) found'
          · exact .inr ⟨kept.ws ▸ own, by simp [old]⟩
      · rcases new ref wait' outside' found' with settled | ⟨own, started⟩
        · exact .inl settled
        · exact .inr ⟨own, by simp [grown, started]⟩
    · intro stage result wait member waits
      rw [← List.append_assoc] at member
      rcases List.mem_append.mp member with started | old
      · exact started_inside idle runs started waits
      · exact (served.flows stage result wait (List.mem_cons_of_mem _ old)
          waits).trans_le moves.length

end Byteln.Client

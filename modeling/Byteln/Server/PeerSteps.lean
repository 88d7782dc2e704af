import Byteln.Server.RelaySteps

/-!
# What a step writes to a peer

Every step leaves all peers as they are, or changes one of them.
`PeerChange` lists the changes with what is known of the peer where they are
made; the invariants about the flags and queues of peers are proved by cases
on it.
-/

namespace Byteln.Server.Relay

open Byteln.Library

/-- The new value of a peer that the activation changes. -/
inductive PeerChange (s : State) : Act → PeerRef → Peer → Prop where
  | allocated (req : Request) (existed : Bool) :
      PeerChange s (.handleConn (.upgrade req existed)) s.allocated
        { Peer.zero with
          bucket := req.bucketID, token := req.token, ip := req.ip }
  | seated (req : Request) (existed : Bool) (p : PeerRef)
      (call : JoinCall PeerRef) (slot : Slot) :
      PeerChange s (.handleConn (.join req existed p call)) p
        { s.peers p with slot := some slot }
  | started {p : PeerRef} (ok : Bool) :
      (s.peers p).closed = false →
      PeerChange s (.handleConn (.start p)) p
        { s.peers p with desc := true, polled := ok }
  | closed {p : PeerRef} :
      (s.peers p).closed = false →
      PeerChange s (.dropPeer (.swap p)) p { s.peers p with closed := true }
  | torn (p : PeerRef) (ip : String) :
      PeerChange s (.dropPeer (.teardown p ip)) p
        { s.peers p with desc := false, polled := false }
  | again (p : PeerRef) :
      PeerChange s (.readPeer (.again p)) p
        { s.peers p with readAgain := true }
  | reading {p : PeerRef} :
      (s.peers p).reading = false →
      PeerChange s (.readPeer (.swap p)) p { s.peers p with reading := true }
  | cleared (p : PeerRef) :
      PeerChange s (.readPeer (.clear p)) p
        { s.peers p with readAgain := false }
  | readDone (p : PeerRef) :
      PeerChange s (.readPeer (.done p)) p { s.peers p with reading := false }
  | taken {p : PeerRef} {out : Outbound} {rest : List Outbound} :
      (s.peers p).sendCh = out :: rest →
      PeerChange s (.writeLoop (.loop p)) p { s.peers p with sendCh := rest }
  | drained {p : PeerRef} {out : Outbound} {rest : List Outbound} :
      (s.peers p).sendCh = out :: rest →
      PeerChange s (.writeLoop (.drain p)) p { s.peers p with sendCh := rest }
  | writeDone (p : PeerRef) :
      PeerChange s (.writeLoop (.done p)) p { s.peers p with writing := false }
  | queued {p : PeerRef} (out : Outbound) :
      (s.peers p).sendCh.length < sendChCap →
      PeerChange s (.send p out) p
        { s.peers p with
          sendCh := (s.peers p).sendCh ++ [out]
          queued := (s.peers p).queued ++ [out] }
  | ensured (p : PeerRef) :
      PeerChange s (.ensureWriter p) p { s.peers p with writing := true }

/-- The step changes one peer, or none. -/
inductive PeerWrite (s s' : State) (act : Act) : Prop where
  | none : s'.peers = s.peers → PeerWrite s s' act
  | one {p : PeerRef} {peer : Peer} :
      PeerChange s act p peer →
      s'.peers = Function.update s.peers p peer →
      PeerWrite s s' act

theorem HandleConn.next_write {oracle : Oracle} {s s' : State}
    {call : HandleConn} {acts : List Act}
    (next : call.next oracle s = some (s', acts)) :
    PeerWrite s s' (.handleConn call) := by
  cases call with
  | get req =>
      simp only [HandleConn.next] at next
      split at next
      · cases next
      · split at next <;> cases next <;> exact .none rfl
  | allowCreate req => cases next; exact .none rfl
  | tryAcquire req => cases next; exact .none rfl
  | upgrade req existed =>
      simp only [HandleConn.next] at next
      split at next
      · cases next
        exact .one (.allocated req existed) rfl
      · cases next
        exact .none rfl
  | join req existed p call =>
      simp only [HandleConn.next] at next
      split at next
      · cases next
      · split at next <;> cases next
        · exact .none rfl
        · exact .one (.seated req existed p _ _) rfl
      · cases next
        exact .none rfl
  | list p b slot => cases next; exact .none rfl
  | drain p b =>
      simp only [HandleConn.next] at next
      split at next
      · cases next
      · cases next
        exact .none rfl
  | handleRead p => cases next; exact .none rfl
  | start p =>
      simp only [HandleConn.next] at next
      split at next <;> cases next
      · exact .none rfl
      · rename_i isOpen
        exact .one (.started _ (Bool.eq_false_iff.mpr isOpen)) rfl
  | done p => cases next; exact .none rfl

theorem DropPeer.next_write {oracle : Oracle} {s s' : State}
    {call : DropPeer} {acts : List Act}
    (next : call.next oracle s = some (s', acts)) :
    PeerWrite s s' (.dropPeer call) := by
  cases call with
  | swap p =>
      simp only [DropPeer.next] at next
      split at next <;> cases next
      · exact .none rfl
      · rename_i isOpen
        exact .one (.closed (Bool.eq_false_iff.mpr isOpen)) rfl
  | creatorIP p =>
      simp only [DropPeer.next] at next
      split at next
      · cases next
      · cases next
        exact .none rfl
  | teardown p ip =>
      cases next
      exact .one (.torn p ip) rfl
  | unlist p ip => cases next; exact .none rfl
  | leave p ip call =>
      simp only [DropPeer.next] at next
      split at next
      · cases next
      · cases next
        exact .none rfl
      · cases next
        exact .none rfl

theorem ReadPeer.next_write {oracle : Oracle} {s s' : State}
    {call : ReadPeer} {acts : List Act}
    (next : call.next oracle s = some (s', acts)) :
    PeerWrite s s' (.readPeer call) := by
  cases call with
  | enter p | loop p | idle p => cases next; exact .none rfl
  | clear p => cases next; exact .one (.cleared p) rfl
  | done p => cases next; exact .one (.readDone p) rfl
  | again p => cases next; exact .one (.again p) rfl
  | swap p =>
      simp only [ReadPeer.next] at next
      split at next <;> cases next
      · exact .none rfl
      · rename_i free
        exact .one (.reading (Bool.eq_false_iff.mpr free)) rfl
  | readFrame p =>
      simp only [ReadPeer.next] at next
      split at next <;> cases next <;> exact .none rfl
  | ping p answer =>
      simp only [ReadPeer.next] at next
      split at next
      · cases next
      · cases next
        exact .none rfl
  | handle p data binary =>
      simp only [ReadPeer.next] at next
      split_ifs at next <;> cases next <;> exact .none rfl
  | get p data binary now =>
      simp only [ReadPeer.next] at next
      split at next
      · cases next
      · split at next <;> cases next <;> exact .none rfl
  | record p b data binary now =>
      simp only [ReadPeer.next] at next
      split at next
      · split at next
        · cases next
        · cases next
          exact .none rfl
      · cases next
        exact .none rfl
  | age p b data binary now | bufferIfAlone p b data binary
  | otherConn p b data binary =>
      simp only [ReadPeer.next] at next
      split at next
      · cases next
      · cases next
        exact .none rfl

theorem WriteLoop.next_write {oracle : Oracle} {s s' : State}
    {call : WriteLoop} {acts : List Act}
    (next : call.next oracle s = some (s', acts)) :
    PeerWrite s s' (.writeLoop call) := by
  cases call with
  | loop p =>
      simp only [WriteLoop.next] at next
      split at next <;> cases next
      · exact .none rfl
      · rename_i found
        exact .one (.taken found) rfl
  | drain p =>
      simp only [WriteLoop.next] at next
      split at next <;> cases next
      · exact .none rfl
      · rename_i found
        exact .one (.drained found) rfl
  | check p => cases next; exact .none rfl
  | done p => cases next; exact .one (.writeDone p) rfl

theorem Act.next_write {oracle : Oracle} {s s' : State} {act : Act}
    {acts : List Act} (next : act.next oracle s = some (s', acts)) :
    PeerWrite s s' act := by
  cases act with
  | handleConn call => exact call.next_write next
  | dropPeer call => exact call.next_write next
  | readPeer call => exact call.next_write next
  | writeLoop call => exact call.next_write next
  | event p hup =>
      simp only [Act.next] at next
      split at next <;> cases next
      exact .none rfl
  | sweep call =>
      simp only [Act.next] at next
      split at next
      · cases next
      · cases next
        exact .none rfl
      · cases next
        exact .none rfl
  | touch b | notifyPeerPresence b | notifySeat b slot | closeSeat b slot =>
      simp only [Act.next] at next
      split at next
      · cases next
      · cases next
        exact .none rfl
  | closePoller =>
      simp only [Act.next] at next
      split at next <;> cases next <;> exact .none rfl
  | shutdown | stopPoller | releaseBucket ip | enqueue p out =>
      cases next
      exact .none rfl
  | send p out =>
      simp only [Act.next] at next
      split at next <;> cases next
      · rename_i room
        exact .one (.queued out room) rfl
      · exact .none rfl
  | ensureWriter p => cases next; exact .one (.ensured p) rfl

/-- A closed peer stays closed, if it has been allocated. -/
theorem closed_stays {oracle : Oracle} {s s' : State} {act : Act}
    {acts : List Act} {p : PeerRef}
    (next : act.next oracle s = some (s', acts))
    (fresh : (s.peers s.allocated).closed = false)
    (closed : (s.peers p).closed = true) : (s'.peers p).closed = true := by
  cases act.next_write next with
  | none same => rwa [same]
  | @one q peer change written =>
      rw [written]
      by_cases same : p = q
      · subst same
        rw [Function.update_self]
        cases change with
        | allocated =>
            rw [closed] at fresh
            cases fresh
        | closed => rfl
        | _ => exact closed
      · rwa [Function.update_of_ne same]

end Byteln.Server.Relay

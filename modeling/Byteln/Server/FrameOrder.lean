import Byteln.Server.FrameMoves

/-!
# Frames arrive in order

A joining seat is connected before `handleConn` has drained the backlog to it,
so a reader may forward a frame past older ones of its own that are still in
the buffer, or on their way out of it.  `OvertakesNone` excludes these lookups.
-/

namespace Byteln.Server.Relay

open Byteln.Library

/-- The frames that the reader of a peer has processed, in its order. -/
def processed (p : PeerRef)
    (trace : List (Pool State Act × PoolLabel Act Oracle)) :
    List (List UInt8 × Bool) :=
  trace.flatMap fun entry => framesRead p entry.2

/-- The condition on the steps: a reader that looks its receiver up finds none
of its own frames on the way to it, and none in a buffer that is still to be
drained to it, unless the receiver is closed. -/
def OvertakesNone : Pool State Act → PoolLabel Act Oracle → Prop
  | pool, .run (.readPeer (.otherConn p ref _ _)) _ =>
      ∀ q, pool.shared.receiver? p ref = some q →
        (pool.shared.peers q).closed = false →
          (∀ act ∈ pool.acts, act.carries false p q = none) ∧
          ∀ act ∈ pool.acts, ∀ ref', act.drains q = some ref' →
            pool.shared.stored p ref' = []
  | _, _ => True

/-! ## The order is kept -/

/-- The frames of a sender that are about to be queued for a peer. -/
def State.lane (s : State) (p q : PeerRef) (acts : List Act) :
    List (List UInt8 × Bool) :=
  acts.filterMap (Act.carries (s.peers q).closed p q)

/-- The frames of a sender are in order, wherever they are. -/
def State.Order (s : State) (p q : PeerRef)
    (sent : List (List UInt8 × Bool)) (acts : List Act) : Prop :=
  InOrder sent (s.received p q) (s.lane p q acts)
    (acts.filterMap (Act.held p)) (s.stored p)
    (fun ref => ∃ act ∈ acts, act.drains q = some ref)

/-- What carries a frame works for its receiver. -/
theorem target_of_carries {closed : Bool} {p q : PeerRef} {act : Act}
    (carries : act.carries closed p q ≠ none) :
    act.joining = none ∧ act.peer? = some q := by
  cases act with
  | enqueue q' out =>
      simp only [Act.carries] at carries
      split at carries
      · rename_i here
        exact ⟨rfl, congrArg some here.1⟩
      · exact absurd rfl carries
  | send q' out =>
      simp only [Act.carries] at carries
      split at carries
      · rename_i here
        exact ⟨rfl, congrArg some here⟩
      · exact absurd rfl carries
  | _ => exact absurd rfl carries

theorem Act.carries_open {closed : Bool} {p q : PeerRef} {act : Act}
    {content : List UInt8 × Bool}
    (carried : act.carries closed p q = some content) :
    act.carries false p q = some content := by
  cases act with
  | enqueue q' out =>
      simp only [Act.carries] at carried ⊢
      split at carried
      · rename_i here
        rw [if_pos ⟨here.1, trivial⟩]
        exact carried
      · cases carried
  | send q' out => exact carried
  | _ => cases carried

section Order

variable {oracle : Oracle} {s s' : State} {act : Act} {p q : PeerRef}
  {acts pre post forked : List Act} {sent : List (List UInt8 × Bool)}

theorem lane_append (first second : List Act) :
    s.lane p q (first ++ second) = s.lane p q first ++ s.lane p q second :=
  List.filterMap_append

theorem lane_eq_nil (quiet : ∀ act ∈ acts, act.carries false p q = none) :
    s.lane p q acts = [] := by
  apply List.filterMap_eq_nil_iff.mpr
  intro act member
  by_contra some
  obtain ⟨content, carried⟩ := Option.ne_none_iff_exists'.mp some
  have none := quiet act member
  rw [Act.carries_open carried] at none
  cases none

/-- A peer that is closed gets nothing more from `Enqueue`. -/
theorem lane_sublist
    (closed : (s.peers q).closed = true → (s'.peers q).closed = true)
    (acts : List Act) : (s'.lane p q acts).Sublist (s.lane p q acts) := by
  apply filterMap_sublist_filterMap
  intro act content carried
  cases act with
  | enqueue q' out =>
      simp only [Act.carries] at carried ⊢
      split at carried
      · rename_i here
        have isOpen : (s.peers q).closed = false := by
          apply Bool.eq_false_iff.mpr
          intro before
          rw [closed before] at here
          cases here.2
        rw [if_pos ⟨here.1, isOpen⟩]
        exact carried
      · cases carried
  | send q' out => exact carried
  | _ => cases carried

/-- The activations that a step starts on other stacks carry nothing. -/
structure Quiet (p q : PeerRef) (forked : List Act) : Prop where
  carries : ∀ act ∈ forked, act.carries false p q = none
  held : ∀ act ∈ forked, act.held p = none
  drains : ∀ act ∈ forked, act.drains q = none

/-- A step after which everything in between has moved on or is lost. -/
theorem order_of {received lane held : List (List UInt8 × Bool)}
    {stored : Ref → List (List UInt8 × Bool)} {drains : Ref → Prop}
    (order : InOrder sent received lane held stored drains)
    (quiet : Quiet p q forked)
    (sameReceived : s'.received p q = received)
    (onLane : (s'.lane p q pre ++ (s'.lane p q acts ++
      s'.lane p q post)).Sublist lane)
    (inHand : (pre.filterMap (Act.held p) ++ (acts.filterMap (Act.held p) ++
      post.filterMap (Act.held p))).Sublist held)
    (inStore : ∀ ref, (s'.stored p ref).Sublist (stored ref))
    (drained : ∀ act ∈ pre ++ (acts ++ post), ∀ ref,
      act.drains q = some ref → drains ref) :
    s'.Order p q sent (pre ++ (acts ++ (post ++ forked))) := by
  have noLane : s'.lane p q forked = [] := lane_eq_nil quiet.carries
  have noHand : forked.filterMap (Act.held p) = [] :=
    List.filterMap_eq_nil_iff.mpr quiet.held
  unfold State.Order
  rw [sameReceived]
  apply order.loses
  · simpa only [lane_append, noLane, List.append_nil] using onLane
  · simpa only [List.filterMap_append, noHand, List.append_nil] using inHand
  · exact inStore
  · rintro ref ⟨act', member, drains⟩
    apply drained act' _ ref drains
    simp only [List.mem_append] at member ⊢
    rcases member with early | new | late | forkedAct
    · exact .inl early
    · exact .inr (.inl new)
    · exact .inr (.inr late)
    · rw [quiet.drains act' forkedAct] at drains
      cases drains

/-- What has to be known of the other activations when one takes its step. -/
structure Stage (s : State) (p q : PeerRef) (act : Act)
    (pre post : List Act) : Prop where
  /-- The activations before it carry nothing if it does. -/
  first : (act.carries (s.peers q).closed p q).isSome → s.lane p q pre = []
  reader : act.reader = some p → ∀ other ∈ pre ++ post, other.held p = none
  handler : act.handler = some q →
    ∀ other ∈ pre ++ post, other.drains q = none
  join : ∀ req existed call, act = .handleConn (.join req existed q call) →
    s.received p q = [] ∧ s.lane p q (pre ++ post) = []
  buffer : ∀ ref data binary,
    act = .readPeer (.bufferIfAlone p ref data binary) →
    ∀ other ∈ pre ++ post, ∀ ref', other.drains q = some ref' →
      s.lane p q (pre ++ post) = []
  lookup : ∀ ref data binary, act = .readPeer (.otherConn p ref data binary) →
    s.receiver? p ref = some q → (s.peers q).closed = false →
    s.lane p q (pre ++ post) = [] ∧
      ∀ other ∈ pre ++ post, ∀ ref', other.drains q = some ref' →
        s.stored p ref' = []

namespace Stage

variable {frame : List UInt8 × Bool}

/-- The reader's activation is the only one that holds a frame. -/
theorem held_eq (stage : Stage s p q act pre post)
    (reads : act.reader = some p) :
    pre.filterMap (Act.held p) = [] ∧ post.filterMap (Act.held p) = [] := by
  have none := stage.reader reads
  constructor
  · exact List.filterMap_eq_nil_iff.mpr fun other member =>
      none other (List.mem_append_left _ member)
  · exact List.filterMap_eq_nil_iff.mpr fun other member =>
      none other (List.mem_append_right _ member)

theorem drains_of (quiet : act.drains q = none) {ref : Ref}
    (drained : ∃ other ∈ pre ++ act :: post, other.drains q = some ref) :
    ∃ other ∈ pre ++ post, other.drains q = some ref := by
  obtain ⟨other, member, drains⟩ := drained
  simp only [List.mem_append, List.mem_cons] at member
  rcases member with early | rfl | late
  · exact ⟨other, List.mem_append_left _ early, drains⟩
  · rw [quiet] at drains
    cases drains
  · exact ⟨other, List.mem_append_right _ late, drains⟩

end Stage

theorem lane_split : s.lane p q (pre ++ act :: post) =
    s.lane p q pre ++ ((act.carries (s.peers q).closed p q).toList ++
      s.lane p q post) := by
  rw [lane_append]
  exact congrArg _ (filterMap_cons_toList _ _ _)

theorem held_split : (pre ++ act :: post).filterMap (Act.held p) =
    pre.filterMap (Act.held p) ++ ((act.held p).toList ++
      post.filterMap (Act.held p)) := by
  rw [List.filterMap_append, filterMap_cons_toList]

/-- A frame is read. -/
theorem order_reads {data : List UInt8} {binary : Bool}
    (order : s.Order p q sent (pre ++ .readPeer (.readFrame p) :: post))
    (stage : Stage s p q (.readPeer (.readFrame p)) pre post)
    (quiet : Quiet p q forked) :
    s.Order p q (sent ++ [(data, binary)])
      (pre ++ ([.readPeer (.handle p data binary)] ++ (post ++ forked))) := by
  obtain ⟨before, after⟩ := stage.held_eq rfl
  unfold State.Order at order
  rw [lane_split, held_split, before, after] at order
  apply order_of order.reads quiet rfl
  · exact List.Sublist.refl _
  · rw [before, after]
    simp [Act.held]
  · exact fun ref => List.Sublist.refl _
  · intro other member ref drains
    simp only [List.mem_append, List.mem_singleton] at member
    rcases member with early | rfl | late
    · exact ⟨other, by simp [early], drains⟩
    · cases drains
    · exact ⟨other, by simp [late], drains⟩

/-- The members that drain to a peer when the running activation is replaced
by others that drain nothing new. -/
theorem drains_kept (q : PeerRef) (pre post : List Act) {act : Act}
    {acts : List Act}
    (goesOn : ∀ other ∈ acts, ∀ ref, other.drains q = some ref →
      act.drains q = some ref) :
    ∀ other ∈ pre ++ (acts ++ post), ∀ ref, other.drains q = some ref →
      ∃ other ∈ pre ++ act :: post, other.drains q = some ref := by
  intro other member ref drains
  simp only [List.mem_append] at member
  rcases member with early | new | late
  · exact ⟨other, by simp [early], drains⟩
  · exact ⟨act, by simp, goesOn other new ref drains⟩
  · exact ⟨other, by simp [late], drains⟩

/-- The frame in hand is handed over, or goes nowhere if the receiver has
been closed. -/
theorem order_forwards {ref : Ref} {data : List UInt8} {binary : Bool}
    (order : s.Order p q sent
      (pre ++ .readPeer (.otherConn p ref data binary) :: post))
    (stage : Stage s p q (.readPeer (.otherConn p ref data binary)) pre post)
    (receives : s.receiver? p ref = some q) (quiet : Quiet p q forked) :
    s.Order p q sent
      (pre ++ ((handover p q data binary ++ [.readPeer (.readFrame p)]) ++
        (post ++ forked))) := by
  obtain ⟨before, after⟩ := stage.held_eq rfl
  have noHand : (handover p q data binary ++
      [Act.readPeer (.readFrame p)]).filterMap (Act.held p) = [] := rfl
  have goesOn : ∀ other ∈ handover p q data binary ++
      [Act.readPeer (.readFrame p)], ∀ ref', other.drains q = some ref' →
      (Act.readPeer (.otherConn p ref data binary)).drains q = some ref' := by
    intro other member ref' drains
    simp only [handover, List.mem_append, List.mem_cons, List.not_mem_nil,
      or_false] at member
    rcases member with (rfl | rfl) | rfl <;> cases drains
  have kept := drains_kept q pre post goesOn
  unfold State.Order at order
  rw [held_split, before, after] at order
  cases closed : (s.peers q).closed with
  | true =>
      apply order_of order quiet rfl
      · have none : s.lane p q (handover p q data binary ++
            [.readPeer (.readFrame p)]) = [] := by
          simp [State.lane, handover, Act.carries, closed, Outbound.from?]
        rw [none, lane_split]
        exact (List.Sublist.refl _).append (List.sublist_append_right _ _)
      · rw [before, after, noHand]
        exact List.nil_sublist _
      · exact fun ref => List.Sublist.refl _
      · exact kept
  | false =>
      obtain ⟨free, clear⟩ := stage.lookup ref data binary rfl receives closed
      rw [lane_append] at free
      obtain ⟨freeBefore, freeAfter⟩ := List.append_eq_nil_iff.mp free
      rw [lane_split, freeBefore, freeAfter] at order
      have own : (Act.readPeer (.otherConn p ref data binary)).held p =
          some (data, binary) := if_pos rfl
      rw [own] at order
      have forwarded := order.forwards (by
        rintro ref' drained
        obtain ⟨other, member, drains⟩ := Stage.drains_of rfl drained
        exact clear other member ref' drains)
      apply order_of forwarded quiet rfl
      · rw [freeBefore, freeAfter]
        simp [State.lane, handover, Act.carries, closed, Outbound.from?]
      · rw [before, after, noHand]
        exact List.nil_sublist _
      · exact fun ref => List.Sublist.refl _
      · exact kept

/-- The frame in hand is buffered. -/
theorem order_stores {ref : Ref} {data : List UInt8} {binary : Bool}
    (order : s.Order p q sent
      (pre ++ .readPeer (.bufferIfAlone p ref data binary) :: post))
    (stage : Stage s p q (.readPeer (.bufferIfAlone p ref data binary))
      pre post)
    (peers : s'.peers = s.peers)
    (added : (s'.stored p ref).Sublist (s.stored p ref ++ [(data, binary)]))
    (others : ∀ other, other ≠ ref →
      (s'.stored p other).Sublist (s.stored p other))
    (quiet : Quiet p q forked) :
    s'.Order p q sent
      (pre ++ ([.readPeer (.readFrame p)] ++ (post ++ forked))) := by
  obtain ⟨before, after⟩ := stage.held_eq rfl
  have goesOn : ∀ other ∈ [Act.readPeer (.readFrame p)],
      ∀ ref', other.drains q = some ref' →
      (Act.readPeer (.bufferIfAlone p ref data binary)).drains q =
        some ref' := by
    intro other member ref' drains
    obtain rfl := List.mem_singleton.mp member
    cases drains
  have kept := drains_kept q pre post goesOn
  have sameLane : ∀ acts, s'.lane p q acts = s.lane p q acts := by
    intro acts
    unfold State.lane
    rw [peers]
  have own : (Act.readPeer (.bufferIfAlone p ref data binary)).held p =
      some (data, binary) := if_pos rfl
  unfold State.Order at order
  rw [held_split, lane_split, before, after, own] at order
  have stored := order.stores (by
    rintro ref' drained
    obtain ⟨other, member, drains⟩ := Stage.drains_of rfl drained
    have free := stage.buffer ref data binary rfl other member ref' drains
    rw [lane_append] at free
    exact free) added others
  apply order_of stored quiet
  · unfold State.received
    rw [peers]
  · rw [sameLane, sameLane, sameLane]
    exact List.Sublist.refl _
  · rw [before, after]
    exact List.nil_sublist _
  · exact fun ref => List.Sublist.refl _
  · exact kept

/-- The activations that a drain of some frames leaves behind. -/
def drained (q : PeerRef) (frames : List (BufferedFrame Frame)) : List Act :=
  (frames.map fun f => .enqueue q (.data f.data f.binary)) ++
    [.handleConn (.handleRead q)]

theorem drained_drains (frames : List (BufferedFrame Frame)) :
    ∀ other ∈ drained q frames, other.drains q = none := by
  intro other member
  simp only [drained, List.mem_append, List.mem_map, List.mem_singleton]
    at member
  rcases member with ⟨_, -, rfl⟩ | rfl <;> rfl

theorem drained_held (frames : List (BufferedFrame Frame)) :
    (drained q frames).filterMap (Act.held p) = [] := by
  apply List.filterMap_eq_nil_iff.mpr
  intro other member
  simp only [drained, List.mem_append, List.mem_map, List.mem_singleton]
    at member
  rcases member with ⟨_, -, rfl⟩ | rfl <;> rfl

theorem drained_lane (frames : List (BufferedFrame Frame)) :
    (s.lane p q (drained q frames)).Sublist
      (frames.filterMap (storedFrom p)) := by
  have last : [Act.handleConn (.handleRead q)].filterMap
      (Act.carries (s.peers q).closed p q) = [] := rfl
  unfold State.lane drained
  rw [List.filterMap_append, last, List.append_nil, List.filterMap_map]
  apply filterMap_sublist_filterMap
  intro f content carried
  simpa [Act.carries, storedFrom] using Act.carries_open carried

/-- A buffer is drained. -/
theorem order_drains {ref : Ref} {frames : List (BufferedFrame Frame)}
    (order : s.Order p q sent (pre ++ .handleConn (.drain q ref) :: post))
    (stage : Stage s p q (.handleConn (.drain q ref)) pre post)
    (peers : s'.peers = s.peers)
    (fits : (frames.filterMap (storedFrom p)).Sublist (s.stored p ref))
    (shrinks : ∀ other, (s'.stored p other).Sublist (s.stored p other))
    (quiet : Quiet p q forked) :
    s'.Order p q sent (pre ++ (drained q frames ++ (post ++ forked))) := by
  have sameLane : ∀ acts, s'.lane p q acts = s.lane p q acts := by
    intro acts
    unfold State.lane
    rw [peers]
  have sameReceived : s'.received p q = s.received p q := by
    unfold State.received
    rw [peers]
  have noLane : s.lane p q forked = [] := lane_eq_nil quiet.carries
  have noHand : forked.filterMap (Act.held p) = [] :=
    List.filterMap_eq_nil_iff.mpr quiet.held
  have held : (pre ++ (drained q frames ++ (post ++ forked))).filterMap
      (Act.held p) =
        (pre ++ .handleConn (.drain q ref) :: post).filterMap
          (Act.held p) := by
    rw [held_split]
    simp only [List.filterMap_append, drained_held, noHand, List.append_nil]
    rfl
  have queued := (drained_lane (s := s) (p := p) (q := q) frames).trans fits
  have drains : ∃ act ∈ pre ++ .handleConn (.drain q ref) :: post,
      act.drains q = some ref :=
    ⟨.handleConn (.drain q ref), by simp, if_pos rfl⟩
  unfold State.Order at order ⊢
  rw [sameReceived, held, sameLane]
  apply order.empties drains
  · simp only [lane_append, noLane, List.append_nil]
    by_cases free : s.lane p q pre ++ s.lane p q post = []
    · obtain ⟨before, after⟩ := List.append_eq_nil_iff.mp free
      rw [before, after, List.nil_append, List.append_nil]
      exact queued.trans (List.sublist_append_right _ _)
    · have whole : s.lane p q (pre ++ .handleConn (.drain q ref) :: post) =
          s.lane p q pre ++ s.lane p q post := lane_split
      have empty := order.alone ref drains (by rwa [whole])
      rw [empty] at queued
      rw [List.sublist_nil.mp queued, List.nil_append]
      exact (List.Sublist.refl _).trans (List.sublist_append_left _ _)
  · exact shrinks
  · rintro ref' ⟨other, member, drains'⟩
    simp only [List.mem_append] at member
    rcases member with early | new | late | forkedAct
    · rw [stage.handler rfl other (List.mem_append_left _ early)] at drains'
      cases drains'
    · rw [drained_drains frames other new] at drains'
      cases drains'
    · rw [stage.handler rfl other (List.mem_append_right _ late)] at drains'
      cases drains'
    · rw [quiet.drains other forkedAct] at drains'
      cases drains'

/-- A peer has been found open. -/
theorem order_passes {out : Outbound}
    (order : s.Order p q sent (pre ++ .enqueue q out :: post))
    (isOpen : (s.peers q).closed = false) (quiet : Quiet p q forked) :
    s.Order p q sent (pre ++ ([.send q out] ++ (post ++ forked))) := by
  have carries : (Act.enqueue q out).carries (s.peers q).closed p q =
      out.from? p := if_pos ⟨rfl, isOpen⟩
  have sends : s.lane p q [.send q out] = (out.from? p).toList := by
    unfold State.lane
    rw [filterMap_cons_toList, List.filterMap_nil, List.append_nil]
    exact congrArg _ (if_pos rfl)
  have goesOn : ∀ other ∈ [Act.send q out], ∀ ref,
      other.drains q = some ref → (Act.enqueue q out).drains q = some ref := by
    intro other member ref drains
    obtain rfl := List.mem_singleton.mp member
    cases drains
  apply order_of order quiet rfl
  · rw [lane_split, carries, sends]
  · rw [held_split]
    exact List.Sublist.refl _
  · exact fun ref => List.Sublist.refl _
  · exact drains_kept q pre post goesOn

/-- A frame gets into the channel. -/
theorem order_sends {out : Outbound}
    (order : s.Order p q sent (pre ++ .send q out :: post))
    (stage : Stage s p q (.send q out) pre post)
    (calls : s'.calls = s.calls)
    (closed : (s'.peers q).closed = (s.peers q).closed)
    (received : s'.received p q = s.received p q ++ (out.from? p).toList)
    (quiet : Quiet p q forked) :
    s'.Order p q sent (pre ++ ([.ensureWriter q] ++ (post ++ forked))) := by
  have sameLane : ∀ acts, s'.lane p q acts = s.lane p q acts := by
    intro acts
    unfold State.lane
    rw [closed]
  have sameStored : ∀ ref, s'.stored p ref = s.stored p ref := by
    intro ref
    unfold State.stored
    rw [calls]
  have carries : (Act.send q out).carries (s.peers q).closed p q =
      out.from? p := if_pos rfl
  have goesOn : ∀ other ∈ [Act.ensureWriter q], ∀ ref,
      other.drains q = some ref → (Act.send q out).drains q = some ref := by
    intro other member ref drains
    obtain rfl := List.mem_singleton.mp member
    cases drains
  have kept := drains_kept q pre post goesOn
  have held : pre.filterMap (Act.held p) ++
      ([Act.ensureWriter q].filterMap (Act.held p) ++
        post.filterMap (Act.held p)) =
        (pre ++ .send q out :: post).filterMap (Act.held p) := by
    rw [held_split]
    rfl
  cases own : out.from? p with
  | none =>
      rw [own, Option.toList_none, List.append_nil] at received
      apply order_of order quiet received
      · rw [sameLane, sameLane, sameLane, lane_split, carries, own]
        exact List.Sublist.refl _
      · rw [held]
      · exact fun ref => by rw [sameStored]
      · exact kept
  | some frame =>
      have before := stage.first (by rw [carries, own]; rfl)
      unfold State.Order at order
      rw [lane_split, before, carries, own] at order
      rw [own] at received
      apply order_of order.delivers quiet received
      · rw [sameLane, sameLane, sameLane, before]
        exact List.Sublist.refl _
      · rw [held]
      · exact fun ref => by rw [sameStored]
      · exact kept

/-- A peer has joined, and its buffer will be drained. -/
theorem order_joins {req : Request} {existed : Bool}
    {call : JoinCall PeerRef} {ref : Ref} {slot : Slot}
    (order : s.Order p q sent
      (pre ++ .handleConn (.join req existed q call) :: post))
    (stage : Stage s p q (.handleConn (.join req existed q call)) pre post)
    (closed : (s.peers q).closed = true → (s'.peers q).closed = true)
    (received : s'.received p q = s.received p q)
    (shrinks : ∀ other, (s'.stored p other).Sublist (s.stored p other))
    (quiet : Quiet p q forked) :
    s'.Order p q sent
      (pre ++ ([.handleConn (.list q ref slot)] ++ (post ++ forked))) := by
  obtain ⟨none, free⟩ := stage.join req existed call rfl
  rw [lane_append] at free
  obtain ⟨before, after⟩ := List.append_eq_nil_iff.mp free
  unfold State.Order at order
  rw [lane_split, before, after, none] at order
  have opened : InOrder sent [] [] _ (s.stored p) (fun _ => True) :=
    order.opens
  apply order_of opened quiet (received.trans none)
  · have early : (s'.lane p q pre).Sublist (s.lane p q pre) :=
      lane_sublist closed pre
    have late : (s'.lane p q post).Sublist (s.lane p q post) :=
      lane_sublist closed post
    rw [before] at early
    rw [after] at late
    rw [List.sublist_nil.mp early, List.sublist_nil.mp late]
    exact List.Sublist.refl _
  · rw [held_split]
    exact List.Sublist.refl _
  · exact shrinks
  · exact fun _ _ _ _ => trivial

/-- Everything else moves no frame, or loses it. -/
theorem order_keeps
    (order : s.Order p q sent (pre ++ act :: post))
    (closed : (s.peers q).closed = true → (s'.peers q).closed = true)
    (received : s'.received p q = s.received p q)
    (shrinks : ∀ other, (s'.stored p other).Sublist (s.stored p other))
    (none : ∀ act' ∈ acts, act'.carries false p q = none)
    (inHand : (acts.filterMap (Act.held p)).Sublist (act.held p).toList)
    (goesOn : ∀ act' ∈ acts, ∀ ref, act'.drains q = some ref →
      act.drains q = some ref)
    (quiet : Quiet p q forked) :
    s'.Order p q sent (pre ++ (acts ++ (post ++ forked))) := by
  apply order_of order quiet received
  · rw [lane_eq_nil none, lane_split]
    exact (lane_sublist closed pre).append
      ((List.nil_sublist _).append (lane_sublist closed post))
  · rw [held_split]
    exact (List.Sublist.refl _).append (inHand.append (List.Sublist.refl _))
  · exact shrinks
  · exact drains_kept q pre post goesOn

theorem Moves.order (moves : Moves p q oracle s s' act acts)
    (order : s.Order p q sent (pre ++ act :: post))
    (stage : Stage s p q act pre post)
    (closed : (s.peers q).closed = true → (s'.peers q).closed = true)
    (quiet : Quiet p q forked) :
    s'.Order p q (sent ++ framesRead p (.run act oracle))
      (pre ++ (acts ++ (post ++ forked))) := by
  cases moves with
  | @reads data binary read same =>
      subst same
      have one : framesRead p (.run (.readPeer (.readFrame p)) oracle) =
          [(data, binary)] := by
        rw [framesRead, if_pos rfl, read]
        rfl
      rw [one]
      exact order_reads order stage quiet
  | forwards receives same =>
      subst same
      change s'.Order p q (sent ++ []) _
      rw [List.append_nil]
      exact order_forwards order stage receives quiet
  | stores peers added others =>
      change s'.Order p q (sent ++ []) _
      rw [List.append_nil]
      exact order_stores order stage peers added others quiet
  | drains peers fits shrinks =>
      change s'.Order p q (sent ++ []) _
      rw [List.append_nil]
      exact order_drains order stage peers fits shrinks quiet
  | @passes out isOpen same =>
      subst same
      change s'.Order p q (sent ++ []) _
      rw [List.append_nil]
      exact order_passes order isOpen quiet
  | sends calls closed received =>
      change s'.Order p q (sent ++ []) _
      rw [List.append_nil]
      exact order_sends order stage calls closed received quiet
  | joins received shrinks =>
      change s'.Order p q (sent ++ []) _
      rw [List.append_nil]
      exact order_joins order stage closed received shrinks quiet
  | keeps received shrinks none inHand goesOn read =>
      rw [read, List.append_nil]
      exact order_keeps order closed received shrinks none inHand goesOn quiet

end Order

/-! ## Runs -/

/-- Whoever is about to queue a frame of a sender is called by the sender's
reader or by the handler that has drained it. -/
def Followed (p q : PeerRef) : List Act → Prop
  | [] => True
  | act :: stack =>
      ((act.carries false p q).isSome →
        .readPeer (.readFrame p) ∈ stack ∨
          .handleConn (.handleRead q) ∈ stack) ∧ Followed p q stack

section Stacks

variable {oracle : Oracle} {s s' : State} {act : Act} {p q : PeerRef}
  {acts rest : List Act}

theorem Followed.cons_quiet (followed : Followed p q rest)
    (none : act.carries false p q = none) : Followed p q (act :: rest) := by
  refine ⟨?_, followed⟩
  intro carries
  rw [none] at carries
  cases carries

theorem Followed.append (followed : Followed p q rest)
    (none : ∀ act ∈ acts, act.carries false p q = none) :
    Followed p q (acts ++ rest) := by
  induction acts with
  | nil => exact followed
  | cons act acts induction =>
      exact (induction fun other member =>
        none other (List.mem_cons_of_mem act member)).cons_quiet
          (none act List.mem_cons_self)

theorem Followed.caller (followed : Followed p q rest) (member : act ∈ rest)
    (carries : (act.carries false p q).isSome) :
    .readPeer (.readFrame p) ∈ rest ∨ .handleConn (.handleRead q) ∈ rest := by
  induction rest with
  | nil => cases member
  | cons first rest induction =>
      have below : .readPeer (.readFrame p) ∈ rest ∨
          .handleConn (.handleRead q) ∈ rest := by
        rcases List.mem_cons.mp member with rfl | later
        · exact followed.1 carries
        · exact induction followed.2 later
      exact below.imp (List.mem_cons_of_mem first)
        (List.mem_cons_of_mem first)

theorem followed_drained (frames : List (BufferedFrame Frame))
    (followed : Followed p q rest) :
    Followed p q (drained q frames ++ rest) := by
  induction frames with
  | nil => exact followed.cons_quiet rfl
  | cons f frames induction =>
      refine ⟨fun _ => .inr ?_, induction⟩
      simp

theorem Moves.followed (moves : Moves p q oracle s s' act acts)
    (followed : Followed p q (act :: rest)) : Followed p q (acts ++ rest) := by
  cases moves with
  | reads | stores | joins | sends => exact followed.2.cons_quiet rfl
  | forwards =>
      refine ⟨fun _ => .inl ?_, ?_⟩
      · simp
      · apply Followed.cons_quiet
        · exact followed.2.cons_quiet rfl
        · simp [Act.carries, Outbound.from?]
  | drains => exact followed_drained _ followed.2
  | passes isOpen same =>
      refine ⟨fun carries => followed.1 ?_, followed.2⟩
      simpa [Act.carries] using carries
  | keeps _ _ none => exact followed.2.append none

end Stacks

/-- The order of a sender's frames in a pool, with what keeps it. -/
structure Ordered (p q : PeerRef)
    (trace : List (Pool State Act × PoolLabel Act Oracle))
    (pool : Pool State Act) : Prop where
  order : pool.shared.Order p q (processed p trace) pool.acts
  apart : pool.threads.Pairwise fun stack stack' =>
    pool.shared.lane p q stack = [] ∨ pool.shared.lane p q stack' = []
  followed : ∀ stack ∈ pool.threads, Followed p q stack

section Pools

variable {oracle : Oracle} {s s' : State} {act : Act} {p q : PeerRef}
  {acts pre post forked : List Act} {sent : List (List UInt8 × Bool)}

theorem stage_of (exclusive : Exclusive s (pre ++ act :: post))
    (seating : Seating s (pre ++ act :: post))
    (settled : Settled s (pre ++ act :: post))
    (first : (act.carries (s.peers q).closed p q).isSome →
      s.lane p q pre = [])
    (callers : ∀ other ∈ pre ++ act :: post,
      (other.carries false p q).isSome →
        .readPeer (.readFrame p) ∈ pre ++ act :: post ∨
          .handleConn (.handleRead q) ∈ pre ++ act :: post)
    (overtakes : ∀ ref data binary,
      act = .readPeer (.otherConn p ref data binary) →
      s.receiver? p ref = some q → (s.peers q).closed = false →
      (∀ other ∈ pre ++ act :: post, other.carries false p q = none) ∧
        ∀ other ∈ pre ++ act :: post, ∀ ref', other.drains q = some ref' →
          s.stored p ref' = []) :
    Stage s p q act pre post := by
  have around : ∀ {other}, other ∈ pre ++ post → other ∈ pre ++ act :: post :=
    fun member => List.perm_middle.mem_iff.mpr (List.mem_cons_of_mem act member)
  have running : act ∈ pre ++ act :: post := by simp
  have alone : ∀ {f : Act → Option PeerRef} {r : PeerRef},
      ((pre ++ act :: post).filterMap f).Nodup → f act = some r →
      ∀ other ∈ pre ++ post, f other ≠ some r := by
    intro f r distinct own other member same
    have split := (List.perm_middle.filterMap f).nodup_iff.mp distinct
    rw [List.filterMap_cons_some own, List.nodup_cons] at split
    exact split.1 (List.mem_filterMap.mpr ⟨other, member, same⟩)
  constructor
  · exact first
  · intro reads other member
    by_contra found
    obtain ⟨frame, inHand⟩ := Option.ne_none_iff_exists'.mp found
    exact alone exclusive.readers reads other member
      (Act.reader_of_held inHand)
  · intro handles other member
    by_contra found
    obtain ⟨ref, drains⟩ := Option.ne_none_iff_exists'.mp found
    exact alone exclusive.handlers handles other member
      (Act.handler_of_drains drains)
  · rintro req existed call rfl
    have unassigned := (seating.unseated q (List.mem_filterMap.mpr
      ⟨_, running, rfl⟩)).2
    constructor
    · unfold State.received
      rw [exclusive.unqueued q unassigned]
      rfl
    · apply lane_eq_nil
      intro other member
      by_contra found
      have target := target_of_carries found
      have assigned := settled.working other (around member) target.1 q
        target.2
      rw [unassigned] at assigned
      cases assigned
  · rintro ref data binary rfl drain member ref' drains
    apply lane_eq_nil
    intro other carrying
    by_contra found
    rcases callers other (around carrying) (Option.isSome_iff_ne_none.mpr found)
      with reads | handles
    · have same := eq_of_nodup_filterMap exclusive.readers reads running
        (c := p) rfl rfl
      cases same
    · have same := eq_of_nodup_filterMap exclusive.handlers handles
        (around member) (c := q) rfl (Act.handler_of_drains drains)
      rw [← same] at drains
      cases drains
  · rintro ref data binary same receives isOpen
    obtain ⟨free, clear⟩ := overtakes ref data binary same receives isOpen
    exact ⟨lane_eq_nil fun other member => free other (around member),
      fun other member => clear other (around member)⟩

/-- A step leaves the stack it runs on free if it was, or all other stacks are
free. -/
theorem Moves.apart (moves : Moves p q oracle s s' act acts)
    (order : s.Order p q sent (pre ++ act :: post))
    (stage : Stage s p q act pre post) :
    (s'.lane p q acts).Sublist (s'.lane p q [act]) ∨
      s'.lane p q (pre ++ post) = [] := by
  cases moves with
  | reads | stores | joins | sends => exact .inl (List.nil_sublist _)
  | @forwards ref data binary receives same =>
      subst same
      cases closed : (s'.peers q).closed with
      | true =>
          left
          have none : s'.lane p q (handover p q data binary ++
              [.readPeer (.readFrame p)]) = [] := by
            simp [State.lane, handover, Act.carries, closed, Outbound.from?]
          rw [none]
          exact List.nil_sublist _
      | false =>
          exact .inr (stage.lookup ref data binary rfl receives closed).1
  | @drains ref frames peers fits =>
      have sameLane : ∀ acts, s'.lane p q acts = s.lane p q acts := by
        intro acts
        unfold State.lane
        rw [peers]
      simp only [sameLane]
      by_cases free : s.lane p q (pre ++ post) = []
      · exact .inr free
      · left
        have empty := order.alone ref
          ⟨.handleConn (.drain q ref), by simp, if_pos rfl⟩
          (by rw [lane_split]; rwa [lane_append] at free)
        have queued := (drained_lane (s := s) (p := p) (q := q) frames).trans
          fits
        rw [empty] at queued
        exact queued.trans (List.nil_sublist _)
  | @passes out isOpen same =>
      subst same
      left
      unfold State.lane
      rw [filterMap_cons_toList, filterMap_cons_toList, isOpen]
      simp [Act.carries]
  | keeps _ _ none =>
      left
      rw [lane_eq_nil none]
      exact List.nil_sublist _

end Pools

section Steps

variable {pool pool' : Pool State Act} {label : PoolLabel Act Oracle}
  {p q : PeerRef} {trace : List (Pool State Act × PoolLabel Act Oracle)}

theorem processed_snoc (p : PeerRef)
    (trace : List (Pool State Act × PoolLabel Act Oracle)) :
    processed p (trace ++ [(pool, label)]) =
      processed p trace ++ framesRead p label := by
  simp [processed]

theorem entry_quiet {act : Act} (entry : act.Entry) : Quiet p q [act] := by
  unfold Act.Entry at entry
  split at entry
  case h_5 => exact entry.elim
  all_goals
    exact ⟨by simp [Act.carries], by simp [Act.held], by simp [Act.drains]⟩

theorem forks_quiet {oracle : Oracle} {act : Act} {s : State} :
    Quiet p q (act.forks oracle s) where
  carries := by
    intro act' forked
    rcases Act.forks_cases forked with ⟨_, rfl⟩ | ⟨_, rfl⟩ | ⟨_, rfl⟩ <;> rfl
  held := by
    intro act' forked
    rcases Act.forks_cases forked with ⟨_, rfl⟩ | ⟨_, rfl⟩ | ⟨_, rfl⟩ <;> rfl
  drains := by
    intro act' forked
    rcases Act.forks_cases forked with ⟨_, rfl⟩ | ⟨_, rfl⟩ | ⟨_, rfl⟩ <;> rfl

/-- A new thread moves no frame. -/
theorem Ordered.spawn {shared : State} {threads : List (List Act)} {act : Act}
    (ordered : Ordered p q trace ⟨shared, threads⟩) (entry : act.Entry) :
    Ordered p q (trace ++ [(⟨shared, threads⟩, .spawn act)])
      ⟨shared, threads ++ [[act]]⟩ := by
  have quiet : Quiet p q [act] := entry_quiet entry
  constructor
  · rw [processed_snoc]
    have flat : (⟨shared, threads ++ [[act]]⟩ : Pool State Act).acts =
        threads.flatten ++ ([] ++ ([] ++ [act])) := by
      simp [Pool.acts]
    rw [flat]
    change shared.Order p q (processed p trace ++ []) _
    rw [List.append_nil]
    apply order_of ordered.order quiet rfl
    · simp [State.lane, Pool.acts]
    · simp [Pool.acts]
    · exact fun ref => List.Sublist.refl _
    · intro other member ref drains
      exact ⟨other, by simpa [Pool.acts] using member, drains⟩
  · refine List.pairwise_append.mpr ⟨ordered.apart, List.pairwise_singleton _ _,
      ?_⟩
    intro stack _ stack' new
    obtain rfl := List.mem_singleton.mp new
    exact .inr (lane_eq_nil quiet.carries)
  · intro stack member
    rcases List.mem_append.mp member with old | new
    · exact ordered.followed stack old
    · obtain rfl := List.mem_singleton.mp new
      exact Followed.cons_quiet trivial (quiet.carries act (by simp))

/-- The frames of a stack are among those of the pool. -/
theorem lane_flatten_eq_nil {s : State} {threads : List (List Act)}
    (free : s.lane p q threads.flatten = []) {stack : List Act}
    (member : stack ∈ threads) : s.lane p q stack = [] := by
  apply List.filterMap_eq_nil_iff.mpr
  intro act inside
  exact List.filterMap_eq_nil_iff.mp free act
    (List.mem_flatten.mpr ⟨stack, member, inside⟩)

theorem lane_flatten_of_free {s : State} {threads : List (List Act)}
    (free : ∀ stack ∈ threads, s.lane p q stack = []) :
    s.lane p q threads.flatten = [] := by
  apply List.filterMap_eq_nil_iff.mpr
  intro act member
  obtain ⟨stack, listed, inside⟩ := List.mem_flatten.mp member
  exact List.filterMap_eq_nil_iff.mp (free stack listed) act inside

theorem Ordered.stage {shared : State} {before after : List (List Act)}
    {act : Act} {rest : List Act} {oracle : Oracle}
    (ordered : Ordered p q trace ⟨shared, before ++ (act :: rest) :: after⟩)
    (seated : WellSeated ⟨shared, before ++ (act :: rest) :: after⟩)
    (exclusive : Exclusive shared
      (⟨shared, before ++ (act :: rest) :: after⟩ : Pool State Act).acts)
    (meets : OvertakesNone ⟨shared, before ++ (act :: rest) :: after⟩
      (.run act oracle)) :
    Stage shared p q act before.flatten (rest ++ after.flatten) := by
  have flat : (⟨shared, before ++ (act :: rest) :: after⟩ :
      Pool State Act).acts =
      before.flatten ++ act :: (rest ++ after.flatten) := by
    simp [Pool.acts]
  have seating := seated.seating
  have settled := seated.settled
  rw [flat] at exclusive seating settled
  apply stage_of exclusive seating settled
  · intro carries
    apply lane_flatten_of_free
    intro stack member
    obtain ⟨-, -, across⟩ := List.pairwise_append.mp ordered.apart
    rcases across stack member (act :: rest) List.mem_cons_self with
      free | own
    · exact free
    · have none := List.filterMap_eq_nil_iff.mp own act List.mem_cons_self
      rw [none] at carries
      cases carries
  · intro other member carries
    rw [← flat] at member ⊢
    obtain ⟨stack, listed, inside⟩ := List.mem_flatten.mp member
    have called := (ordered.followed stack listed).caller inside carries
    exact called.imp
      (fun reads => List.mem_flatten.mpr ⟨stack, listed, reads⟩)
      (fun handles => List.mem_flatten.mpr ⟨stack, listed, handles⟩)
  · rintro ref data binary rfl receives isOpen
    rw [← flat]
    exact meets q receives isOpen

theorem Ordered.step (ordered : Ordered p q trace pool)
    (seated : WellSeated pool)
    (exclusive : Exclusive pool.shared pool.acts)
    (step : relay.Step pool label pool')
    (meets : OvertakesNone pool label) :
    Ordered p q (trace ++ [(pool, label)]) pool' := by
  cases step with
  | spawn threads entry => exact ordered.spawn entry
  | @run shared shared' before after act rest acts oracle next =>
      have stage := ordered.stage seated exclusive meets
      have flat : (⟨shared, before ++ (act :: rest) :: after⟩ :
          Pool State Act).acts =
          before.flatten ++ act :: (rest ++ after.flatten) := by
        simp [Pool.acts]
      have order := ordered.order
      rw [flat] at order exclusive
      have zero := seated.allocated.zero _ le_rfl
      have closed : (shared.peers q).closed = true →
          (shared'.peers q).closed = true :=
        closed_stays next (by rw [zero]; rfl)
      have quiet : Quiet p q (act.forks oracle shared) := forks_quiet
      have moves : Moves p q oracle shared shared' act acts := by
        refine Act.moves (by rw [zero]; rfl) ?_ next
        rintro p' answer rfl
        exact exclusive.answers p' answer (by simp)
      constructor
      · have flat' : (⟨shared', before ++ (acts ++ rest) ::
            (after ++ (act.forks oracle shared).map fun act => [act])⟩ :
            Pool State Act).acts =
            before.flatten ++ (acts ++ ((rest ++ after.flatten) ++
              act.forks oracle shared)) := by
          simp [Pool.acts, ← List.flatMap_def]
        rw [processed_snoc]
        have kept := moves.order order stage closed quiet
        rw [← flat'] at kept
        exact kept
      · have apart := ordered.apart.imp fun {stack stack'} free =>
          free.imp
            (fun none => List.sublist_nil.mp
              (none ▸ lane_sublist (p := p) closed stack))
            (fun none => List.sublist_nil.mp
              (none ▸ lane_sublist (p := p) closed stack'))
        apply pairwise_replace apart
        · intro stack forked
          obtain ⟨act', started, rfl⟩ := List.mem_map.mp forked
          apply lane_eq_nil
          intro other member
          obtain rfl := List.mem_singleton.mp member
          exact quiet.carries other started
        · rcases moves.apart order stage with fits | free
          · left
            intro none
            have split : shared'.lane p q [act] ++ shared'.lane p q rest = [] :=
              (lane_append [act] rest).symm.trans none
            obtain ⟨own, below⟩ := List.append_eq_nil_iff.mp split
            rw [own] at fits
            rw [lane_append, List.sublist_nil.mp fits, below]
            rfl
          · right
            rw [lane_append, lane_append] at free
            obtain ⟨early, -, late⟩ :=
              (List.append_eq_nil_iff.mp free).imp_right
                List.append_eq_nil_iff.mp
            intro stack member
            rcases List.mem_append.mp member with earlier | later
            · exact lane_flatten_eq_nil early earlier
            · exact lane_flatten_eq_nil late later
      · intro stack member
        rcases List.mem_append.mp member with earlier | later
        · exact ordered.followed stack (by simp [earlier])
        · rcases List.mem_cons.mp later with rfl | later
          · exact moves.followed (ordered.followed (act :: rest) (by simp))
          · rcases List.mem_append.mp later with waiting | forked
            · exact ordered.followed stack (by simp [waiting])
            · obtain ⟨act', started, rfl⟩ := List.mem_map.mp forked
              exact Followed.cons_quiet trivial (quiet.carries act' started)

theorem ordered_started {cfg : Limits} {buckets : Config}
    {createPerMin maxBuckets : Int} {start : Pool State Act}
    (started : Started cfg buckets createPerMin maxBuckets start) :
    Ordered p q [] start := by
  rw [started]
  refine ⟨InOrder.start fun ref => rfl, List.Pairwise.nil, ?_⟩
  intro stack member
  cases member

end Steps

/-- Along every run in which no reader overtakes older frames of its own on
their way to the same peer, the frames of a sender that get into a peer's
channel are in the order its reader has processed them. -/
theorem frames_in_order (cfg : Limits) (buckets : Config)
    (createPerMin maxBuckets : Int) {start pool : Pool State Act}
    {trace : List (Pool State Act × PoolLabel Act Oracle)}
    (started : Started cfg buckets createPerMin maxBuckets start)
    (run : ((relay.system
      (Started cfg buckets createPerMin maxBuckets)).restrict
      OvertakesNone).Run start trace pool) (p q : PeerRef) :
    (pool.shared.received p q).Sublist (processed p trace) := by
  have kept : WellSeated pool ∧ Exclusive pool.shared pool.acts ∧
      Ordered p q trace pool := by
    induction run with
    | refl => exact ⟨.started started, exclusive_started started,
        ordered_started started⟩
    | snoc _ taken induction =>
        obtain ⟨seated, exclusive, ordered⟩ := induction
        exact ⟨seated.step taken.1, exclusive.run_step seated taken.1,
          ordered.step seated exclusive taken.1 taken.2⟩
  exact kept.2.2.order.received_sublist

/-- The condition, as a test. -/
private def overtakesNone (step : Pool State Act × PoolLabel Act Oracle) :
    Bool :=
  match step.2 with
  | .run (.readPeer (.otherConn p ref _ _)) _ =>
      (step.1.shared.receiver? p ref).all fun q =>
        (step.1.shared.peers q).closed || step.1.acts.all fun act =>
          (act.carries false p q).isNone &&
            (act.drains q).all fun ref' =>
              (step.1.shared.stored p ref').isEmpty
  | _ => true

private theorem overtakesNone_sound (pool : Pool State Act)
    (label : PoolLabel Act Oracle)
    (tested : overtakesNone (pool, label) = true) :
    OvertakesNone pool label := by
  unfold OvertakesNone
  split
  · intro q found isOpen
    simp only [overtakesNone, found, Option.all_some, isOpen, Bool.false_or,
      List.all_eq_true, Bool.and_eq_true] at tested
    refine ⟨fun act member => Option.isNone_iff_eq_none.mp
      (tested act member).1, ?_⟩
    intro act member ref' drains
    have empty := (tested act member).2
    rw [drains] at empty
    exact List.isEmpty_iff.mp empty
  · trivial

/-- Bob gets the frame that Alice sent while she was alone from the buffer, and
the next one live. -/
theorem frames_in_order_conversation :
    ∃ trace pool, ((relay.system (Started roomLimits roomConfig 10 10)).restrict
        OvertakesNone).Run ⟨New roomLimits roomConfig 10 10, []⟩ trace pool ∧
      pool.shared.received 0 1 = [([1], true), ([2], true)] ∧
      (pool.shared.received 0 1).Sublist (processed 0 trace) := by
  have conversation : (relay.play ⟨New roomLimits roomConfig 10 10, []⟩
      conversationMoves).any (fun played => played.1.all overtakesNone &&
        played.2.shared.received 0 1 = [([1], true), ([2], true)]) = true := by
    decide +kernel
  obtain ⟨⟨trace, pool⟩, played, check⟩ :=
    (Option.any_eq_true _ _).mp conversation
  simp only [Bool.and_eq_true, decide_eq_true_eq] at check
  obtain ⟨tested, received⟩ := check
  have run := played_restrict overtakesNone_sound played rfl tested
  exact ⟨trace, pool, run, received,
    frames_in_order roomLimits roomConfig 10 10 rfl run 0 1⟩

/-- Alice connects and sends a frame while she is alone.  Bob joins, and before
his handler drains the buffer to him, her reader forwards the next frame. -/
private def overtakingMoves : List (Program.Move Act Oracle) :=
  [connects "alice" "192.0.2.1", connects "bob" "192.0.2.2", polls 0 false] ++
    runs 0 14 ++ runs 2 1 ++ runs 4 4 ++ reads 4 [1] ++ runs 4 6 ++
    runs 1 4 ++ reads 4 [2] ++ runs 4 9 ++ runs 1 16

/-- Bob gets the newer frame first. -/
theorem newer_frame_first :
    ∃ trace pool, (relay.system (Started roomLimits roomConfig 10 10)).Run
        ⟨New roomLimits roomConfig 10 10, []⟩ trace pool ∧
      pool.shared.received 0 1 = [([2], true), ([1], true)] ∧
      processed 0 trace = [([1], true), ([2], true)] ∧
      ¬ (pool.shared.received 0 1).Sublist (processed 0 trace) := by
  have inverted : (relay.play ⟨New roomLimits roomConfig 10 10, []⟩
      overtakingMoves).any (fun played =>
        played.2.shared.received 0 1 = [([2], true), ([1], true)] &&
          processed 0 played.1 = [([1], true), ([2], true)]) = true := by
    decide +kernel
  obtain ⟨⟨trace, pool⟩, played, check⟩ :=
    (Option.any_eq_true _ _).mp inverted
  simp only [Bool.and_eq_true, decide_eq_true_eq] at check
  obtain ⟨received, sent⟩ := check
  refine ⟨trace, pool, played_run played rfl, received, sent, ?_⟩
  rw [received, sent]
  decide

end Byteln.Server.Relay

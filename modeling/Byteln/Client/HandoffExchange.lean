import Byteln.Client.HandoffFrames
import Byteln.Library.ThreadPool

/-!
# Handing a room over

One device listens on its channel; others send a room each.  The relay between
them may drop, repeat, reorder and hold back frames, and make up others, but
it does not have the key: what it makes up does not open.

Handlers run up to an `await`; what is awaited may take any time.
-/

namespace Byteln.Client.Exchange

open Byteln.Library

/-- How a call of `sendHandoff` ends. -/
inductive Outcome where
  | resolved
  | rejected (text : String)
deriving DecidableEq

structure State where
  /-- Of the listener. -/
  done : Bool
  /-- Of each sender. -/
  settled : Nat → Option Outcome
  /-- The rooms given to `onRoom`. -/
  given : List HandoffRoom
  /-- All frames sealed on the channel; no code reads it. -/
  frames : List (List UInt8)
  /-- The senders that have sealed their room; no code reads it. -/
  offered : List Nat
  /-- The room with which the listener was done; no code reads it. -/
  accepted : Option HandoffRoom

inductive Act where
  /-- `onBinary` of the listener. -/
  | listenerBinary (data : List UInt8)
  | listenerOpened (data : List UInt8)
  /-- The acknowledgement is sealed. -/
  | ackSealed (room : HandoffRoom)
  /-- `closeAndWait` is over. -/
  | closedAndWaited (room : HandoffRoom)
  | listenerClose
  /-- `onStatus` of a sender, with `open`. -/
  | senderOpen (i : Nat)
  | roomSealed (i : Nat)
  /-- `onBinary` of a sender. -/
  | senderBinary (i : Nat) (data : List UInt8)
  | senderOpened (i : Nat) (data : List UInt8)
  /-- `onStatus` of a sender, with `closed` or `error`. -/
  | senderClosed (i : Nat) (detail : Option String)
  | timeout (i : Nat)

def State.finish (s : State) (i : Nat) (outcome : Outcome) : State :=
  match s.settled i with
  | some _ => s
  | none =>
      { s with settled := fun j => if j = i then some outcome else s.settled j }

def closedText (detail : Option String) : String :=
  if detail = some "bucket full" then
    "This QR code was already used. Refresh it on the other device."
  else "Could not reach the relay."

def timeoutText : String :=
  "The other device did not answer. Is its QR page still open?"

section

variable (ν : Type) [Numeric ν] (aead : Aead) (ch : HandoffChannel)
  (rooms : Nat → HandoffRoom)

/-- The initialization vector is drawn by the oracle. -/
def Act.next (iv : Vector UInt8 12) (act : Act) (s : State) :
    Option (State × List Act) :=
  match act with
  | .listenerBinary data =>
      some (s, if s.done then [] else [.listenerOpened data])
  | .listenerOpened data =>
      match openHandoff ν aead ch data with
      | some (.room room) =>
          if s.done then some (s, [])
          else
            some ({ s with done := true, accepted := some room },
              [.ackSealed room])
      | _ => some (s, [])
  | .ackSealed room =>
      match sealHandoff ν aead ch iv .ack with
      | some data =>
          some ({ s with frames := data :: s.frames },
            [.closedAndWaited room])
      | none => some (s, [])
  | .closedAndWaited room => some ({ s with given := s.given ++ [room] }, [])
  | .listenerClose => some ({ s with done := true }, [])
  | .senderOpen i => some (s, [.roomSealed i])
  | .roomSealed i =>
      match sealHandoff ν aead ch iv (.room (rooms i)) with
      | some data =>
          some ({ s with
              frames := data :: s.frames
              offered := i :: s.offered }, [])
      | none => some (s, [])
  | .senderBinary i data => some (s, [.senderOpened i data])
  | .senderOpened i data =>
      match openHandoff ν aead ch data with
      | some .ack => some (s.finish i .resolved, [])
      | _ => some (s, [])
  | .senderClosed i detail =>
      some (s.finish i (.rejected (closedText detail)), [])
  | .timeout i => some (s.finish i (.rejected timeoutText), [])

/-- Events come in any order. -/
def Act.Entry : Act → Prop
  | .listenerBinary _ | .listenerClose | .senderOpen _ | .senderBinary _ _
  | .senderClosed _ _ | .timeout _ => True
  | _ => False

def handoff : Program State Act (Vector UInt8 12) where
  next := Act.next ν aead ch rooms
  entry := Act.Entry

/-- Nothing has happened on the channel. -/
def Fresh (pool : Pool State Act) : Prop :=
  pool = ⟨⟨false, fun _ => none, [], [], [], none⟩, []⟩

/-- The condition on the steps: what was not sealed on the channel does not
open on it. -/
def Unforged (s : State) (act : Act) (_ : Vector UInt8 12) : Prop :=
  ∀ data, (act = .listenerBinary data ∨ ∃ i, act = .senderBinary i data) →
    data ∉ s.frames → openHandoff ν aead ch data = none

end

/-! ## What is said on the channel -/

section

variable {ν : Type} [Numeric ν] {aead : Aead} {ch : HandoffChannel}
  {rooms : Nat → HandoffRoom} {s s' : State} {act : Act}
  {acts others : List Act} {iv : Vector UInt8 12}

/-- A room of one of the senders that have sealed theirs. -/
def State.Offers (rooms : Nat → HandoffRoom) (s : State)
    (room : HandoffRoom) : Prop :=
  ∃ i ∈ s.offered, (rooms i).Valid ∧ room = (rooms i).shared

/-- A message that may be read on the channel. -/
def State.Means (rooms : Nat → HandoffRoom) (s : State) :
    HandoffMessage → Prop
  | .room room => s.Offers rooms room
  | .ack => s.accepted ≠ none

/-- The room that an activation carries on to the page. -/
def Act.carries : Act → Option HandoffRoom
  | .ackSealed room | .closedAndWaited room => some room
  | _ => none

/-- The data that is being opened. -/
def Act.opens : Act → Option (List UInt8)
  | .listenerOpened data | .senderOpened _ data => some data
  | _ => none

/-- What is sealed and what is opened is said by the devices. -/
structure Honest (ν : Type) [Numeric ν] (aead : Aead) (ch : HandoffChannel)
    (rooms : Nat → HandoffRoom) (s : State) (acts : List Act) : Prop where
  frames : ∀ data ∈ s.frames, ∀ msg, openHandoff ν aead ch data = some msg →
    s.Means rooms msg
  opened : ∀ act ∈ acts, ∀ data ∈ act.opens, ∀ msg,
    openHandoff ν aead ch data = some msg → s.Means rooms msg

/-- One room is accepted at most; it is carried to the page once, and it is
what resolves a call. -/
structure Once (rooms : Nat → HandoffRoom) (s : State) (acts : List Act) :
    Prop where
  undone : s.done = false → s.accepted = none
  accepted : ∀ room ∈ s.accepted, s.Offers rooms room
  carried : ∀ act ∈ acts, ∀ room ∈ act.carries, s.accepted = some room
  given : ∀ room ∈ s.given, s.accepted = some room
  counted : s.given.length + acts.countP (fun act => act.carries.isSome) =
    if s.accepted.isSome then 1 else 0
  resolved : ∀ i, s.settled i = some .resolved → s.accepted ≠ none

/-- A step that leaves what was said. -/
structure Keeps (s s' : State) : Prop where
  offered : ∀ i ∈ s.offered, i ∈ s'.offered
  accepted : ∀ room, s.accepted = some room → s'.accepted = some room

theorem Keeps.refl (s : State) : Keeps s s :=
  ⟨fun _ member => member, fun _ accepted => accepted⟩

theorem Keeps.means (keeps : Keeps s s') {msg : HandoffMessage}
    (means : s.Means rooms msg) : s'.Means rooms msg := by
  cases msg with
  | room room =>
      obtain ⟨i, offered, valid, same⟩ := means
      exact ⟨i, keeps.offered i offered, valid, same⟩
  | ack =>
      intro none
      cases accepted : s.accepted with
      | none => exact means accepted
      | some room =>
          rw [keeps.accepted room accepted] at none
          cases none

theorem finish_settled {i j : Nat} {outcome final : Outcome}
    (before : s.settled j = some final) :
    (s.finish i outcome).settled j = some final := by
  unfold State.finish
  cases settled : s.settled i with
  | some _ => exact before
  | none =>
      have other : j ≠ i := by
        rintro rfl
        rw [settled] at before
        cases before
      simp only [if_neg other]
      exact before

theorem finish_settled_inv {i j : Nat} {outcome final : Outcome}
    (after : (s.finish i outcome).settled j = some final) :
    s.settled j = some final ∨ final = outcome := by
  unfold State.finish at after
  cases settled : s.settled i with
  | some _ =>
      rw [settled] at after
      exact .inl after
  | none =>
      rw [settled] at after
      dsimp only at after
      split at after
      · exact .inr (Option.some.inj after).symm
      · exact .inl after

/-- Only the outcome of the sender is different. -/
theorem finish_eq (s : State) (i : Nat) (outcome : Outcome) :
    s.finish i outcome =
      { s with settled := (s.finish i outcome).settled } := by
  unfold State.finish
  cases s.settled i <;> rfl

/-! ## One step -/

theorem Honest.carried (honest : Honest ν aead ch rooms s (act :: others))
    (keeps : Keeps s s')
    (frames : ∀ data ∈ s'.frames, data ∈ s.frames ∨
      ∀ msg, openHandoff ν aead ch data = some msg → s'.Means rooms msg)
    (opened : ∀ act' ∈ acts, ∀ data ∈ act'.opens,
      data ∈ s.frames ∨ openHandoff ν aead ch data = none) :
    Honest ν aead ch rooms s' (acts ++ others) where
  frames data member msg read := by
    rcases frames data member with old | means
    · exact keeps.means (honest.frames data old msg read)
    · exact means msg read
  opened act' member data opens msg read := by
    rcases List.mem_append.mp member with new | old
    · rcases opened act' new data opens with sealed | refused
      · exact keeps.means (honest.frames data sealed msg read)
      · rw [refused] at read
        cases read
    · exact keeps.means
        (honest.opened act' (List.mem_cons_of_mem _ old) data opens msg read)

/-- A step that seals nothing and opens nothing. -/
theorem Honest.silent (honest : Honest ν aead ch rooms s (act :: others))
    (keeps : Keeps s s') (frames : s'.frames = s.frames)
    (opened : ∀ act' ∈ acts, act'.opens = none) :
    Honest ν aead ch rooms s' (acts ++ others) := by
  apply honest.carried keeps
  · intro data member
    exact .inl (frames ▸ member)
  · intro act' member data opens
    rw [opened act' member] at opens
    cases opens

/-- What a sealed frame means, on the channel it was sealed on. -/
theorem means_of_sealed (ideal : aead.Ideal) (ready : ch.Ready)
    {msg : HandoffMessage} {data : List UInt8}
    (sealed : sealHandoff ν aead ch iv msg = some data)
    {msg' : HandoffMessage}
    (read : openHandoff ν aead ch data = some msg') :
    msg.received = some msg' := by
  obtain ⟨data', sealed', opens⟩ :=
    openHandoff_sealHandoff ν ideal ready ready iv msg
  obtain rfl := Option.some.inj (sealed.symm.trans sealed')
  rw [opens, if_pos ⟨rfl, rfl⟩] at read
  exact read

theorem Honest.step (ideal : aead.Ideal) (ready : ch.Ready)
    (honest : Honest ν aead ch rooms s (act :: others))
    (once : Once rooms s (act :: others))
    (next : act.next ν aead ch rooms iv s = some (s', acts))
    (unforged : Unforged ν aead ch s act iv) :
    Honest ν aead ch rooms s' (acts ++ others) := by
  cases act with
  | listenerBinary data =>
      obtain ⟨rfl, rfl⟩ := Prod.mk.inj (Option.some.inj next)
      apply honest.carried (Keeps.refl _) fun data member => .inl member
      intro act' member data' opens
      split at member
      · cases member
      · obtain rfl := List.mem_singleton.mp member
        obtain rfl := Option.some.inj opens
        by_cases sealed : data ∈ s.frames
        · exact .inl sealed
        · exact .inr (unforged data (.inl rfl) sealed)
  | listenerOpened data =>
      simp only [Act.next] at next
      split at next
      · rename_i room read
        split at next
        · obtain ⟨rfl, rfl⟩ := Prod.mk.inj (Option.some.inj next)
          exact honest.silent (Keeps.refl _) rfl (by simp)
        · rename_i undone
          obtain ⟨rfl, rfl⟩ := Prod.mk.inj (Option.some.inj next)
          refine honest.silent ⟨fun _ member => member, ?_⟩ rfl
            (by simp [Act.opens])
          intro room' accepted
          rw [once.undone (Bool.eq_false_iff.mpr undone)] at accepted
          cases accepted
      · obtain ⟨rfl, rfl⟩ := Prod.mk.inj (Option.some.inj next)
        exact honest.silent (Keeps.refl _) rfl (by simp)
  | ackSealed room =>
      simp only [Act.next] at next
      split at next
      · rename_i data sealed
        obtain ⟨rfl, rfl⟩ := Prod.mk.inj (Option.some.inj next)
        refine honest.carried ⟨fun _ => id, fun _ => id⟩ ?_ ?_
        · intro data' member
          rcases List.mem_cons.mp member with rfl | old
          · refine .inr fun msg read => ?_
            obtain rfl := Option.some.inj
              (means_of_sealed ideal ready sealed read)
            show s.accepted ≠ none
            rw [once.carried _ List.mem_cons_self room rfl]
            exact Option.some_ne_none room
          · exact .inl old
        · intro act' member data' opens
          obtain rfl := List.mem_singleton.mp member
          cases opens
      · obtain ⟨rfl, rfl⟩ := Prod.mk.inj (Option.some.inj next)
        exact honest.silent (Keeps.refl _) rfl (by simp)
  | closedAndWaited room =>
      obtain ⟨rfl, rfl⟩ := Prod.mk.inj (Option.some.inj next)
      exact honest.silent ⟨fun _ => id, fun _ => id⟩ rfl (by simp)
  | listenerClose =>
      obtain ⟨rfl, rfl⟩ := Prod.mk.inj (Option.some.inj next)
      exact honest.silent ⟨fun _ => id, fun _ => id⟩ rfl (by simp)
  | senderOpen i =>
      obtain ⟨rfl, rfl⟩ := Prod.mk.inj (Option.some.inj next)
      exact honest.silent (Keeps.refl _) rfl (by simp [Act.opens])
  | roomSealed i =>
      simp only [Act.next] at next
      split at next
      · rename_i data sealed
        obtain ⟨rfl, rfl⟩ := Prod.mk.inj (Option.some.inj next)
        refine honest.carried
          ⟨fun _ member => List.mem_cons_of_mem _ member, fun _ => id⟩ ?_ ?_
        · intro data' member
          rcases List.mem_cons.mp member with rfl | old
          · refine .inr fun msg read => ?_
            have received := means_of_sealed ideal ready sealed read
            cases msg with
            | room room =>
                obtain ⟨valid, same⟩ := received_room.mp received
                exact ⟨i, List.mem_cons_self, valid, same⟩
            | ack =>
                change (if _ then _ else _) = _ at received
                split at received
                · cases received
                · cases received
          · exact .inl old
        · intro act' member
          cases member
      · obtain ⟨rfl, rfl⟩ := Prod.mk.inj (Option.some.inj next)
        exact honest.silent (Keeps.refl _) rfl (by simp)
  | senderBinary i data =>
      obtain ⟨rfl, rfl⟩ := Prod.mk.inj (Option.some.inj next)
      apply honest.carried (Keeps.refl _) fun data member => .inl member
      intro act' member data' opens
      obtain rfl := List.mem_singleton.mp member
      obtain rfl := Option.some.inj opens
      by_cases sealed : data ∈ s.frames
      · exact .inl sealed
      · exact .inr (unforged data (.inr ⟨i, rfl⟩) sealed)
  | senderOpened i data =>
      simp only [Act.next] at next
      split at next
      · obtain ⟨rfl, rfl⟩ := Prod.mk.inj (Option.some.inj next)
        rw [finish_eq]
        exact honest.silent ⟨fun _ => id, fun _ => id⟩ rfl (by simp)
      · obtain ⟨rfl, rfl⟩ := Prod.mk.inj (Option.some.inj next)
        exact honest.silent (Keeps.refl _) rfl (by simp)
  | senderClosed i detail | timeout i =>
      obtain ⟨rfl, rfl⟩ := Prod.mk.inj (Option.some.inj next)
      rw [finish_eq]
      exact honest.silent ⟨fun _ => id, fun _ => id⟩ rfl (by simp)

/-- A step that neither accepts a room nor carries one. -/
theorem Once.still (once : Once rooms s (act :: others))
    (carries : act.carries = none)
    (carried : ∀ act' ∈ acts, act'.carries = none)
    (done : s.done = true → s'.done = true)
    (offered : ∀ i ∈ s.offered, i ∈ s'.offered)
    (accepted : s'.accepted = s.accepted) (given : s'.given = s.given)
    (resolved : ∀ i, s'.settled i = some .resolved →
      s.settled i = some .resolved ∨ s.accepted ≠ none) :
    Once rooms s' (acts ++ others) where
  undone undone := by
    rw [accepted]
    apply once.undone
    cases before : s.done with
    | false => rfl
    | true =>
        rw [done before] at undone
        cases undone
  accepted room member := by
    rw [accepted] at member
    obtain ⟨i, sealed, valid, same⟩ := once.accepted room member
    exact ⟨i, offered i sealed, valid, same⟩
  carried act' member room carries := by
    rw [accepted]
    rcases List.mem_append.mp member with new | old
    · rw [carried act' new] at carries
      cases carries
    · exact once.carried act' (List.mem_cons_of_mem _ old) room carries
  given room member := by
    rw [accepted]
    exact once.given room (given ▸ member)
  counted := by
    have none : acts.countP (fun act => act.carries.isSome) = 0 := by
      apply List.countP_eq_zero.mpr
      intro act' member some_
      rw [carried act' member] at some_
      cases some_
    have counted := once.counted
    rw [List.countP_cons_of_neg (by simp [carries])] at counted
    rw [accepted, given, List.countP_append, none, Nat.zero_add]
    exact counted
  resolved i settled := by
    rw [accepted]
    rcases resolved i settled with before | accepted
    · exact once.resolved i before
    · exact accepted

/-- The listener is done with a room. -/
theorem Once.accept {data : List UInt8} {room : HandoffRoom}
    (once : Once rooms s (.listenerOpened data :: others))
    (undone : ¬ s.done = true) (offers : s.Offers rooms room) :
    Once rooms { s with done := true, accepted := some room }
      ([.ackSealed room] ++ others) := by
  have free := once.undone (Bool.eq_false_iff.mpr undone)
  have counted := once.counted
  rw [free, List.countP_cons_of_neg (by simp [Act.carries])] at counted
  obtain ⟨none, idle⟩ := Nat.add_eq_zero_iff.mp counted
  refine ⟨?_, ?_, ?_, ?_, ?_, ?_⟩
  · intro false
    cases false
  · intro room' member
    obtain rfl := Option.some.inj member
    exact offers
  · intro act' member room' carries
    rcases List.mem_append.mp member with new | old
    · obtain rfl := List.mem_singleton.mp new
      exact carries
    · have quiet := List.countP_eq_zero.mp idle act' old
      rw [Option.mem_def.mp carries] at quiet
      exact absurd rfl quiet
  · intro room' member
    rw [List.eq_nil_of_length_eq_zero none] at member
    cases member
  · rw [List.countP_append, idle, none]
    rfl
  · intro i settled
    exact absurd free (once.resolved i settled)

/-- The room is carried one activation further. -/
theorem Once.carry {room : HandoffRoom} {frames : List (List UInt8)}
    (once : Once rooms s (.ackSealed room :: others)) :
    Once rooms { s with frames := frames }
      ([.closedAndWaited room] ++ others) := by
  refine ⟨once.undone, once.accepted, ?_, once.given, ?_, once.resolved⟩
  · intro act' member room' carries
    rcases List.mem_append.mp member with new | old
    · obtain rfl := List.mem_singleton.mp new
      exact once.carried _ List.mem_cons_self room' carries
    · exact once.carried act' (List.mem_cons_of_mem _ old) room' carries
  · exact once.counted

/-- The room reaches the page. -/
theorem Once.give {room : HandoffRoom}
    (once : Once rooms s (.closedAndWaited room :: others)) :
    Once rooms { s with given := s.given ++ [room] } ([] ++ others) := by
  refine ⟨once.undone, once.accepted, ?_, ?_, ?_, once.resolved⟩
  · intro act' member room' carries
    exact once.carried act' (List.mem_cons_of_mem _ member) room' carries
  · intro room' member
    rcases List.mem_append.mp member with old | new
    · exact once.given room' old
    · obtain rfl := List.mem_singleton.mp new
      exact once.carried _ List.mem_cons_self room' rfl
  · have counted := once.counted
    rw [List.countP_cons_of_pos rfl] at counted
    rw [List.length_append, List.nil_append, List.length_singleton,
      Nat.add_assoc, Nat.add_comm 1]
    exact counted

theorem Once.step (ideal : aead.Ideal) (ready : ch.Ready)
    (honest : Honest ν aead ch rooms s (act :: others))
    (once : Once rooms s (act :: others))
    (next : act.next ν aead ch rooms iv s = some (s', acts)) :
    Once rooms s' (acts ++ others) := by
  cases act with
  | listenerBinary data =>
      obtain ⟨rfl, rfl⟩ := Prod.mk.inj (Option.some.inj next)
      refine once.still rfl ?_ id (fun _ => id) rfl rfl fun _ => .inl
      intro act' member
      split at member
      · cases member
      · obtain rfl := List.mem_singleton.mp member
        rfl
  | listenerOpened data =>
      simp only [Act.next] at next
      split at next
      · rename_i room read
        split at next
        · obtain ⟨rfl, rfl⟩ := Prod.mk.inj (Option.some.inj next)
          exact once.still rfl (by simp) id (fun _ => id) rfl rfl fun _ => .inl
        · rename_i undone
          obtain ⟨rfl, rfl⟩ := Prod.mk.inj (Option.some.inj next)
          exact once.accept undone
            (honest.opened _ List.mem_cons_self data rfl _ read)
      · obtain ⟨rfl, rfl⟩ := Prod.mk.inj (Option.some.inj next)
        exact once.still rfl (by simp) id (fun _ => id) rfl rfl fun _ => .inl
  | ackSealed room =>
      obtain ⟨data, sealed, -⟩ :=
        openHandoff_sealHandoff ν ideal ready ready iv .ack
      simp only [Act.next, sealed] at next
      obtain ⟨rfl, rfl⟩ := Prod.mk.inj (Option.some.inj next)
      exact once.carry
  | closedAndWaited room =>
      obtain ⟨rfl, rfl⟩ := Prod.mk.inj (Option.some.inj next)
      exact once.give
  | listenerClose =>
      obtain ⟨rfl, rfl⟩ := Prod.mk.inj (Option.some.inj next)
      exact once.still rfl (by simp) (fun _ => rfl) (fun _ => id) rfl rfl
        fun _ => .inl
  | senderOpen i =>
      obtain ⟨rfl, rfl⟩ := Prod.mk.inj (Option.some.inj next)
      exact once.still rfl (by simp [Act.carries]) id (fun _ => id) rfl rfl
        fun _ => .inl
  | roomSealed i =>
      simp only [Act.next] at next
      split at next
      · obtain ⟨rfl, rfl⟩ := Prod.mk.inj (Option.some.inj next)
        exact once.still rfl (by simp) id
          (fun _ member => List.mem_cons_of_mem _ member) rfl rfl fun _ => .inl
      · obtain ⟨rfl, rfl⟩ := Prod.mk.inj (Option.some.inj next)
        exact once.still rfl (by simp) id (fun _ => id) rfl rfl fun _ => .inl
  | senderBinary i data =>
      obtain ⟨rfl, rfl⟩ := Prod.mk.inj (Option.some.inj next)
      exact once.still rfl (by simp [Act.carries]) id (fun _ => id) rfl rfl
        fun _ => .inl
  | senderOpened i data =>
      simp only [Act.next] at next
      split at next
      · rename_i read
        obtain ⟨rfl, rfl⟩ := Prod.mk.inj (Option.some.inj next)
        rw [finish_eq]
        exact once.still rfl (by simp) id (fun _ => id) rfl rfl fun _ _ =>
          .inr (honest.opened _ List.mem_cons_self data rfl _ read)
      · obtain ⟨rfl, rfl⟩ := Prod.mk.inj (Option.some.inj next)
        exact once.still rfl (by simp) id (fun _ => id) rfl rfl fun _ => .inl
  | senderClosed i detail | timeout i =>
      obtain ⟨rfl, rfl⟩ := Prod.mk.inj (Option.some.inj next)
      rw [finish_eq]
      refine once.still rfl (by simp) id (fun _ => id) rfl rfl ?_
      intro j settled
      rcases finish_settled_inv settled with before | failed
      · exact .inl before
      · cases failed

/-- What the page has been given is what was accepted, if anything. -/
theorem Once.given_toList (once : Once rooms s acts) :
    s.given <+: s.accepted.toList := by
  have counted := once.counted
  have same := once.given
  cases accepted : s.accepted with
  | none =>
      rw [accepted] at counted
      have none := (Nat.add_eq_zero_iff.mp counted).1
      rw [List.eq_nil_of_length_eq_zero none]
      exact List.nil_prefix
  | some room =>
      rw [accepted] at counted same
      have short : s.given.length ≤ 1 :=
        (Nat.le_add_right _ _).trans counted.le
      cases given : s.given with
      | nil => exact List.nil_prefix
      | cons room' rest =>
          rw [given] at short same
          obtain rfl := List.eq_nil_of_length_eq_zero
            (Nat.le_zero.mp (Nat.le_of_succ_le_succ short))
          obtain rfl := Option.some.inj (same room' List.mem_cons_self)
          exact List.prefix_refl _

/-! ## Every run -/

theorem honest_once_of_reachable (ideal : aead.Ideal) (ready : ch.Ready)
    {pool : Pool State Act}
    (reachable : (((handoff ν aead ch rooms).system Fresh).restrict
      (Program.OnRun (Unforged ν aead ch))).Reachable pool) :
    Honest ν aead ch rooms pool.shared pool.acts ∧
      Once rooms pool.shared pool.acts := by
  apply Program.invariant (fun s acts => Honest ν aead ch rooms s acts ∧
    Once rooms s acts) ?_ ?_ ?_ ?_ reachable
  · intro s acts acts' perm both
    obtain ⟨honest, once⟩ := both
    refine ⟨⟨honest.frames, ?_⟩, once.undone, once.accepted, ?_, once.given,
      ?_, once.resolved⟩
    · intro act member
      exact honest.opened act (perm.mem_iff.mpr member)
    · intro act member
      exact once.carried act (perm.mem_iff.mpr member)
    · rw [← perm.countP_eq]
      exact once.counted
  · intro pool fresh
    obtain rfl := fresh
    refine ⟨⟨?_, ?_⟩, ?_, ?_, ?_, ?_, ?_, ?_⟩ <;> simp [Pool.acts]
  · intro s acts act entry both
    obtain ⟨honest, once⟩ := both
    have calm : act.opens = none ∧ act.carries = none := by
      cases act <;> first | exact ⟨rfl, rfl⟩ | cases entry
    refine ⟨⟨honest.frames, ?_⟩, once.undone, once.accepted, ?_, once.given,
      ?_, once.resolved⟩
    · intro act' member data opens
      rcases List.mem_cons.mp member with rfl | old
      · rw [calm.1] at opens
        cases opens
      · exact honest.opened act' old data opens
    · intro act' member room carries
      rcases List.mem_cons.mp member with rfl | old
      · rw [calm.2] at carries
        cases carries
      · exact once.carried act' old room carries
    · rw [List.countP_cons_of_neg (by simp [calm.2])]
      exact once.counted
  · intro s s' act acts others iv both next unforged
    exact ⟨both.1.step ideal ready both.2 next unforged,
      both.2.step ideal ready both.1 next⟩

/-- A step leaves what is decided. -/
structure Final (s s' : State) : Prop where
  settled : ∀ i outcome, s.settled i = some outcome →
    s'.settled i = some outcome
  given : s.given <+: s'.given
  done : s.done = true → s'.done = true ∧ s'.accepted = s.accepted

theorem Final.refl (s : State) : Final s s :=
  ⟨fun _ _ => id, List.prefix_refl _, fun done => ⟨done, rfl⟩⟩

theorem Final.trans {s'' : State} (first : Final s s')
    (later : Final s' s'') : Final s s'' where
  settled i outcome settled :=
    later.settled i outcome (first.settled i outcome settled)
  given := first.given.trans later.given
  done done := by
    obtain ⟨done', accepted⟩ := first.done done
    obtain ⟨done'', accepted'⟩ := later.done done'
    exact ⟨done'', accepted'.trans accepted⟩

theorem Final.finish (s : State) (i : Nat) (outcome : Outcome) :
    Final s (s.finish i outcome) := by
  refine ⟨fun j final => finish_settled, ?_, ?_⟩
  · rw [finish_eq]
  · intro done
    rw [finish_eq]
    exact ⟨done, rfl⟩

theorem Final.step (next : act.next ν aead ch rooms iv s = some (s', acts)) :
    Final s s' := by
  cases act with
  | listenerBinary data | senderOpen i | senderBinary i data =>
      obtain ⟨rfl, -⟩ := Prod.mk.inj (Option.some.inj next)
      exact .refl s
  | listenerOpened data =>
      simp only [Act.next] at next
      split at next
      · split at next
        · obtain ⟨rfl, -⟩ := Prod.mk.inj (Option.some.inj next)
          exact .refl s
        · rename_i undone
          obtain ⟨rfl, -⟩ := Prod.mk.inj (Option.some.inj next)
          exact ⟨fun _ _ => id, List.prefix_refl _,
            fun done => absurd done undone⟩
      · obtain ⟨rfl, -⟩ := Prod.mk.inj (Option.some.inj next)
        exact .refl s
  | ackSealed room | roomSealed i =>
      simp only [Act.next] at next
      split at next <;>
      · obtain ⟨rfl, -⟩ := Prod.mk.inj (Option.some.inj next)
        exact ⟨fun _ _ => id, List.prefix_refl _, fun done => ⟨done, rfl⟩⟩
  | closedAndWaited room =>
      obtain ⟨rfl, -⟩ := Prod.mk.inj (Option.some.inj next)
      exact ⟨fun _ _ => id, List.prefix_append _ _, fun done => ⟨done, rfl⟩⟩
  | listenerClose =>
      obtain ⟨rfl, -⟩ := Prod.mk.inj (Option.some.inj next)
      exact ⟨fun _ _ => id, List.prefix_refl _, fun _ => ⟨rfl, rfl⟩⟩
  | senderOpened i data =>
      simp only [Act.next] at next
      split at next
      · obtain ⟨rfl, -⟩ := Prod.mk.inj (Option.some.inj next)
        exact .finish s i _
      · obtain ⟨rfl, -⟩ := Prod.mk.inj (Option.some.inj next)
        exact .refl s
  | senderClosed i detail | timeout i =>
      obtain ⟨rfl, -⟩ := Prod.mk.inj (Option.some.inj next)
      exact .finish s i _

theorem Final.run {condition : Pool State Act →
      PoolLabel Act (Vector UInt8 12) → Prop} {pool pool' : Pool State Act}
    {trace : List (Pool State Act × PoolLabel Act (Vector UInt8 12))}
    (run : (((handoff ν aead ch rooms).system Fresh).restrict condition).Run
      pool trace pool') : Final pool.shared pool'.shared := by
  induction run with
  | refl => exact .refl _
  | @snoc middle finish trace label earlier taken induction =>
      apply induction.trans
      cases label with
      | spawn act =>
          obtain ⟨-, same, -⟩ := Program.Step.spawn_inv taken.1
          rw [same]
          exact .refl _
      | run act iv =>
          obtain ⟨acts, others, next, -, -⟩ := Program.Step.run_inv taken.1
          exact .step next

end

variable (ν : Type) [Numeric ν]

/-- In every run of a handoff, with a relay that cannot forge: the page is
given one room at most, and it is given the room that was accepted once all
handlers are through; this is a room that a sender has sealed and that can be
joined, without the host's seat.  A call of a sender resolves only if a room
was accepted, its own one if it is the only sender.  A call that has settled
stays so, and a listener that is closed without a room gives none later. -/
theorem handoff_gives {aead : Aead} (ideal : aead.Ideal)
    {ch : HandoffChannel} (ready : ch.Ready) {rooms : Nat → HandoffRoom}
    {pool : Pool State Act}
    (reachable : (((handoff ν aead ch rooms).system Fresh).restrict
      (Program.OnRun (Unforged ν aead ch))).Reachable pool) :
    pool.shared.given <+: pool.shared.accepted.toList ∧
      (pool.acts = [] →
        pool.shared.given = pool.shared.accepted.toList) ∧
      (∀ room ∈ pool.shared.accepted, ∃ i ∈ pool.shared.offered,
        (rooms i).Valid ∧ room = (rooms i).shared) ∧
      (∀ i, pool.shared.settled i = some .resolved →
        pool.shared.accepted ≠ none ∧
          ((∀ j ∈ pool.shared.offered, j = i) →
            pool.shared.accepted = some (rooms i).shared)) ∧
      ∀ trace pool', (((handoff ν aead ch rooms).system Fresh).restrict
          (Program.OnRun (Unforged ν aead ch))).Run pool trace pool' →
        (∀ i outcome, pool.shared.settled i = some outcome →
          pool'.shared.settled i = some outcome) ∧
        (pool.shared.done = true → pool.shared.accepted = none →
          pool'.shared.given = []) := by
  obtain ⟨-, once⟩ := honest_once_of_reachable ideal ready reachable
  refine ⟨?_, ?_, once.accepted, ?_, ?_⟩
  · exact once.given_toList
  · intro idle
    have counted := once.counted
    rw [idle, List.countP_nil, Nat.add_zero] at counted
    apply once.given_toList.eq_of_length
    cases accepted : pool.shared.accepted with
    | none | some room =>
        rw [accepted] at counted
        exact counted
  · intro i settled
    have taken := once.resolved i settled
    refine ⟨taken, fun only => ?_⟩
    obtain ⟨room, accepted⟩ := Option.ne_none_iff_exists'.mp taken
    obtain ⟨j, offered, -, rfl⟩ := once.accepted room accepted
    rw [accepted, only j offered]
  · intro trace pool' run
    have final := Final.run run
    refine ⟨final.settled, ?_⟩
    intro done none
    obtain ⟨-, later⟩ := honest_once_of_reachable ideal ready
      (reachable.run run)
    have same := later.given_toList
    rw [(final.done done).2, none] at same
    exact List.prefix_nil.mp same

/-! ## One handoff -/

private def channel : HandoffChannel :=
  createHandoffChannel 0 7 (js "wss://byteln.com")

private def vector : Vector UInt8 12 :=
  Vector.replicate 12 0

private def frame (msg : HandoffMessage) : List UInt8 :=
  (sealHandoff Int Aead.plain channel vector msg).getD []

/-- The room is sent, read and acknowledged, and the acknowledgement is read;
then the relay repeats the room. -/
private def hostMoves : List (Program.Move Act (Vector UInt8 12)) :=
  [.spawn (.senderOpen 0), .run 0 vector, .run 0 vector,
    .spawn (.listenerBinary (frame (.room hostRoom))), .run 1 vector,
    .run 1 vector, .run 1 vector, .spawn (.senderBinary 0 (frame .ack)),
    .run 2 vector, .run 2 vector, .run 1 vector,
    .spawn (.listenerBinary (frame (.room hostRoom))), .run 3 vector]

/-- What is received has been sealed. -/
private def relays :
    Pool State Act × PoolLabel Act (Vector UInt8 12) → Bool
  | (pool, .run (.listenerBinary data) _)
  | (pool, .run (.senderBinary _ data) _) => data ∈ pool.shared.frames
  | _ => true

private theorem unforged_of_relays
    {entry : Pool State Act × PoolLabel Act (Vector UInt8 12)}
    (check : relays entry = true) :
    Program.OnRun (Unforged Int Aead.plain channel) entry.1 entry.2 := by
  obtain ⟨pool, label⟩ := entry
  cases label with
  | spawn act => trivial
  | run act iv =>
      intro data received unknown
      rcases received with rfl | ⟨i, rfl⟩
      · exact absurd (of_decide_eq_true check) unknown
      · exact absurd (of_decide_eq_true check) unknown

/-- The page is given the room, once. -/
theorem handoff_gives_host :
    ∃ pool : Pool State Act, pool.shared.settled 0 = some .resolved ∧
      pool.shared.given = [hostRoom.shared] := by
  have played : ((handoff Int Aead.plain channel fun _ => hostRoom).play
      ⟨⟨false, fun _ => none, [], [], [], none⟩, []⟩ hostMoves).any
      (fun ran => ran.1.all relays && ran.2.acts.isEmpty &&
        ran.2.shared.settled 0 == some .resolved &&
        ran.2.shared.offered == [0]) = true := by
    decide +kernel
  obtain ⟨⟨trace, pool⟩, played, check⟩ := (Option.any_eq_true _ _).mp played
  simp only [Bool.and_eq_true, beq_iff_eq, List.isEmpty_iff] at check
  obtain ⟨⟨⟨checked, idle⟩, settled⟩, offered⟩ := check
  have run : ((handoff Int Aead.plain channel fun _ => hostRoom).system
      Fresh).Run ⟨⟨false, fun _ => none, [], [], [], none⟩, []⟩ trace
      pool := by
    refine Program.play_run ?_ played
    intro act member
    simp only [hostMoves, List.mem_cons, List.not_mem_nil, or_false,
      Program.Move.spawn.injEq, reduceCtorEq, false_or, or_self] at member
    rcases member with rfl | rfl | rfl | rfl <;> trivial
  have meets : Lts.AllMeet
      (Program.OnRun (Unforged Int Aead.plain channel)) trace :=
    fun entry member =>
      unforged_of_relays (List.all_eq_true.mp checked entry member)
  obtain ⟨-, whole, -, resolved, -⟩ := handoff_gives Int Aead.ideal_plain
    (ready_createHandoffChannel 0 7 (js "wss://byteln.com"))
    ⟨_, trace, rfl, Lts.run_restrict_iff.mpr ⟨run, meets⟩⟩
  refine ⟨pool, settled, ?_⟩
  rw [whole idle, (resolved 0 settled).2 fun j member => by
    rw [offered] at member
    exact List.mem_singleton.mp member]
  rfl

end Byteln.Client.Exchange

import Byteln.Client.Assembly
import Byteln.Client.IncomingSteps
import Byteln.Client.PlaintextRoundTrip

/-!
# The parts of incoming transfers

Chunks that the reader of messages has let through are stored where they
belong: the parts of a transfer fit its header, their counter is right, and
the buffer a complete transfer is copied to is filled to its end.
-/

namespace Byteln.Client

open Byteln.Library

variable {ν : Type} [Numeric ν]

/-! ## Chunks from the wire -/

/-- The engine keeps the numbers of a header as clock readings. -/
def TransferHeader.stamp (clock : ν → Time) (h : TransferHeader ν) :
    TransferHeader Time where
  kind := h.kind
  ts := clock h.ts
  mime := h.mime
  size := h.size
  sha256 := h.sha256
  name := h.name
  w := h.w.map clock
  h := h.h.map clock
  replyTo := h.replyTo

def TransferChunkPlainMessage.stamp (clock : ν → Time)
    (c : TransferChunkPlainMessage ν) : TransferChunkPlainMessage Time where
  id := c.id
  index := c.index
  total := c.total
  header := c.header.stamp clock
  data := c.data

/-- Every chunk the engine is given has been read from some bytes. -/
def FromWire (nfc : JSString → JSString) (clock : ν → Time)
    (label : Event × Env) : Prop :=
  ∀ bucketId c, label.1 = .handleChunk bucketId c →
    ∃ pt c', decodePlaintext nfc pt = .ok (.xferChunk c') ∧
      c = c'.stamp clock

theorem FromWire.accepted {nfc : JSString → JSString} {clock : ν → Time}
    {label : Event × Env} (wire : FromWire nfc clock label)
    {bucketId : JSString} {c : TransferChunkPlainMessage Time}
    (given : label.1 = .handleChunk bucketId c) : c.Accepted := by
  obtain ⟨pt, c', decoded, rfl⟩ := wire bucketId c given
  obtain ⟨size, total, index, length⟩ := accepted_of_decodePlaintext decoded
  exact ⟨size, total, index, length⟩

/-! ## Lengths -/

theorem sum_transferChunkLength (size count : Nat) :
    ((List.range count).map (transferChunkLength size)).sum =
      min size (count * TRANSFER_CHUNK_BYTES) := by
  induction count with
  | zero => simp
  | succ count induction =>
      rw [List.range_succ, List.map_append, List.sum_append, induction,
        Nat.succ_mul]
      simp only [List.map_cons, List.map_nil, List.sum_singleton,
        transferChunkLength]
      omega

/-! ## The invariant -/

/-- The parts of a transfer fit its header, and their counter is right. -/
structure Incoming.Counted (i : Incoming) : Prop where
  size : i.header.size ≤ MAX_TRANSFER_BYTES
  total : i.total = transferChunkCount i.header.size
  length : i.parts.length = i.total
  received : i.received = i.parts.countP Option.isSome
  fits : ∀ (index : Nat) part, i.parts[index]? = some (some part) →
    part.length = transferChunkLength i.header.size index
  whole : i.completing = true → i.received = i.total

namespace Incoming.Counted

variable {i i' : Incoming}

theorem calm (counted : i.Counted) (calm : i.Calm i') : i'.Counted where
  size := by
    rw [calm.same.header]
    exact counted.size
  total := by
    rw [calm.same.total, calm.same.header]
    exact counted.total
  length := by
    rw [calm.parts, calm.same.total]
    exact counted.length
  received := by
    rw [calm.received, calm.parts]
    exact counted.received
  fits := by
    rw [calm.parts, calm.same.header]
    exact counted.fits
  whole := by
    rw [calm.completing, calm.received, calm.same.total]
    exact counted.whole

theorem cleared (counted : i.Counted) (cleared : i.Cleared i') :
    i'.Counted where
  size := by
    rw [cleared.same.header]
    exact counted.size
  total := by
    rw [cleared.same.total, cleared.same.header]
    exact counted.total
  length := by
    rw [cleared.parts, cleared.same.total, List.length_map]
    exact counted.length
  received := by
    rw [cleared.received, cleared.parts, List.countP_map]
    exact (List.countP_eq_zero.mpr fun _ _ => Bool.false_ne_true).symm
  fits := by
    intro index part held
    rw [cleared.parts, List.getElem?_map] at held
    cases i.parts[index]? <;> simp at held
  whole := by
    intro completing
    rw [cleared.completing] at completing
    cases completing

theorem opened {c : TransferChunkPlainMessage Time} (takes : c.Accepted)
    (now : Time) (bucketId : JSString) :
    (Incoming.open now bucketId c).Counted where
  size := takes.size
  total := takes.total
  length := List.length_replicate
  received := by
    simp [Incoming.open, List.countP_replicate]
  fits := by
    intro index part held
    simp [Incoming.open, List.getElem?_replicate] at held
  whole := by
    intro completing
    cases completing

/-- A part that was missing is there now. -/
theorem countP_setPart {parts : List (Option Bytes)} {index : Nat}
    (bound : index < parts.length) (vacant : parts[index]?.join.isSome = false)
    (data : Bytes) :
    (setPart parts index data).countP Option.isSome =
      parts.countP Option.isSome + 1 := by
  have enough : index + 1 - parts.length = 0 := by omega
  have absent : parts[index] = none := by
    rw [List.getElem?_eq_getElem bound] at vacant
    exact Option.not_isSome_iff_eq_none.mp (Bool.eq_false_iff.mp vacant)
  unfold setPart
  rw [enough, List.replicate_zero, List.append_nil, List.countP_set bound,
    absent]
  rfl

theorem filled {c : TransferChunkPlainMessage Time} (takes : c.Accepted)
    (counted : i.Counted) (header : sameHeader i.header c.header = true)
    (total : i.total = c.total)
    (vacant : i.parts[c.index]?.join.isSome = false)
    (filled : i.Filled c i') : i'.Counted := by
  have bound : c.index < i.parts.length := by
    rw [counted.length, total]
    exact takes.index
  have size : i.header.size = c.header.size := by
    simp only [sameHeader, Bool.and_eq_true, decide_eq_true_eq] at header
    exact header.1.1.1.2
  exact
    { size := by
        rw [filled.same.header]
        exact counted.size
      total := by
        rw [filled.same.total, filled.same.header]
        exact counted.total
      length := by
        rw [filled.parts, setPart_length _ bound, filled.same.total]
        exact counted.length
      received := by
        rw [filled.received, filled.parts, countP_setPart bound vacant,
          counted.received]
      fits := by
        intro index part held
        rw [filled.parts, getElem?_setPart bound] at held
        rw [filled.same.header]
        split at held
        · rename_i here
          obtain rfl := Option.some.inj (Option.some.inj held)
          rw [here, size]
          exact takes.length
        · exact counted.fits index part held
      whole := filled.completing }

theorem rule :
    Incoming.Rule TransferChunkPlainMessage.Accepted Incoming.Counted where
  calm := Counted.calm
  cleared := Counted.cleared
  opened := Counted.opened
  filled := fun takes counted header total _ vacant filled =>
    counted.filled takes header total vacant filled

/-- When the counter says so, all parts are there, and they fill the buffer
to its end. -/
theorem assembles (counted : i.Counted) (all : i.received = i.total) :
    ∃ data, data.length = i.header.size ∧
      assemble i.header.size i.parts [] = .filled data i.header.size := by
  have present : ∀ part ∈ i.parts, part.isSome = true := by
    apply List.countP_eq_length.mp
    rw [← counted.received, all, counted.length]
  have full : ∀ index : Nat, i.parts[index]? ≠ some none := by
    intro index missing
    have there := present none (List.mem_of_getElem? missing)
    cases there
  obtain ⟨held, parts⟩ := full_of_none_missing full
  have count : held.length = transferChunkCount i.header.size := by
    rw [← counted.total, ← counted.length, parts, List.length_map]
  have lengths : held.map List.length =
      (List.range (transferChunkCount i.header.size)).map
        (transferChunkLength i.header.size) := by
    apply List.ext_getElem
    · simp [count]
    · intro index inBounds _
      have bound : index < held.length := by simpa using inBounds
      have fits := counted.fits index held[index] (by simp [parts, bound])
      simpa using fits
  have whole : held.flatten.length = i.header.size := by
    rw [List.length_flatten, lengths, sum_transferChunkLength]
    exact Nat.min_eq_left (length_le_chunks _)
  have copied := assemble_fits i.header.size held []
    (by simp only [List.nil_append, whole, Nat.le_refl])
  rw [← parts] at copied
  simp only [List.nil_append, whole, Nat.sub_self, List.replicate_zero,
    List.append_nil] at copied
  exact ⟨held.flatten, whole, copied⟩

end Incoming.Counted

/-! ## Completion -/

namespace Engine

variable {s : Engine} {env : Env}

/-- What `complete` does to a transfer whose parts are all there: it hashes a
buffer that the parts fill. -/
def CompletesWhole (i : Incoming) : Prop :=
  ∃ data, data.length = i.header.size ∧ ∀ (s : Engine) (ref : Ref),
    s.complete ref i = ((s.setIn ref { i with completing := true }).suspend
      (.hashData ref data i.header.size))

theorem completesWhole {i : Incoming} (counted : i.Counted)
    (all : i.received = i.total) : CompletesWhole i := by
  obtain ⟨data, length, assembled⟩ := counted.assembles all
  refine ⟨data, length, ?_⟩
  intro s ref
  unfold complete
  rw [assembled]

theorem hashData_of_complete {ref ref' : Ref} {i : Incoming} {data : Bytes}
    {offset : Nat} (whole : CompletesWhole i)
    (hashes : .hashData ref' data offset ∈ (s.complete ref i).suspended) :
    .hashData ref' data offset ∈ s.suspended ∨
      data.length = i.header.size ∧ offset = i.header.size := by
  obtain ⟨buffer, length, completes⟩ := whole
  rw [completes] at hashes
  rcases List.mem_append.mp hashes with before | new
  · exact .inl before
  · obtain ⟨-, rfl, rfl⟩ := Suspended.hashData.inj (List.mem_singleton.mp new)
    exact .inr ⟨length, rfl⟩

/-- A payload is hashed only once it has been filled to its end. -/
theorem hashData_of_fill {ref ref' : Ref} {i : Incoming}
    {c : TransferChunkPlainMessage Time} {data : Bytes} {offset : Nat}
    (takes : c.Accepted) (counted : i.Counted)
    (header : sameHeader i.header c.header = true)
    (total : i.total = c.total)
    (hashes : .hashData ref' data offset ∈ (s.fill env ref i c).suspended) :
    .hashData ref' data offset ∈ s.suspended ∨ data.length = offset := by
  unfold fill at hashes
  split at hashes
  · exact .inl hashes
  · rename_i vacant
    rw [not_or, Bool.not_eq_true, Bool.not_eq_true] at vacant
    dsimp only at hashes
    split at hashes
    · rename_i last
      refine (hashData_of_complete ?_ hashes).imp_right
        fun filled => filled.1.trans filled.2.symm
      refine completesWhole ?_ last
      exact counted.filled takes header total vacant.2
        ⟨⟨rfl, rfl, rfl, rfl⟩, rfl, rfl, rfl, fun _ => last⟩
    · left
      split at hashes <;> exact hashes

theorem hashData_of_handleChunk {bucketId : JSString} {ref : Ref}
    {c : TransferChunkPlainMessage Time} {data : Bytes} {offset : Nat}
    (all : s.AllIn Incoming.Counted) (takes : c.Accepted)
    (hashes : .hashData ref data offset ∈
      (s.handleChunk env bucketId c).suspended) :
    .hashData ref data offset ∈ s.suspended ∨ data.length = offset := by
  unfold handleChunk at hashes
  split at hashes
  · rename_i ref' i found
    split at hashes
    · exact .inl hashes
    · rename_i same
      rw [not_or, not_not, not_not] at same
      have counted := all.found (findIn_eq_some_iff.mp found).2
      exact hashData_of_fill takes counted same.1 same.2 hashes
  · split at hashes
    · exact .inl hashes
    · split at hashes
      · exact .inl hashes
      · dsimp only at hashes
        split at hashes
        · exact .inl hashes
        · have counted := Incoming.Counted.opened takes env.now bucketId
          have header : sameHeader c.header c.header = true := by
            simp [sameHeader]
          rcases hashData_of_fill takes counted header rfl hashes
            with before | filled
          · left
            split at before
            · rcases List.mem_append.mp before with earlier | check
              · exact earlier
              · cases List.mem_singleton.mp check
            · exact before
          · exact .inr filled

/-- The receiver holds what the headers promise, whatever bytes arrive: no
more parts than a transfer may have, each of its length, and a completion
starts only with all parts and fills its buffer to the end. -/
theorem incoming_parts_fit {sha256 : Bytes → JSString}
    {limits : TransferLimits} {checksStorage : Bool}
    (nfc : JSString → JSString) (clock : ν → Time)
    (reached : ((Engine.system sha256 limits checksStorage).restrict
      fun _ label => FromWire nfc clock label).Reachable s) :
    (∀ i ∈ s.incoming, i.Counted ∧ i.total ≤ MAX_TRANSFER_CHUNKS ∧
      (i.received = i.total → CompletesWhole i)) ∧
    ∀ bucketId (c : TransferChunkPlainMessage Time) env,
      FromWire nfc clock (.handleChunk bucketId c, env) →
      ∀ ref data offset, .hashData ref data offset ∈
          (s.handleChunk env bucketId c).suspended →
        .hashData ref data offset ∈ s.suspended ∨ data.length = offset := by
  have all : s.AllIn Incoming.Counted := by
    refine reached.invariant (AllIn Incoming.Counted) ?_ ?_
    · rintro s rfl i member
      cases member
    · rintro s label s' all ⟨stepped, wire⟩
      exact all.step Incoming.Counted.rule
        (fun _ _ given => wire.accepted given) stepped
  constructor
  · intro i member
    have counted := all i member
    refine ⟨counted, ?_, completesWhole counted⟩
    rw [counted.total]
    exact transferChunkCount_le counted.size
  · intro bucketId c env wire ref data offset hashes
    exact hashData_of_handleChunk all (wire.accepted rfl) hashes

/-- One chunk has arrived, and then it arrives again. -/
theorem incoming_parts_fit_leaf :
    let env : Env := ⟨0, fun _ => true, fun _ _ => false⟩
    let chunk := leafChunk.stamp fun t => t
    let s := (Engine.new DEFAULT_TRANSFER_LIMITS false).handleChunk env []
      chunk
    (∀ i ∈ s.incoming, i.Counted) ∧
      ∀ ref data offset, .hashData ref data offset ∈
          (s.handleChunk env [] chunk).suspended →
        .hashData ref data offset ∈ s.suspended ∨ data.length = offset := by
  intro env chunk s
  have wire : FromWire id (fun t : Int => t) (.handleChunk [] chunk, env) := by
    intro bucketId c given
    obtain ⟨-, rfl⟩ := Event.handleChunk.inj given
    obtain ⟨pt, read⟩ := leafChunk_read
    exact ⟨pt, leafChunk, read, rfl⟩
  have reached : ((Engine.system (fun _ => []) DEFAULT_TRANSFER_LIMITS
      false).restrict fun _ label =>
        FromWire id (fun t : Int => t) label).Reachable s := by
    have stepped : (Engine.new DEFAULT_TRANSFER_LIMITS false).step
        (fun _ => []) env (.handleChunk [] chunk) = some s := rfl
    exact .step (.start rfl)
      (show Lts.step _ _ (.handleChunk [] chunk, env) _ from ⟨stepped, wire⟩)
  obtain ⟨fits, completes⟩ := incoming_parts_fit id (fun t : Int => t) reached
  exact ⟨fun i member => (fits i member).1, completes [] chunk env wire⟩

end Engine

end Byteln.Client

import Byteln.Client.Chunks
import Byteln.Client.ManagerSteps

/-!
# Bundles as they arrive

The receiver of a history does not call the assembler but collects the chunks
of a bundle as they arrive.  What it keeps for a bundle is a function of the
bundle's own chunks, so runs are proved on that entry alone.
-/

namespace Byteln.Client

open Byteln.Library

variable {ν : Type}

/-! ## The entry of a bundle -/

/-- Store a part in the entry of a bundle; the last one gives the bytes. -/
def PendingHistory.receive (pending : PendingHistory)
    (chunk : HistoryChunkPlainMessage) :
    Option PendingHistory × Option Bytes :=
  if chunk.index ≥ pending.total then (some pending, none)
  else if (pending.parts[chunk.index]?.join).isSome then (some pending, none)
  else
    let parts := pending.parts.set chunk.index (some chunk.data)
    match assemble pending.compressedLength parts [] with
    | .missing | .overflow => (some { pending with parts := parts }, none)
    | .filled assembled _ => (none, some assembled)

/-- What a chunk makes of the entry of its bundle. -/
def receiveChunk (entry : Option PendingHistory)
    (chunk : HistoryChunkPlainMessage) :
    Option PendingHistory × Option Bytes :=
  match entry with
  | none =>
      if chunk.index ≠ 0 then (none, none)
      else
        match chunk.compressedLength with
        | none => (none, none)
        | some compressedLength =>
            PendingHistory.receive
              { total := chunk.total
                compressedLength := compressedLength
                parts := List.replicate chunk.total none } chunk
  | some pending =>
      if chunk.total ≠ pending.total then (some pending, none)
      else pending.receive chunk

namespace Device

variable (device : Device ν) (bucketId : JSString)
  (chunk : HistoryChunkPlainMessage)

theorem receivePart_entry {pending : PendingHistory}
    (found : device.pendingHistory.get? chunk.id = some pending) :
    (device.receivePart bucketId chunk pending).1.pendingHistory.get?
        chunk.id = (pending.receive chunk).1 ∧
      (device.receivePart bucketId chunk pending).2 =
        (pending.receive chunk).2.toList.map
          (.unpackHistory bucketId (bundleRequestId chunk.id)) := by
  unfold receivePart PendingHistory.receive
  split
  · exact ⟨found, rfl⟩
  · split
    · exact ⟨found, rfl⟩
    · dsimp only
      cases assemble pending.compressedLength
          (pending.parts.set chunk.index (some chunk.data)) [] with
      | missing => exact ⟨InsertionMap.get?_set_self _ _ _, rfl⟩
      | overflow => exact ⟨InsertionMap.get?_set_self _ _ _, rfl⟩
      | filled assembled offset => exact ⟨InsertionMap.get?_erase_self _ _, rfl⟩

/-- A chunk is handled on the entry of its bundle alone. -/
theorem handleHistoryChunk_entry :
    (device.handleHistoryChunk bucketId chunk).1.pendingHistory.get?
        chunk.id =
      (receiveChunk (device.pendingHistory.get? chunk.id) chunk).1 ∧
      (device.handleHistoryChunk bucketId chunk).2 =
        (receiveChunk (device.pendingHistory.get? chunk.id)
          chunk).2.toList.map
            (.unpackHistory bucketId (bundleRequestId chunk.id)) := by
  unfold handleHistoryChunk receiveChunk
  cases found : device.pendingHistory.get? chunk.id with
  | none =>
      dsimp only
      split
      · exact ⟨found, rfl⟩
      · cases chunk.compressedLength with
        | none => exact ⟨found, rfl⟩
        | some compressedLength =>
            exact receivePart_entry _ bucketId chunk
              (InsertionMap.get?_set_self _ _ _)
  | some pending =>
      dsimp only
      split
      · exact ⟨found, rfl⟩
      · exact receivePart_entry device bucketId chunk found

end Device

/-! ## Runs -/

/-- The chunks of a bundle that reach `handleHistoryChunk`, and the bytes that
it hands to `unpackMessagesFromSync`; between them anything may happen that
leaves the entry of the bundle alone. -/
inductive Receiving (id : JSString) :
    Device ν → List HistoryChunkPlainMessage → List Bytes → Device ν →
      Prop where
  | refl (device : Device ν) : Receiving id device [] [] device
  | chunk {start device : Device ν} {chunks : List HistoryChunkPlainMessage}
      {handed : List Bytes} (bucketId : JSString)
      {chunk : HistoryChunkPlainMessage} {bytes : List Bytes} :
      Receiving id start chunks handed device → chunk.id = id →
      (device.handleHistoryChunk bucketId chunk).2 =
        bytes.map (.unpackHistory bucketId (bundleRequestId id)) →
      Receiving id start (chunks ++ [chunk]) (handed ++ bytes)
        (device.handleHistoryChunk bucketId chunk).1
  | other {start device device' : Device ν}
      {chunks : List HistoryChunkPlainMessage} {handed : List Bytes} :
      Receiving id start chunks handed device →
      device'.pendingHistory.get? id = device.pendingHistory.get? id →
      Receiving id start chunks handed device'

/-- One more chunk of a run that is given. -/
theorem Receiving.next {id : JSString} {start device : Device ν}
    (bucketId : JSString) (chunks : List HistoryChunkPlainMessage)
    (handed : List Bytes) (chunk : HistoryChunkPlainMessage)
    (bytes : List Bytes) (run : Receiving id start chunks handed device)
    (own : chunk.id = id)
    (acts : (device.handleHistoryChunk bucketId chunk).2 =
      bytes.map (.unpackHistory bucketId (bundleRequestId id))) :
    Receiving id start (chunks ++ [chunk]) (handed ++ bytes)
      (device.handleHistoryChunk bucketId chunk).1 :=
  .chunk bucketId run own acts

/-- What every chunk of the bundle keeps, the run keeps. -/
theorem Receiving.rule {id : JSString} {start device : Device ν}
    {chunks : List HistoryChunkPlainMessage} {handed : List Bytes}
    {P : List HistoryChunkPlainMessage → Option PendingHistory →
      List Bytes → Prop}
    (run : Receiving id start chunks handed device)
    (initial : P [] (start.pendingHistory.get? id) [])
    (keeps : ∀ before entry handed chunk, before ++ [chunk] <+: chunks →
      P before entry handed →
        P (before ++ [chunk]) (receiveChunk entry chunk).1
          (handed ++ (receiveChunk entry chunk).2.toList)) :
    P chunks (device.pendingHistory.get? id) handed := by
  induction run with
  | refl => exact initial
  | @chunk device chunks handed bucketId chunk bytes _ same gives induction =>
      subst same
      obtain ⟨entry, acts⟩ := device.handleHistoryChunk_entry bucketId chunk
      rw [gives] at acts
      have equal : bytes =
          (receiveChunk (device.pendingHistory.get? chunk.id)
            chunk).2.toList := by
        apply List.map_injective_iff.mpr _ acts
        intro left right same
        exact (Activation.unpackHistory.inj same).2.2
      rw [entry, equal]
      apply keeps _ _ _ _ (List.prefix_refl _)
      apply induction
      intro before entry handed next within
      exact keeps before entry handed next
        (within.trans (List.prefix_append _ _))
  | other _ same induction =>
      rw [same]
      exact induction keeps

/-! ## Bundles that were split -/

section Split

variable {data : Bytes} {chunkSize : Nat}

/-- An entry with some of the chunks of a payload. -/
structure PendingHistory.Collects (data : Bytes) (chunkSize : Nat)
    (pending : PendingHistory) : Prop where
  total : pending.total = chunkCount data.length chunkSize
  declared : pending.compressedLength = data.length
  length : pending.parts.length = pending.total
  parts : ∀ index part, pending.parts[index]? = some (some part) →
    part = chunkBytes data chunkSize index

theorem PendingHistory.Collects.assembles {pending : PendingHistory}
    (collects : pending.Collects data chunkSize) (positive : 1 ≤ chunkSize)
    (full : ∀ index : Nat, pending.parts[index]? ≠ some none) :
    ∃ offset, assemble pending.compressedLength pending.parts [] =
      .filled data offset := by
  obtain ⟨held, equal⟩ := full_of_none_missing full
  have cut : held = (List.range (chunkCount data.length chunkSize)).map
      (chunkBytes data chunkSize) := by
    have count : held.length = chunkCount data.length chunkSize := by
      rw [← collects.total, ← collects.length, equal, List.length_map]
    apply List.ext_getElem?
    intro index
    by_cases inBounds : index < held.length
    · have part := collects.parts index held[index] (by
        rw [equal]
        simp [inBounds])
      simp [inBounds, count ▸ inBounds, part]
    · simp [inBounds, ← count]
  have whole : held.flatten = data := by
    rw [cut, flatten_chunkBytes]
    exact List.take_of_length_le (length_le_chunkCount _ positive)
  have copied := assemble_fits data.length held [] (by simp [whole])
  rw [List.nil_append, whole, Nat.sub_self] at copied
  rw [collects.declared, equal, copied]
  exact ⟨data.length, by simp⟩

/-- A chunk of the payload. -/
structure IsChunkOf (data : Bytes) (chunkSize : Nat)
    (chunk : HistoryChunkPlainMessage) : Prop where
  index : chunk.index < chunkCount data.length chunkSize
  total : chunk.total = chunkCount data.length chunkSize
  bytes : chunk.data = chunkBytes data chunkSize chunk.index
  declared : chunk.index = 0 → chunk.compressedLength = some data.length

/-- A chunk is there already, or leaves some others missing, or is the last
one. -/
theorem PendingHistory.Collects.receive {pending : PendingHistory}
    {chunk : HistoryChunkPlainMessage}
    (collects : pending.Collects data chunkSize) (positive : 1 ≤ chunkSize)
    (of : IsChunkOf data chunkSize chunk) :
    pending.receive chunk = (none, some data) ∨
      ∃ next, pending.receive chunk = (some next, none) ∧
        next.Collects data chunkSize ∧
        next.parts[chunk.index]? ≠ some none ∧
        (∀ index : Nat, pending.parts[index]? ≠ some none →
          next.parts[index]? ≠ some none) ∧
        ((∃ index : Nat, pending.parts[index]? = some none) →
          ∃ index : Nat, next.parts[index]? = some none) := by
  have inBounds : chunk.index < pending.parts.length := by
    rw [collects.length, collects.total]
    exact of.index
  unfold PendingHistory.receive
  rw [if_neg (by rw [← collects.length]; omega)]
  by_cases held : (pending.parts[chunk.index]?.join).isSome
  · rw [if_pos held]
    refine .inr ⟨pending, rfl, collects, ?_, fun _ kept => kept, id⟩
    intro missing
    rw [missing] at held
    cases held
  · rw [if_neg held]
    let next : PendingHistory :=
      { pending with parts := pending.parts.set chunk.index (some chunk.data) }
    have same : next.Collects data chunkSize := by
      refine ⟨collects.total, collects.declared, ?_, ?_⟩
      · exact List.length_set.trans collects.length
      · intro index part present
        by_cases here : index = chunk.index
        · subst here
          have stored : next.parts[chunk.index]? = some (some chunk.data) :=
            List.getElem?_set_self inBounds
          rw [stored] at present
          obtain rfl := Option.some.inj (Option.some.inj present)
          exact of.bytes
        · apply collects.parts index part
          rw [← present]
          exact (List.getElem?_set_ne (Ne.symm here)).symm
    have stored : next.parts[chunk.index]? ≠ some none := by
      rw [List.getElem?_set_self inBounds]
      exact fun missing => nomatch missing
    by_cases full : ∀ index : Nat, next.parts[index]? ≠ some none
    · obtain ⟨offset, filled⟩ := same.assembles positive full
      left
      dsimp only
      rw [filled]
    · rw [not_forall] at full
      obtain ⟨index, missing⟩ := full
      rw [not_not] at missing
      right
      refine ⟨next, ?_, same, stored, ?_, fun _ => ⟨index, missing⟩⟩
      · dsimp only
        rcases assemble_missing pending.compressedLength missing with
          result | result <;> rw [result]
      · intro other kept
        by_cases here : other = chunk.index
        · exact here ▸ stored
        · rwa [List.getElem?_set_ne (Ne.symm here)]

/-- The chunks from the first header on. -/
def sinceHeader (chunks : List HistoryChunkPlainMessage) :
    List HistoryChunkPlainMessage :=
  chunks.dropWhile fun chunk => chunk.index ≠ 0

theorem sinceHeader_snoc (chunks : List HistoryChunkPlainMessage)
    (chunk : HistoryChunkPlainMessage) :
    sinceHeader (chunks ++ [chunk]) =
      if sinceHeader chunks = [] then
        if chunk.index = 0 then [chunk] else []
      else sinceHeader chunks ++ [chunk] := by
  unfold sinceHeader
  rw [List.dropWhile_append]
  by_cases none : chunks.dropWhile (fun chunk => chunk.index ≠ 0) = []
  · by_cases header : chunk.index = 0 <;> simp [header]
  · rw [if_neg none, if_neg (by simpa using none)]

theorem mem_sinceHeader_snoc {chunks : List HistoryChunkPlainMessage}
    {chunk c : HistoryChunkPlainMessage}
    (member : c ∈ sinceHeader (chunks ++ [chunk])) :
    c ∈ sinceHeader chunks ∨ c = chunk := by
  rw [sinceHeader_snoc] at member
  split at member
  · split at member
    · exact .inr (List.mem_singleton.mp member)
    · cases member
  · rcases List.mem_append.mp member with before | last
    · exact .inl before
    · exact .inr (List.mem_singleton.mp last)

/-- Either the bundle has been handed over, or its entry has every chunk that
came since the header, and misses some other. -/
structure Collecting (data : Bytes) (chunkSize : Nat)
    (chunks : List HistoryChunkPlainMessage) (entry : Option PendingHistory)
    (handed : List Bytes) : Prop where
  bytes : ∀ bytes ∈ handed, bytes = data
  idle : entry = none → handed = [] → sinceHeader chunks = []
  collects : ∀ pending, entry = some pending →
    pending.Collects data chunkSize ∧
      ∃ index : Nat, pending.parts[index]? = some none
  since : ∀ pending, entry = some pending → handed = [] →
    ∀ chunk ∈ sinceHeader chunks, pending.parts[chunk.index]? ≠ some none

theorem Collecting.handed {chunks : List HistoryChunkPlainMessage}
    {handed : List Bytes} (bytes : ∀ bytes ∈ handed, bytes = data) :
    Collecting data chunkSize chunks none (handed ++ [data]) := by
  constructor
  · intro given member
    rcases List.mem_append.mp member with before | last
    · exact bytes given before
    · exact List.mem_singleton.mp last
  · intro _ empty
    exact absurd empty (List.append_ne_nil_of_right_ne_nil _ (by simp))
  · intro pending present
    cases present
  · intro pending present
    cases present

/-- The entry has what came since the header, and takes one more chunk. -/
theorem Collecting.receive {chunks : List HistoryChunkPlainMessage}
    {pending : PendingHistory} {handed : List Bytes}
    {chunk : HistoryChunkPlainMessage} (positive : 1 ≤ chunkSize)
    (of : IsChunkOf data chunkSize chunk)
    (bytes : ∀ bytes ∈ handed, bytes = data)
    (collects : pending.Collects data chunkSize)
    (missing : ∃ index : Nat, pending.parts[index]? = some none)
    (since : handed = [] →
      ∀ c ∈ sinceHeader chunks, pending.parts[c.index]? ≠ some none) :
    Collecting data chunkSize (chunks ++ [chunk]) (pending.receive chunk).1
      (handed ++ (pending.receive chunk).2.toList) := by
  rcases collects.receive positive of with
    whole | ⟨next, result, same, stored, kept, others⟩
  · rw [whole]
    exact .handed bytes
  · rw [result]
    dsimp only [Option.toList_none]
    rw [List.append_nil]
    constructor
    · exact bytes
    · intro none
      cases none
    · intro _ present
      obtain rfl := Option.some.inj present
      exact ⟨same, others missing⟩
    · intro _ present empty c member
      obtain rfl := Option.some.inj present
      rcases mem_sinceHeader_snoc member with before | rfl
      · exact kept _ (since empty c before)
      · exact stored

theorem Collecting.step {chunks : List HistoryChunkPlainMessage}
    {entry : Option PendingHistory} {handed : List Bytes}
    {chunk : HistoryChunkPlainMessage}
    (collecting : Collecting data chunkSize chunks entry handed)
    (positive : 1 ≤ chunkSize) (of : IsChunkOf data chunkSize chunk) :
    Collecting data chunkSize (chunks ++ [chunk])
      (receiveChunk entry chunk).1
      (handed ++ (receiveChunk entry chunk).2.toList) := by
  cases entry with
  | none =>
      by_cases header : chunk.index = 0
      · have blank : PendingHistory.Collects data chunkSize
            { total := chunk.total
              compressedLength := data.length
              parts := List.replicate chunk.total none } := by
          refine ⟨of.total, rfl, List.length_replicate, ?_⟩
          intro index part present
          simp [List.getElem?_replicate] at present
        have unset : (List.replicate chunk.total (none : Option Bytes))[0]? =
            some none := by
          rw [List.getElem?_replicate, if_pos]
          exact of.total ▸ chunkCount_pos _ _
        have opened : receiveChunk none chunk = PendingHistory.receive
            { total := chunk.total
              compressedLength := data.length
              parts := List.replicate chunk.total none } chunk := by
          simp only [receiveChunk, of.declared header]
          exact if_neg (not_not.mpr header)
        rw [opened]
        apply Collecting.receive positive of collecting.bytes blank ⟨0, unset⟩
        intro empty c member
        rw [collecting.idle rfl empty] at member
        cases member
      · have dropped : receiveChunk none chunk = (none, none) := if_pos header
        rw [dropped]
        dsimp only [Option.toList_none]
        rw [List.append_nil]
        constructor
        · exact collecting.bytes
        · intro _ empty
          rw [sinceHeader_snoc, if_pos (collecting.idle rfl empty),
            if_neg header]
        · intro pending present
          cases present
        · intro pending present
          cases present
  | some pending =>
      obtain ⟨collects, missing⟩ := collecting.collects pending rfl
      have same : chunk.total = pending.total :=
        of.total.trans collects.total.symm
      have taken : receiveChunk (some pending) chunk = pending.receive chunk :=
        if_neg (not_not.mpr same)
      rw [taken]
      exact .receive positive of collecting.bytes collects missing
        (collecting.since pending rfl)

theorem mem_splitHistoryChunksBy {id : JSString}
    {all : List HistoryChunkPlainMessage} (positive : 1 ≤ chunkSize)
    (bundle : splitHistoryChunksBy id data chunkSize = .ok all)
    (chunk : HistoryChunkPlainMessage) (member : chunk ∈ all) :
    IsChunkOf data chunkSize chunk := by
  unfold splitHistoryChunksBy at bundle
  rw [if_neg (Nat.not_lt.mpr positive)] at bundle
  obtain rfl := Except.ok.inj bundle
  obtain ⟨index, inside, rfl⟩ := List.mem_map.mp member
  exact ⟨List.mem_range.mp inside, rfl, rfl, fun header => if_pos header⟩

theorem exists_mem_splitHistoryChunksBy {id : JSString}
    {all : List HistoryChunkPlainMessage} (positive : 1 ≤ chunkSize)
    (bundle : splitHistoryChunksBy id data chunkSize = .ok all) {index : Nat}
    (inside : index < chunkCount data.length chunkSize) :
    ∃ chunk ∈ all, chunk.index = index := by
  unfold splitHistoryChunksBy at bundle
  rw [if_neg (Nat.not_lt.mpr positive)] at bundle
  obtain rfl := Except.ok.inj bundle
  exact ⟨_, List.mem_map_of_mem (List.mem_range.mpr inside), rfl⟩

/-- A bundle all of whose chunks come once its header has come is handed over,
and never as anything else. -/
theorem Receiving.whole {id : JSString} {start device : Device ν}
    {chunks all : List HistoryChunkPlainMessage} {handed : List Bytes}
    (run : Receiving id start chunks handed device)
    (fresh : start.pendingHistory.get? id = none) (positive : 1 ≤ chunkSize)
    (bundle : splitHistoryChunksBy id data chunkSize = .ok all)
    (own : ∀ chunk ∈ chunks, chunk ∈ all)
    (complete : ∀ chunk ∈ all, chunk ∈ sinceHeader chunks) :
    handed ≠ [] ∧ ∀ bytes ∈ handed, bytes = data := by
  have collecting : Collecting data chunkSize chunks
      (device.pendingHistory.get? id) handed := by
    apply run.rule
    · rw [fresh]
      exact ⟨fun _ none => (nomatch none), fun _ _ => rfl,
        fun _ none => (nomatch none), fun _ none => (nomatch none)⟩
    · intro before entry given chunk within collecting
      have member : chunk ∈ chunks := within.subset (by simp)
      exact collecting.step positive
        (mem_splitHistoryChunksBy positive bundle chunk (own chunk member))
  refine ⟨?_, collecting.bytes⟩
  intro empty
  cases entry : device.pendingHistory.get? id with
  | none =>
      obtain ⟨chunk, member, -⟩ := exists_mem_splitHistoryChunksBy positive
        bundle (chunkCount_pos data.length chunkSize)
      have came := complete chunk member
      rw [collecting.idle entry empty] at came
      cases came
  | some pending =>
      obtain ⟨collects, index, missing⟩ := collecting.collects pending entry
      have inside : index < chunkCount data.length chunkSize := by
        rw [← collects.total, ← collects.length]
        exact (List.getElem?_eq_some_iff.mp missing).1
      obtain ⟨chunk, member, rfl⟩ :=
        exists_mem_splitHistoryChunksBy positive bundle inside
      exact collecting.since pending entry empty chunk (complete chunk member)
        missing

end Split

/-! ## Bundles of which something is missing -/

/-- Some chunks of one size for every index below it. -/
def Covers (chunks : List HistoryChunkPlainMessage) (total : Nat) : Prop :=
  ∀ index < total, ∃ chunk ∈ chunks, chunk.index = index ∧
    chunk.total = total

/-- The header of a bundle has not come, or a chunk of its size for some index
has not. -/
def Gap (chunks : List HistoryChunkPlainMessage) : Prop :=
  ∀ head ∈ chunks, head.index = 0 → ¬Covers chunks head.total

/-- An entry is opened by a header, and has parts of chunks of its size. -/
structure Gathering (chunks : List HistoryChunkPlainMessage)
    (entry : Option PendingHistory) (handed : List Bytes) : Prop where
  opened : ∀ pending, entry = some pending →
    (∃ head ∈ chunks, head.index = 0 ∧ head.total = pending.total) ∧
      pending.parts.length = pending.total ∧
      ∀ (index : Nat) part, pending.parts[index]? = some (some part) →
        ∃ chunk ∈ chunks, chunk.index = index ∧ chunk.total = pending.total
  covered : handed ≠ [] →
    ∃ head ∈ chunks, head.index = 0 ∧ Covers chunks head.total

theorem Gathering.receive {chunks : List HistoryChunkPlainMessage}
    {pending : PendingHistory} {handed : List Bytes}
    {chunk : HistoryChunkPlainMessage}
    (gathering : Gathering chunks (some pending) handed)
    (member : chunk ∈ chunks) (same : chunk.total = pending.total) :
    Gathering chunks (pending.receive chunk).1
      (handed ++ (pending.receive chunk).2.toList) := by
  obtain ⟨opened, length, parts⟩ := gathering.opened pending rfl
  have kept : Gathering chunks (some pending) (handed ++ []) := by
    rw [List.append_nil]
    exact gathering
  unfold PendingHistory.receive
  split
  · exact kept
  · split
    · exact kept
    · let next : PendingHistory :=
        { pending with
          parts := pending.parts.set chunk.index (some chunk.data) }
      have stored : ∀ (index : Nat) part,
          next.parts[index]? = some (some part) →
            ∃ chunk ∈ chunks, chunk.index = index ∧
              chunk.total = pending.total := by
        intro index part present
        by_cases here : index = chunk.index
        · exact ⟨chunk, member, here.symm, same⟩
        · apply parts index part
          rw [← present]
          exact (List.getElem?_set_ne (Ne.symm here)).symm
      have still : Gathering chunks (some next) (handed ++ []) := by
        rw [List.append_nil]
        refine ⟨?_, gathering.covered⟩
        intro _ present
        obtain rfl := Option.some.inj present
        exact ⟨opened, List.length_set.trans length, stored⟩
      dsimp only
      split
      · exact still
      · exact still
      · rename_i bytes offset filled
        refine ⟨fun _ none => (nomatch none), fun _ => ?_⟩
        obtain ⟨head, known, header, total⟩ := opened
        refine ⟨head, known, header, ?_⟩
        rw [total]
        intro index inside
        obtain ⟨held, equal, -⟩ := assemble_filled filled
        have bound : index < held.length := by
          rw [← List.length_map some, ← equal, List.length_set, length]
          exact inside
        apply stored index held[index]
        show (pending.parts.set chunk.index (some chunk.data))[index]? = _
        rw [equal]
        simp [bound]

theorem Gathering.step {chunks : List HistoryChunkPlainMessage}
    {entry : Option PendingHistory} {handed : List Bytes}
    {chunk : HistoryChunkPlainMessage}
    (gathering : Gathering chunks entry handed) (member : chunk ∈ chunks) :
    Gathering chunks (receiveChunk entry chunk).1
      (handed ++ (receiveChunk entry chunk).2.toList) := by
  have kept : ∀ {entry : Option PendingHistory},
      Gathering chunks entry handed →
        Gathering chunks entry (handed ++ []) := by
    intro entry gathering
    rw [List.append_nil]
    exact gathering
  cases entry with
  | none =>
      unfold receiveChunk
      dsimp only
      split
      · exact kept gathering
      · rename_i header
        rw [not_not] at header
        cases chunk.compressedLength with
        | none => exact kept gathering
        | some compressedLength =>
            refine Gathering.receive ⟨?_, gathering.covered⟩ member rfl
            intro _ present
            obtain rfl := Option.some.inj present
            refine ⟨⟨chunk, member, header, rfl⟩, List.length_replicate, ?_⟩
            intro index part present
            simp [List.getElem?_replicate] at present
  | some pending =>
      unfold receiveChunk
      dsimp only
      split
      · exact kept gathering
      · rename_i same
        exact gathering.receive member (not_not.mp same)

theorem Receiving.gathering {id : JSString} {start device : Device ν}
    {chunks : List HistoryChunkPlainMessage} {handed : List Bytes}
    (run : Receiving id start chunks handed device)
    (fresh : start.pendingHistory.get? id = none) :
    Gathering chunks (device.pendingHistory.get? id) handed := by
  apply run.rule (P := fun _ entry given => Gathering chunks entry given)
  · rw [fresh]
    exact ⟨fun _ none => (nomatch none), fun given => absurd rfl given⟩
  · intro before entry given chunk within gathering
    exact gathering.step (within.subset (by simp))

/-- The assembler has no use for them either. -/
theorem Gap.fails {chunks : List HistoryChunkPlainMessage}
    (gap : Gap chunks) :
    ∃ message, assembleHistoryChunks chunks = .error message := by
  cases result : assembleHistoryChunks chunks with
  | error message => exact ⟨message, rfl⟩
  | ok out =>
      obtain ⟨head, found, -, formed⟩ := assembleHistoryChunks_ok_iff.mp result
      have header : head.index = 0 := by simpa using List.find?_some found
      refine absurd ?_ (gap head (List.mem_of_find?_eq_some found) header)
      obtain ⟨same, ordered, reordered, indices, -⟩ := formed
      intro index inside
      have listed : index ∈ ordered.map Chunk.index := by
        rw [indices]
        exact List.mem_range.mpr inside
      obtain ⟨part, member, equal⟩ := List.mem_map.mp listed
      obtain ⟨chunk, known, rfl⟩ :=
        List.mem_map.mp (reordered.mem_iff.mp member)
      exact ⟨chunk, known, equal,
        (same _ (List.mem_map_of_mem known)).2⟩

/-- What the assembler makes of the chunks of a split payload. -/
theorem assemble_splitHistoryChunksBy {id : JSString} {data : Bytes}
    {chunkSize : Nat} {all : List HistoryChunkPlainMessage}
    (positive : 1 ≤ chunkSize)
    (bundle : splitHistoryChunksBy id data chunkSize = .ok all) :
    assembleHistoryChunks all = .ok data := by
  unfold splitHistoryChunksBy at bundle
  rw [if_neg (Nat.not_lt.mpr positive)] at bundle
  obtain rfl := Except.ok.inj bundle
  refine assembleHistoryChunks_ok_iff.mpr
    ⟨_, find_first HistoryChunkPlainMessage.index (chunkCount_pos _ _)
      (List.Perm.refl _) fun _ => rfl, rfl, ?_⟩
  rw [List.map_map]
  exact formedFrom_split positive _ rfl rfl

/-- A bundle whose chunks come once its header has come is handed over as the
assembler gives it, in any order; nothing is made of one that lacks a chunk,
and nothing kept of one that lacks its header. -/
theorem bundles_as_assembled {id : JSString} {start device : Device ν}
    {chunks : List HistoryChunkPlainMessage} {handed : List Bytes}
    (run : Receiving id start chunks handed device)
    (fresh : start.pendingHistory.get? id = none) :
    (∀ data chunkSize all, 1 ≤ chunkSize →
      splitHistoryChunksBy id data chunkSize = .ok all →
      (∀ chunk ∈ chunks, chunk ∈ all) →
      (∀ chunk ∈ all, chunk ∈ sinceHeader chunks) →
        handed ≠ [] ∧
          ∀ bytes ∈ handed, assembleHistoryChunks all = .ok bytes) ∧
    (Gap chunks →
      (∃ message, assembleHistoryChunks chunks = .error message) ∧
        handed = []) ∧
    ((∀ chunk ∈ chunks, chunk.index ≠ 0) →
      device.pendingHistory.get? id = none) := by
  have gathering := run.gathering fresh
  refine ⟨?_, ?_, ?_⟩
  · intro data chunkSize all positive bundle own complete
    obtain ⟨some, same⟩ := run.whole fresh positive bundle own complete
    refine ⟨some, ?_⟩
    intro bytes member
    rw [same bytes member]
    exact assemble_splitHistoryChunksBy positive bundle
  · intro gap
    refine ⟨gap.fails, ?_⟩
    by_contra some
    obtain ⟨head, known, header, covers⟩ := gathering.covered some
    exact gap head known header covers
  · intro headless
    cases entry : device.pendingHistory.get? id with
    | none => rfl
    | some pending =>
        obtain ⟨⟨head, known, header, -⟩, -⟩ := gathering.opened pending entry
        exact absurd header (headless head known)

/-- The chunks of two bytes, one in each. -/
def twoBytes (index : Nat) : HistoryChunkPlainMessage :=
  { id := js "r"
    index := index
    total := 2
    data := if index = 0 then [1] else [2]
    compressedLength := if index = 0 then some 2 else none }

theorem bundles_as_assembled_doubled :
    ∃ handed, Receiving (js "r") (Device.blank : Device Nat)
      [twoBytes 0, twoBytes 0, twoBytes 1] handed
      (((Device.blank.handleHistoryChunk (js "b")
        (twoBytes 0)).1.handleHistoryChunk (js "b")
        (twoBytes 0)).1.handleHistoryChunk (js "b") (twoBytes 1)).1 ∧
      handed ≠ [] ∧ ∀ bytes ∈ handed,
        assembleHistoryChunks [twoBytes 0, twoBytes 1] = .ok bytes := by
  have run : Receiving (js "r") (Device.blank : Device Nat)
      [twoBytes 0, twoBytes 0, twoBytes 1] [[1, 2]] _ :=
    .next (js "b") [twoBytes 0, twoBytes 0] [] (twoBytes 1) [[1, 2]]
      (.next (js "b") [twoBytes 0] [] (twoBytes 0) []
        (.next (js "b") [] [] (twoBytes 0) [] (.refl _) rfl rfl) rfl rfl) rfl
      rfl
  refine ⟨_, run, ?_⟩
  apply (bundles_as_assembled run rfl).1 [1, 2] 1
  · decide
  · rfl
  · decide
  · decide

/-- A chunk that comes before the header is lost. -/
theorem early_chunk_lost :
    splitHistoryChunksBy (js "r") [1, 2] 1 = .ok [twoBytes 0, twoBytes 1] ∧
    Receiving (js "r") (Device.blank : Device Nat) [twoBytes 1, twoBytes 0] []
      ((Device.blank.handleHistoryChunk (js "b")
        (twoBytes 1)).1.handleHistoryChunk (js "b") (twoBytes 0)).1 ∧
    assembleHistoryChunks [twoBytes 1, twoBytes 0] = .ok [1, 2] := by
  refine ⟨rfl, ?_, rfl⟩
  exact .next (js "b") [twoBytes 1] [] (twoBytes 0) []
    (.next (js "b") [] [] (twoBytes 1) [] (.refl _) rfl rfl) rfl rfl

end Byteln.Client

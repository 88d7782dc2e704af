import Byteln.Client.HistorySync
import Byteln.Client.Assembly

/-!
# Splitting and assembling chunks

Histories and images are cut into chunks that carry their index and their
number, and put together again from chunks in any order.  The two formats
share everything but their headers, so both are proved against one notion of a
chunk.
-/

namespace Byteln.Client

open Byteln.Library

/-! ## The common part -/

structure Chunk where
  id : JSString
  index : Nat
  total : Nat
  data : Bytes

/-- Number of chunks a payload of `size` bytes is cut into. -/
def chunkCount (size chunkSize : Nat) : Nat :=
  max 1 (ceilDiv size chunkSize)

/-- What the chunk at an index carries. -/
def chunkBytes (data : Bytes) (chunkSize index : Nat) : Bytes :=
  data.extract (index * chunkSize)
    (min (index * chunkSize + chunkSize) data.length)

/-- File chunks of one payload by their index. -/
def fileChunks (head : Chunk) :
    List Chunk → InsertionMap Nat Chunk →
      Except JSString (InsertionMap Nat Chunk)
  | [], byIndex => .ok byIndex
  | c :: chunks, byIndex =>
      if c.id ≠ head.id ∨ c.total ≠ head.total then
        .error (js "chunk mismatch")
      else if byIndex.contains c.index then .error (js "duplicate chunk")
      else fileChunks head chunks (byIndex.set c.index c)

/-- `out.set(data, offset)`. -/
def setBytes (out data : Bytes) (offset : Nat) : Bytes :=
  out.take offset ++ data ++ out.drop (offset + data.length)

/-- Copy the chunks at some indices one after the other. -/
def copyChunks (length : Nat) (byIndex : InsertionMap Nat Chunk) :
    List Nat → Nat → Bytes → Except JSString (Nat × Bytes)
  | [], offset, out => .ok (offset, out)
  | i :: indices, offset, out =>
      match byIndex.get? i with
      | none => .error (js "missing chunk")
      | some c =>
          if offset + c.data.length > length then .error (js "chunk overflow")
          else
            copyChunks length byIndex indices (offset + c.data.length)
              (setBytes out c.data offset)

/-- What both assemblers do once they have found the header. -/
def assembleChunks (head : Chunk) (length : Nat) (chunks : List Chunk) :
    Except JSString Bytes :=
  if chunks.length ≠ head.total then .error (js "incomplete chunks")
  else
    match fileChunks head chunks .empty with
    | .error message => .error message
    | .ok byIndex =>
        match copyChunks length byIndex (List.range head.total) 0
          (List.replicate length 0) with
        | .error message => .error message
        | .ok (offset, out) =>
            if offset ≠ length then .error (js "assembled size mismatch")
            else .ok out

/-! ## Histories -/

def HistoryChunkPlainMessage.chunk (c : HistoryChunkPlainMessage) : Chunk :=
  ⟨c.id, c.index, c.total, c.data⟩

/-- `splitHistoryChunks` for any chunk size. -/
def splitHistoryChunksBy (requestId : JSString) (compressed : Bytes)
    (chunkSize : Nat) : Except JSString (List HistoryChunkPlainMessage) :=
  if chunkSize < 1 then .error (js "invalid chunk size")
  else
    let total := chunkCount compressed.length chunkSize
    .ok ((List.range total).map fun index =>
      { id := requestId
        index := index
        total := total
        data := chunkBytes compressed chunkSize index
        compressedLength :=
          if index = 0 then some compressed.length else none })

def assembleHistoryChunks (chunks : List HistoryChunkPlainMessage) :
    Except JSString Bytes :=
  if chunks.length = 0 then .error (js "no chunks")
  else
    match chunks.find? fun c => c.index = 0 with
    | none => .error (js "missing history chunk header")
    | some head =>
        match head.compressedLength with
        | none => .error (js "missing history chunk header")
        | some length =>
            assembleChunks head.chunk length
              (chunks.map HistoryChunkPlainMessage.chunk)

/-! ## Images -/

variable {ν : Type}

def ImageChunkPlainMessage.chunk (c : ImageChunkPlainMessage ν) : Chunk :=
  ⟨c.id, c.index, c.total, c.data⟩

/-- An image whose id is known. -/
@[ext]
structure IdentifiedImage (ν : Type) where
  msg : ImagePlainMessage ν
  id : JSString
  known : msg.id = some id

def splitImageChunks (image : IdentifiedImage ν) (chunkSize : Nat) :
    Except JSString (List (ImageChunkPlainMessage ν)) :=
  if chunkSize < 1 then .error (js "invalid chunk size")
  else if image.msg.data.length > MAX_IMAGE_BYTES then
    .error (js "image too large")
  else
    let total := chunkCount image.msg.data.length chunkSize
    .ok ((List.range total).map fun index =>
      { id := image.id
        index := index
        total := total
        data := chunkBytes image.msg.data chunkSize index
        ts := if index = 0 then some image.msg.ts else none
        mime := if index = 0 then some image.msg.mime else none
        byteLength :=
          if index = 0 then some image.msg.data.length else none
        w := if index = 0 then image.msg.w else none
        h := if index = 0 then image.msg.h else none
        replyTo := if index = 0 then image.msg.replyTo else none })

def assembleImageChunks (chunks : List (ImageChunkPlainMessage ν)) :
    Except JSString (IdentifiedImage ν) :=
  if chunks.length = 0 then .error (js "no chunks")
  else
    match chunks.find? fun c => c.index = 0 with
    | none => .error (js "missing image chunk header")
    | some head =>
        match head.ts, head.mime, head.byteLength with
        | some ts, some mime, some length =>
            match assembleChunks head.chunk length
              (chunks.map ImageChunkPlainMessage.chunk) with
            | .error message => .error message
            | .ok out =>
                .ok
                  { msg :=
                      { ts := ts
                        mime := mime
                        data := out
                        w := head.w
                        h := head.h
                        id := some head.id
                        replyTo := head.replyTo }
                    id := head.id
                    known := rfl }
        | _, _, _ => .error (js "missing image chunk header")

/-! ## Filing chunks -/

/-- Chunks of one payload with different indices. -/
structure Belong (head : Chunk) (chunks : List Chunk) : Prop where
  same : ∀ c ∈ chunks, c.id = head.id ∧ c.total = head.total
  distinct : (chunks.map Chunk.index).Nodup

theorem Belong.tail {head c : Chunk} {chunks : List Chunk}
    (belong : Belong head (c :: chunks)) : Belong head chunks :=
  ⟨fun other known => belong.same other (List.mem_cons_of_mem c known),
    (List.nodup_cons.mp belong.distinct).2⟩

/-- What is filed belongs together, and is found under its index. -/
theorem fileChunks_inv {head : Chunk} {chunks : List Chunk}
    {byIndex byIndex' : InsertionMap Nat Chunk}
    (filed : fileChunks head chunks byIndex = .ok byIndex') :
    Belong head chunks ∧ (∀ c ∈ chunks, byIndex.get? c.index = none) ∧
      ∀ i c, byIndex'.get? i = some c ↔
        byIndex.get? i = some c ∨ c ∈ chunks ∧ c.index = i := by
  induction chunks generalizing byIndex with
  | nil =>
      obtain rfl := Except.ok.inj filed
      exact ⟨⟨fun _ none => (nomatch none), List.nodup_nil⟩,
        fun _ none => (nomatch none), fun i c => by simp⟩
  | cons first chunks induction =>
      unfold fileChunks at filed
      split at filed
      · cases filed
      · rename_i same
        rw [not_or, not_not, not_not] at same
        split at filed
        · cases filed
        · rename_i fresh
          have absent : byIndex.get? first.index = none := by
            cases found : byIndex.get? first.index with
            | none => rfl
            | some c =>
                exact absurd (byIndex.contains_iff.mpr ⟨c, found⟩) fresh
          obtain ⟨belong, rest, entries⟩ := induction filed
          have apart : ∀ c ∈ chunks, c.index ≠ first.index := by
            intro c known equal
            have none := rest c known
            rw [equal, InsertionMap.get?_set_self] at none
            cases none
          refine ⟨⟨?_, ?_⟩, ?_, ?_⟩
          · intro c known
            rcases List.mem_cons.mp known with rfl | later
            · exact same
            · exact belong.same c later
          · rw [List.map_cons, List.nodup_cons]
            refine ⟨?_, belong.distinct⟩
            intro listed
            obtain ⟨c, known, equal⟩ := List.mem_map.mp listed
            exact apart c known equal
          · intro c known
            rcases List.mem_cons.mp known with rfl | later
            · exact absent
            · have none := rest c later
              rwa [InsertionMap.get?_set_of_ne _ _ (apart c later)] at none
          · intro i c
            rw [entries, InsertionMap.get?_set]
            by_cases here : i = first.index
            · subst here
              rw [if_pos rfl, absent]
              constructor
              · rintro (equal | ⟨later, equal⟩)
                · obtain rfl := Option.some.inj equal
                  exact .inr ⟨List.mem_cons_self, rfl⟩
                · exact absurd equal (apart c later)
              · rintro (none | ⟨known, equal⟩)
                · cases none
                · rcases List.mem_cons.mp known with rfl | later
                  · exact .inl rfl
                  · exact absurd equal (apart c later)
            · rw [if_neg here]
              constructor
              · rintro (old | ⟨later, equal⟩)
                · exact .inl old
                · exact .inr ⟨List.mem_cons_of_mem first later, equal⟩
              · rintro (old | ⟨known, equal⟩)
                · exact .inl old
                · rcases List.mem_cons.mp known with rfl | later
                  · exact absurd equal.symm here
                  · exact .inr ⟨later, equal⟩

/-- Chunks that belong together can be filed. -/
theorem Belong.filed {head : Chunk} {chunks : List Chunk}
    (belong : Belong head chunks) {byIndex : InsertionMap Nat Chunk}
    (fresh : ∀ c ∈ chunks, byIndex.get? c.index = none) :
    ∃ byIndex', fileChunks head chunks byIndex = .ok byIndex' := by
  induction chunks generalizing byIndex with
  | nil => exact ⟨byIndex, rfl⟩
  | cons first chunks induction =>
      obtain ⟨id, total⟩ := belong.same first List.mem_cons_self
      have absent := fresh first List.mem_cons_self
      have apart : first.index ∉ chunks.map Chunk.index :=
        (List.nodup_cons.mp belong.distinct).1
      have rest : ∀ c ∈ chunks,
          (byIndex.set first.index first).get? c.index = none := by
        intro c known
        have other : c.index ≠ first.index :=
          fun equal => apart (List.mem_map.mpr ⟨c, known, equal⟩)
        rw [InsertionMap.get?_set_of_ne _ _ other]
        exact fresh c (List.mem_cons_of_mem first known)
      obtain ⟨byIndex', filed⟩ := induction belong.tail rest
      refine ⟨byIndex', ?_⟩
      unfold fileChunks
      rw [if_neg (by simp [id, total]), if_neg]
      · exact filed
      · simp [InsertionMap.contains, absent]

/-! ## Copying chunks -/

theorem length_setBytes {out data : Bytes} {offset : Nat}
    (fits : offset + data.length ≤ out.length) :
    (setBytes out data offset).length = out.length := by
  simp only [setBytes, List.length_append, List.length_take, List.length_drop]
  omega

/-- Two writes, one behind the other. -/
theorem setBytes_setBytes {out data data' : Bytes} {offset : Nat}
    (fits : offset + data.length + data'.length ≤ out.length) :
    setBytes (setBytes out data offset) data' (offset + data.length) =
      setBytes out (data ++ data') offset := by
  have short : (out.take offset ++ data).length = offset + data.length := by
    simp only [List.length_append, List.length_take]
    omega
  unfold setBytes
  rw [List.take_left' short, List.append_assoc, ← List.drop_drop,
    List.drop_left' short, List.drop_drop, List.length_append]
  simp [Nat.add_assoc]

/-- The chunks under some indices are copied one after the other. -/
theorem copyChunks_inv {length : Nat} {byIndex : InsertionMap Nat Chunk}
    {indices : List Nat} {offset offset' : Nat} {out out' : Bytes}
    (copied : copyChunks length byIndex indices offset out =
      .ok (offset', out')) (whole : out.length = length)
    (inside : offset ≤ length) :
    ∃ ordered : List Chunk,
      indices.map byIndex.get? = ordered.map some ∧
      offset' = offset + (ordered.map Chunk.data).flatten.length ∧
      offset' ≤ length ∧
      out' = setBytes out (ordered.map Chunk.data).flatten offset := by
  induction indices generalizing offset out with
  | nil =>
      obtain ⟨rfl, rfl⟩ := Prod.mk.inj (Except.ok.inj copied)
      exact ⟨[], rfl, by simp, inside, by simp [setBytes]⟩
  | cons i indices induction =>
      unfold copyChunks at copied
      split at copied
      · cases copied
      · rename_i c found
        split at copied
        · cases copied
        · rename_i fits
          have fits := Nat.le_of_not_lt fits
          obtain ⟨ordered, present, count, bound, written⟩ := induction copied
            ((length_setBytes (whole ▸ fits)).trans whole) fits
          refine ⟨c :: ordered, ?_, ?_, bound, ?_⟩
          · rw [List.map_cons, List.map_cons, found, present]
          · rw [count, List.map_cons, List.flatten_cons, List.length_append,
              Nat.add_assoc]
          · rw [written, setBytes_setBytes (by omega)]
            rfl

theorem copyChunks_fits {length : Nat} {byIndex : InsertionMap Nat Chunk}
    {ordered : List Chunk} {indices : List Nat} {offset : Nat} {out : Bytes}
    (present : indices.map byIndex.get? = ordered.map some)
    (whole : out.length = length)
    (fits : offset + (ordered.map Chunk.data).flatten.length ≤ length) :
    copyChunks length byIndex indices offset out =
      .ok (offset + (ordered.map Chunk.data).flatten.length,
        setBytes out (ordered.map Chunk.data).flatten offset) := by
  induction indices generalizing offset out ordered with
  | nil =>
      have none : ordered = [] := by simpa using present.symm
      subst none
      simp [copyChunks, setBytes]
  | cons i indices induction =>
      cases ordered with
      | nil => cases present
      | cons c ordered =>
          obtain ⟨found, rest⟩ := List.cons.inj present
          rw [List.map_cons, List.flatten_cons, List.length_append] at fits
          unfold copyChunks
          rw [found]
          dsimp only
          rw [if_neg (by omega), induction rest
            ((length_setBytes (by omega)).trans whole) (by omega),
            setBytes_setBytes (by omega)]
          simp [Nat.add_assoc]

/-! ## Assembling -/

/-- The bytes come from one chunk for each index, in the order of the indices,
all with the id and the number of the first one. -/
structure FormedFrom (head : Chunk) (chunks : List Chunk) (out : Bytes) :
    Prop where
  same : ∀ c ∈ chunks, c.id = head.id ∧ c.total = head.total
  ordered : ∃ ordered : List Chunk, ordered.Perm chunks ∧
    ordered.map Chunk.index = List.range head.total ∧
    out = (ordered.map Chunk.data).flatten

theorem FormedFrom.perm {head : Chunk} {chunks chunks' : List Chunk}
    {out : Bytes} (formed : FormedFrom head chunks out)
    (permutation : chunks.Perm chunks') : FormedFrom head chunks' out := by
  obtain ⟨same, ordered, reordered, indices, bytes⟩ := formed
  exact ⟨fun c known => same c (permutation.mem_iff.mpr known), ordered,
    reordered.trans permutation, indices, bytes⟩

/-- A write of the whole array. -/
theorem setBytes_whole (data : Bytes) :
    setBytes (List.replicate data.length 0) data 0 = data := by
  simp [setBytes]

/-- Chunks that are found under their own indices. -/
theorem indices_of_present {find : Nat → Option Chunk} {indices : List Nat}
    {ordered : List Chunk} (present : indices.map find = ordered.map some)
    (own : ∀ i c, find i = some c → c.index = i) :
    ordered.map Chunk.index = indices := by
  induction indices generalizing ordered with
  | nil =>
      have none : ordered = [] := by simpa using present.symm
      rw [none]
      rfl
  | cons i indices induction =>
      cases ordered with
      | nil => cases present
      | cons c ordered =>
          obtain ⟨found, rest⟩ := List.cons.inj present
          rw [List.map_cons, own i c found, induction rest]

/-- The assembler succeeds exactly on the chunks of some bytes of the declared
length. -/
theorem assembleChunks_ok_iff {head : Chunk} {length : Nat}
    {chunks : List Chunk} {out : Bytes} :
    assembleChunks head length chunks = .ok out ↔
      FormedFrom head chunks out ∧ out.length = length := by
  constructor
  · intro assembled
    unfold assembleChunks at assembled
    split at assembled
    · cases assembled
    · rename_i complete
      rw [not_not] at complete
      split at assembled
      · cases assembled
      · rename_i byIndex filed
        obtain ⟨belong, -, entries⟩ := fileChunks_inv filed
        split at assembled
        · cases assembled
        · rename_i offset written copied
          split at assembled
          · cases assembled
          · rename_i filled
            rw [not_not] at filled
            obtain rfl := Except.ok.inj assembled
            obtain ⟨ordered, present, count, -, bytes⟩ :=
              copyChunks_inv copied List.length_replicate (Nat.zero_le length)
            rw [Nat.zero_add] at count
            rw [← filled, count, setBytes_whole] at bytes
            have total : ordered.length = head.total := by
              simpa using (congrArg List.length present).symm
            have listed : ∀ c ∈ ordered, c ∈ chunks := by
              intro c known
              have found : some c ∈ (List.range head.total).map byIndex.get? :=
                present ▸ List.mem_map_of_mem known
              obtain ⟨i, -, found⟩ := List.mem_map.mp found
              rcases (entries i c).mp found with none | ⟨member, -⟩
              · cases none
              · exact member
            have indices : ordered.map Chunk.index = List.range head.total := by
              apply indices_of_present present
              intro i c found
              rcases (entries i c).mp found with none | ⟨-, index⟩
              · cases none
              · exact index
            have distinct : ordered.Nodup :=
              List.Nodup.of_map Chunk.index (indices ▸ List.nodup_range)
            have reordered : ordered.Perm chunks :=
              (List.subperm_of_subset distinct listed).perm_of_length_le
                (complete.trans total.symm).le
            exact ⟨⟨belong.same, ordered, reordered, indices, bytes⟩,
              (congrArg List.length bytes).trans (count.symm.trans filled)⟩
  · rintro ⟨⟨same, ordered, reordered, indices, rfl⟩, rfl⟩
    have belong : Belong head chunks := by
      refine ⟨same, ?_⟩
      rw [← (reordered.map Chunk.index).nodup_iff, indices]
      exact List.nodup_range
    have complete : chunks.length = head.total := by
      rw [← reordered.length_eq, ← List.length_map Chunk.index, indices,
        List.length_range]
    obtain ⟨byIndex, filed⟩ := belong.filed fun _ _ => InsertionMap.get?_empty _
    obtain ⟨-, -, entries⟩ := fileChunks_inv filed
    have present : (List.range head.total).map byIndex.get? =
        ordered.map some := by
      rw [← indices, List.map_map]
      apply List.map_congr_left
      intro c known
      exact (entries c.index c).mpr (.inr ⟨reordered.mem_iff.mp known, rfl⟩)
    have copied := copyChunks_fits present
      (List.length_replicate (a := (0 : UInt8))) (Nat.zero_add _).le
    unfold assembleChunks
    rw [if_neg (not_not.mpr complete), filed]
    dsimp only
    rw [copied, setBytes_whole, Nat.zero_add]
    simp

/-! ## Splitting -/

theorem length_le_chunkCount (size : Nat) {chunkSize : Nat}
    (positive : 1 ≤ chunkSize) :
    size ≤ chunkCount size chunkSize * chunkSize := by
  have covered : size ≤ ceilDiv size chunkSize * chunkSize := by
    unfold ceilDiv
    have remainder := Nat.mod_lt (size + chunkSize - 1) positive
    have divided := Nat.div_add_mod (size + chunkSize - 1) chunkSize
    rw [Nat.mul_comm] at divided
    omega
  exact covered.trans (Nat.mul_le_mul_right _ (Nat.le_max_right _ _))

theorem chunkBytes_eq (data : Bytes) (chunkSize index : Nat) :
    chunkBytes data chunkSize index =
      (data.drop (index * chunkSize)).take chunkSize := by
  unfold chunkBytes
  rw [List.take_eq_take_min, List.length_drop]
  have width : min (index * chunkSize + chunkSize) data.length -
      index * chunkSize = min chunkSize (data.length - index * chunkSize) := by
    omega
  rw [← width]

/-- The first chunks carry the first bytes. -/
theorem flatten_chunkBytes (data : Bytes) (chunkSize count : Nat) :
    ((List.range count).map (chunkBytes data chunkSize)).flatten =
      data.take (count * chunkSize) := by
  induction count with
  | zero => simp
  | succ count induction =>
      rw [List.range_succ, List.map_append, List.flatten_append, induction,
        Nat.succ_mul, List.take_add]
      simp [chunkBytes_eq]

/-- Chunks that carry the bytes of some data, in any order. -/
theorem formedFrom_split {data : Bytes} {chunkSize : Nat} {id : JSString}
    (positive : 1 ≤ chunkSize) (head : Chunk) (headId : head.id = id)
    (headTotal : head.total = chunkCount data.length chunkSize) :
    FormedFrom head
      ((List.range (chunkCount data.length chunkSize)).map fun index =>
        ⟨id, index, chunkCount data.length chunkSize,
          chunkBytes data chunkSize index⟩) data := by
  refine ⟨?_, _, List.Perm.refl _, ?_, ?_⟩
  · intro c known
    obtain ⟨index, -, rfl⟩ := List.mem_map.mp known
    exact ⟨headId.symm, headTotal.symm⟩
  · rw [List.map_map, headTotal]
    exact List.map_id _
  · rw [List.map_map]
    have whole := flatten_chunkBytes data chunkSize
      (chunkCount data.length chunkSize)
    rw [List.take_of_length_le (length_le_chunkCount _ positive)] at whole
    exact whole.symm

/-- The first chunk, wherever it stands. -/
theorem find_first {α : Type} (index : α → Nat) {chunk : Nat → α}
    {count : Nat} {chunks : List α} (positive : 0 < count)
    (shuffled : chunks.Perm ((List.range count).map chunk))
    (own : ∀ i, index (chunk i) = i) :
    (chunks.find? fun c => index c = 0) = some (chunk 0) := by
  have first : chunk 0 ∈ chunks := by
    apply shuffled.mem_iff.mpr
    exact List.mem_map_of_mem (List.mem_range.mpr positive)
  cases found : chunks.find? fun c => index c = 0 with
  | none =>
      have none := List.find?_eq_none.mp found (chunk 0) first
      exact absurd (decide_eq_true (own 0)) none
  | some c =>
      have zero : index c = 0 := by simpa using List.find?_some found
      obtain ⟨i, -, rfl⟩ := List.mem_map.mp
        (shuffled.mem_iff.mp (List.mem_of_find?_eq_some found))
      rw [own] at zero
      rw [zero]

theorem chunkCount_pos (size chunkSize : Nat) : 0 < chunkCount size chunkSize :=
  Nat.lt_of_lt_of_le Nat.zero_lt_one (Nat.le_max_left _ _)

theorem ne_nil_of_find {α : Type} {test : α → Bool} {items : List α} {c : α}
    (found : items.find? test = some c) : items.length ≠ 0 := by
  intro empty
  obtain rfl := List.eq_nil_of_length_eq_zero empty
  cases found

theorem assembleHistoryChunks_ok_iff {chunks : List HistoryChunkPlainMessage}
    {out : Bytes} :
    assembleHistoryChunks chunks = .ok out ↔
      ∃ head, (chunks.find? fun c => c.index = 0) = some head ∧
        head.compressedLength = some out.length ∧
        FormedFrom head.chunk (chunks.map HistoryChunkPlainMessage.chunk)
          out := by
  unfold assembleHistoryChunks
  constructor
  · intro assembled
    split at assembled
    · cases assembled
    · split at assembled
      · cases assembled
      · rename_i head found
        split at assembled
        · cases assembled
        · rename_i length declared
          obtain ⟨formed, exact⟩ := assembleChunks_ok_iff.mp assembled
          exact ⟨head, found, exact ▸ declared, formed⟩
  · rintro ⟨head, found, declared, formed⟩
    rw [if_neg (ne_nil_of_find found), found]
    dsimp only
    rw [declared]
    exact assembleChunks_ok_iff.mpr ⟨formed, rfl⟩

theorem assembleImageChunks_ok_iff {chunks : List (ImageChunkPlainMessage ν)}
    {image : IdentifiedImage ν} :
    assembleImageChunks chunks = .ok image ↔
      ∃ head, (chunks.find? fun c => c.index = 0) = some head ∧
        head.ts = some image.msg.ts ∧ head.mime = some image.msg.mime ∧
        head.byteLength = some image.msg.data.length ∧
        head.w = image.msg.w ∧ head.h = image.msg.h ∧ head.id = image.id ∧
        head.replyTo = image.msg.replyTo ∧
        FormedFrom head.chunk (chunks.map ImageChunkPlainMessage.chunk)
          image.msg.data := by
  unfold assembleImageChunks
  constructor
  · intro assembled
    split at assembled
    · cases assembled
    · split at assembled
      · cases assembled
      · rename_i head found
        split at assembled
        · rename_i ts mime length sent shown declared
          split at assembled
          · cases assembled
          · rename_i out bytes
            obtain rfl := Except.ok.inj assembled
            obtain ⟨formed, exact⟩ := assembleChunks_ok_iff.mp bytes
            exact ⟨head, found, sent, shown, exact ▸ declared, rfl, rfl, rfl,
              rfl, formed⟩
        · cases assembled
  · rintro ⟨head, found, sent, shown, declared, w, h, id, replyTo, formed⟩
    rw [if_neg (ne_nil_of_find found), found]
    dsimp only
    rw [sent, shown, declared]
    dsimp only
    rw [assembleChunks_ok_iff.mpr ⟨formed, rfl⟩]
    apply congrArg Except.ok
    apply IdentifiedImage.ext
    · dsimp only
      rw [w, h, id, replyTo, ← image.known]
    · exact id

/-- Chunks assemble to what was split, in any order, and to nothing but the
bytes of one chunk for each index. -/
theorem chunks_round_trip :
    (∀ (requestId : JSString) (compressed : Bytes) (chunkSize : Nat),
      1 ≤ chunkSize → ∃ chunks,
        splitHistoryChunksBy requestId compressed chunkSize = .ok chunks ∧
        ∀ shuffled, shuffled.Perm chunks →
          assembleHistoryChunks shuffled = .ok compressed) ∧
    (∀ (image : IdentifiedImage ν) (chunkSize : Nat), 1 ≤ chunkSize →
      image.msg.data.length ≤ MAX_IMAGE_BYTES → ∃ chunks,
        splitImageChunks image chunkSize = .ok chunks ∧
        ∀ shuffled, shuffled.Perm chunks →
          assembleImageChunks shuffled = .ok image) ∧
    (∀ chunks out, assembleHistoryChunks chunks = .ok out →
      ∃ head ∈ chunks, head.index = 0 ∧
        head.compressedLength = some out.length ∧
        FormedFrom head.chunk (chunks.map HistoryChunkPlainMessage.chunk)
          out) ∧
    (∀ (chunks : List (ImageChunkPlainMessage ν)) image,
      assembleImageChunks chunks = .ok image →
        ∃ head ∈ chunks, head.index = 0 ∧
          head.byteLength = some image.msg.data.length ∧
          FormedFrom head.chunk (chunks.map ImageChunkPlainMessage.chunk)
            image.msg.data) := by
  refine ⟨?_, ?_, ?_, ?_⟩
  · intro requestId compressed chunkSize positive
    refine ⟨_, if_neg (Nat.not_lt.mpr positive), ?_⟩
    intro shuffled permutation
    have first := find_first HistoryChunkPlainMessage.index
      (chunkCount_pos _ _) permutation fun _ => rfl
    refine assembleHistoryChunks_ok_iff.mpr ⟨_, first, rfl, ?_⟩
    apply (formedFrom_split positive _ rfl rfl).perm
    have chunks := permutation.map HistoryChunkPlainMessage.chunk
    rw [List.map_map] at chunks
    exact chunks.symm
  · intro image chunkSize positive small
    refine ⟨_, (if_neg (Nat.not_lt.mpr positive)).trans
      (if_neg (Nat.not_lt.mpr small)), ?_⟩
    intro shuffled permutation
    have first := find_first ImageChunkPlainMessage.index
      (chunkCount_pos _ _) permutation fun _ => rfl
    refine assembleImageChunks_ok_iff.mpr
      ⟨_, first, rfl, rfl, rfl, rfl, rfl, rfl, rfl, ?_⟩
    apply (formedFrom_split positive _ rfl rfl).perm
    have chunks := permutation.map ImageChunkPlainMessage.chunk
    rw [List.map_map] at chunks
    exact chunks.symm
  · intro chunks out assembled
    obtain ⟨head, found, declared, formed⟩ :=
      assembleHistoryChunks_ok_iff.mp assembled
    have zero : head.index = 0 := by simpa using List.find?_some found
    exact ⟨head, List.mem_of_find?_eq_some found, zero, declared, formed⟩
  · intro chunks image assembled
    obtain ⟨head, found, -, -, declared, -, -, -, -, formed⟩ :=
      assembleImageChunks_ok_iff.mp assembled
    have zero : head.index = 0 := by simpa using List.find?_some found
    exact ⟨head, List.mem_of_find?_eq_some found, zero, declared, formed⟩

theorem chunks_round_trip_three :
    ∃ chunks, splitHistoryChunksBy (js "r") [1, 2, 3] 2 = .ok chunks ∧
      chunks.length = 2 ∧
      assembleHistoryChunks chunks.reverse = .ok [1, 2, 3] := by
  obtain ⟨chunks, cut, assembles⟩ :=
    (@chunks_round_trip Nat).1 (js "r") [1, 2, 3] 2 (by decide)
  refine ⟨chunks, cut, ?_, assembles _ (List.reverse_perm chunks)⟩
  rw [← Except.ok.inj cut]
  rfl

end Byteln.Client

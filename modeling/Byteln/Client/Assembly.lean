import Byteln.Client.Transfer

/-!
# Slicing and assembling a payload

The sender cuts a payload into slices of `TRANSFER_CHUNK_BYTES`; the receiver
copies the parts one after the other.  Parts that are the slices of a payload
assemble to the payload.
-/

namespace Byteln.Client

/-- The bytes of a payload that the chunk at an index carries. -/
def slice (data : Bytes) (index : Nat) : Bytes :=
  (data.drop (index * TRANSFER_CHUNK_BYTES)).take TRANSFER_CHUNK_BYTES

theorem Outgoing.chunk_data (o : Outgoing) (index : Nat)
    (size : o.header.size = o.data.length) :
    (o.chunk index).data = slice o.data index := by
  unfold Outgoing.chunk slice
  simp only [size]
  rw [← List.take_eq_take_min, List.drop_take]
  congr 1
  omega

/-- The first slices of a payload are its first bytes. -/
theorem flatten_slices (data : Bytes) (count : Nat) :
    ((List.range count).map (slice data)).flatten =
      data.take (count * TRANSFER_CHUNK_BYTES) := by
  induction count with
  | zero => simp
  | succ count induction =>
      rw [List.range_succ, List.map_append, List.flatten_append, induction,
        Nat.succ_mul, List.take_add]
      simp [slice]

theorem length_le_chunks (size : Nat) :
    size ≤ transferChunkCount size * TRANSFER_CHUNK_BYTES := by
  have positive : 0 < TRANSFER_CHUNK_BYTES := by decide
  have covered : size ≤ ceilDiv size TRANSFER_CHUNK_BYTES *
      TRANSFER_CHUNK_BYTES := by
    unfold ceilDiv
    have remainder := Nat.mod_lt (size + TRANSFER_CHUNK_BYTES - 1) positive
    have divided := Nat.div_add_mod (size + TRANSFER_CHUNK_BYTES - 1)
      TRANSFER_CHUNK_BYTES
    rw [Nat.mul_comm] at divided
    omega
  exact covered.trans (Nat.mul_le_mul_right _ (Nat.le_max_right _ _))

theorem flatten_all_slices (data : Bytes) :
    ((List.range (transferChunkCount data.length)).map (slice data)).flatten =
      data := by
  rw [flatten_slices]
  exact List.take_of_length_le (length_le_chunks _)

/-- Parts fill the buffer only if all of them are there. -/
theorem assemble_filled {size : Nat} {parts : List (Option Bytes)}
    {copied data : Bytes} {offset : Nat}
    (filled : assemble size parts copied = .filled data offset) :
    ∃ held : List Bytes, parts = held.map some ∧
      data = copied ++ held.flatten ++
        List.replicate (size - (copied ++ held.flatten).length) 0 := by
  induction parts generalizing copied with
  | nil =>
      simp only [assemble, Assembly.filled.injEq] at filled
      exact ⟨[], rfl, by simp [← filled.1]⟩
  | cons part parts induction =>
      cases part with
      | none => simp [assemble] at filled
      | some p =>
          simp only [assemble] at filled
          split at filled
          · simp at filled
          · obtain ⟨held, rfl, whole⟩ := induction filled
            refine ⟨p :: held, rfl, ?_⟩
            rw [whole]
            simp

/-- Parts that fit are copied one after the other. -/
theorem assemble_fits (size : Nat) (held : List Bytes) (copied : Bytes)
    (fits : (copied ++ held.flatten).length ≤ size) :
    assemble size (held.map some) copied =
      .filled (copied ++ held.flatten ++
        List.replicate (size - (copied ++ held.flatten).length) 0)
        (copied ++ held.flatten).length := by
  induction held generalizing copied with
  | nil => simp [assemble]
  | cons part held induction =>
      have shorter : ¬copied.length + part.length > size := by
        simp only [List.flatten_cons, List.length_append] at fits
        omega
      rw [List.flatten_cons, ← List.append_assoc] at fits ⊢
      rw [List.map_cons, assemble, if_neg shorter]
      exact induction _ fits

theorem assemble_missing (size : Nat) {parts : List (Option Bytes)}
    {index : Nat} (missing : parts[index]? = some none) :
    assemble size parts [] = .missing ∨ assemble size parts [] = .overflow := by
  cases result : assemble size parts [] with
  | missing => exact .inl rfl
  | overflow => exact .inr rfl
  | filled data offset =>
      obtain ⟨held, rfl, -⟩ := assemble_filled result
      simp at missing

/-- Parts of which none is missing. -/
theorem full_of_none_missing {parts : List (Option Bytes)}
    (full : ∀ index : Nat, parts[index]? ≠ some none) :
    ∃ held : List Bytes, parts = held.map some := by
  induction parts with
  | nil => exact ⟨[], rfl⟩
  | cons part parts induction =>
      cases part with
      | none => exact absurd rfl (full 0)
      | some part =>
          obtain ⟨held, rfl⟩ := induction fun index => full (index + 1)
          exact ⟨part :: held, rfl⟩

/-- Parts that are slices of a payload assemble to the payload. -/
theorem assemble_slices {payload data : Bytes} {parts : List (Option Bytes)}
    {offset : Nat} (count : parts.length = transferChunkCount payload.length)
    (slices : ∀ index part, parts[index]? = some (some part) →
      part = slice payload index)
    (filled : assemble payload.length parts [] = .filled data offset) :
    data = payload := by
  obtain ⟨held, rfl, whole⟩ := assemble_filled filled
  have cut : held = (List.range (transferChunkCount payload.length)).map
      (slice payload) := by
    apply List.ext_getElem?
    intro index
    rw [List.length_map] at count
    by_cases inBounds : index < held.length
    · have part := slices index held[index] (by simp [inBounds])
      simp [inBounds, count ▸ inBounds, part]
    · simp [inBounds, ← count]
  rw [cut, flatten_all_slices] at whole
  simpa using whole

theorem setPart_length {parts : List (Option Bytes)} {index : Nat}
    (data : Bytes) (bound : index < parts.length) :
    (setPart parts index data).length = parts.length := by
  unfold setPart
  rw [List.length_set, List.length_append, List.length_replicate]
  omega

theorem getElem?_setPart {parts : List (Option Bytes)} {index : Nat}
    {data : Bytes} (bound : index < parts.length) (other : Nat) :
    (setPart parts index data)[other]? =
      if other = index then some (some data) else parts[other]? := by
  unfold setPart
  have enough : index + 1 - parts.length = 0 := by omega
  rw [enough, List.replicate_zero, List.append_nil, List.getElem?_set]
  by_cases here : other = index
  · subst here
    simp [bound]
  · simp [here, Ne.symm here]

end Byteln.Client

import Mathlib.Data.List.Basic

/-!
# Authenticated encryption

Encryption that binds additional data, as an interface with its ideal laws,
and records of it with the initialization vector in front.
-/

namespace Byteln.Library

/-- Encryption and decryption with a key, an initialization vector and
additional data. -/
structure Aead where
  encrypt : List UInt8 → List UInt8 → List UInt8 → List UInt8 → List UInt8
  decrypt : List UInt8 → List UInt8 → List UInt8 → List UInt8 →
    Option (List UInt8)

/-- A ciphertext opens to its text, is the only one to do so, and belongs to
one key, vector and additional data.  It ends in a tag of 16 bytes. -/
structure Aead.Ideal (aead : Aead) : Prop where
  opens : ∀ key iv data text,
    aead.decrypt key iv data (aead.encrypt key iv data text) = some text
  made : ∀ key iv data ct text, aead.decrypt key iv data ct = some text →
    ct = aead.encrypt key iv data text
  binds : ∀ {key key' iv iv' data data' text text'},
    aead.encrypt key iv data text = aead.encrypt key' iv' data' text' →
    key = key' ∧ iv = iv' ∧ data = data'
  tag : ∀ key iv data text, 16 ≤ (aead.encrypt key iv data text).length

namespace Aead

variable {aead : Aead}

/-- What becomes of a ciphertext. -/
theorem Ideal.decrypt_encrypt (ideal : aead.Ideal)
    (key key' iv iv' data data' text : List UInt8) :
    aead.decrypt key' iv' data' (aead.encrypt key iv data text) =
      if key' = key ∧ iv' = iv ∧ data' = data then some text else none := by
  split
  · rename_i same
    obtain ⟨rfl, rfl, rfl⟩ := same
    exact ideal.opens _ _ _ text
  · rename_i apart
    cases opened : aead.decrypt key' iv' data'
        (aead.encrypt key iv data text) with
    | none => rfl
    | some text' =>
        obtain ⟨rfl, rfl, rfl⟩ := ideal.binds
          (ideal.made _ _ _ _ _ opened)
        exact absurd ⟨rfl, rfl, rfl⟩ apart

/-! ## Records -/

/-- The length of an initialization vector. -/
def ivLength : Nat := 12

/-- A version, an initialization vector, and the ciphertext. -/
def record (aead : Aead) (version : UInt8) (key iv data text : List UInt8) :
    List UInt8 :=
  version :: (iv ++ aead.encrypt key iv data text)

def openRecord (aead : Aead) (version : UInt8)
    (key data bytes : List UInt8) : Option (List UInt8) :=
  if bytes.length < 1 + ivLength + 1 ∨ bytes.head? ≠ some version then none
  else
    aead.decrypt key ((bytes.drop 1).take ivLength) data
      (bytes.drop (1 + ivLength))

/-- What becomes of a record. -/
theorem Ideal.openRecord_record (ideal : aead.Ideal) {iv : List UInt8}
    (length : iv.length = ivLength) (version : UInt8)
    (key key' data data' text : List UInt8) :
    aead.openRecord version key' data' (aead.record version key iv data text) =
      if key' = key ∧ data' = data then some text else none := by
  have tag := ideal.tag key iv data text
  have long : ¬ ((aead.record version key iv data text).length <
      1 + ivLength + 1 ∨
      (aead.record version key iv data text).head? ≠ some version) := by
    unfold record
    rw [List.length_cons, List.length_append, List.head?_cons]
    simp
    omega
  have vector : ((aead.record version key iv data text).drop 1).take
      ivLength = iv := by
    unfold record
    rw [List.drop_succ_cons, List.drop_zero, ← length, List.take_left]
  have rest : (aead.record version key iv data text).drop (1 + ivLength) =
      aead.encrypt key iv data text := by
    unfold record
    rw [Nat.add_comm, List.drop_succ_cons, ← length, List.drop_left]
  unfold openRecord
  rw [if_neg long, vector, rest, ideal.decrypt_encrypt]
  simp

/-! ## The laws can be met -/

/-- Bytes with a mark before each of them and one at their end. -/
def marked : List UInt8 → List UInt8
  | [] => [0]
  | b :: rest => 1 :: b :: marked rest

theorem marked_append_inj {xs ys rest rest' : List UInt8}
    (same : marked xs ++ rest = marked ys ++ rest') :
    xs = ys ∧ rest = rest' := by
  induction xs generalizing ys with
  | nil =>
      cases ys with
      | nil => exact ⟨rfl, (List.cons.inj same).2⟩
      | cons y ys => exact absurd (List.cons.inj same).1 (by decide)
  | cons x xs induction =>
      cases ys with
      | nil => exact absurd (List.cons.inj same).1 (by decide)
      | cons y ys =>
          obtain ⟨first, later⟩ := List.cons.inj (List.cons.inj same).2
          obtain ⟨rfl, rfl⟩ := induction later
          exact ⟨first ▸ rfl, rfl⟩

/-- What the encryption below puts in front of a text. -/
def front (key iv data : List UInt8) : List UInt8 :=
  List.replicate 16 0 ++ (marked key ++ (marked iv ++ marked data))

/-- An encryption that hides nothing, but meets the laws. -/
def plain : Aead where
  encrypt key iv data text := front key iv data ++ text
  decrypt key iv data ct :=
    if (front key iv data).isPrefixOf ct then
      some (ct.drop (front key iv data).length)
    else none

theorem ideal_plain : plain.Ideal where
  opens key iv data text := by
    have starts : (front key iv data).isPrefixOf (front key iv data ++ text) :=
      List.isPrefixOf_iff_prefix.mpr (List.prefix_append _ _)
    simp only [plain, if_pos starts, List.drop_left]
  made key iv data ct text opened := by
    simp only [plain] at opened
    split at opened
    · rename_i starts
      obtain ⟨rest, rfl⟩ := List.isPrefixOf_iff_prefix.mp starts
      rw [List.drop_left] at opened
      rw [Option.some.inj opened]
      rfl
    · cases opened
  binds same := by
    simp only [plain, front, List.append_assoc,
      List.append_cancel_left_eq] at same
    obtain ⟨key, same⟩ := marked_append_inj same
    obtain ⟨iv, same⟩ := marked_append_inj same
    exact ⟨key, iv, (marked_append_inj same).1⟩
  tag key iv data text := by
    simp only [plain, front, List.length_append, List.length_replicate]
    omega

end Aead

end Byteln.Library

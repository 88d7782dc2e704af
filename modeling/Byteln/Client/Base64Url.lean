import Byteln.Library.Btoa

/-!
# Base64 of keys and payloads

Bytes in links and files: base64 with the alphabet of URLs and without
padding, and standard base64.
-/

namespace Byteln.Client

open Byteln.Library

/-- What stands for a character of base64 in a link. -/
def toUrlUnit (u : UInt16) : UInt16 :=
  if u = 0x2b then 0x2d else if u = 0x2f then 0x5f else u

/-- What a character of a link stands for. -/
def ofUrlUnit (u : UInt16) : UInt16 :=
  if u = 0x2d then 0x2b else if u = 0x5f then 0x2f else u

def bytesToBase64Url (bytes : List UInt8) : JSString :=
  ((btoa bytes).map toUrlUnit).rdropWhile fun u => u = paddingUnit

/-- Nothing is returned where the source throws. -/
def base64UrlToBytes (s : JSString) : Option (List UInt8) :=
  let pad := if s.length % 4 = 0 then 0 else 4 - s.length % 4
  atob (s.map ofUrlUnit ++ List.replicate pad paddingUnit)

def bytesToBase64 (bytes : List UInt8) : JSString :=
  btoa bytes

def base64ToBytes (s : JSString) : Option (List UInt8) :=
  atob s

/-- `[A-Za-z0-9_-]`. -/
def isBase64Url (u : UInt16) : Bool :=
  (0x41 ≤ u && u ≤ 0x5a) || (0x61 ≤ u && u ≤ 0x7a) ||
    (0x30 ≤ u && u ≤ 0x39) || u = 0x5f || u = 0x2d

theorem toUrlUnit_of_base64 :
    ∀ u ∈ base64.chars, isBase64Url (toUrlUnit u) = true ∧
      toUrlUnit u ≠ paddingUnit ∧ ofUrlUnit (toUrlUnit u) = u := by
  have all : (base64.chars.all fun u => isBase64Url (toUrlUnit u) &&
      (toUrlUnit u != paddingUnit && ofUrlUnit (toUrlUnit u) == u)) =
      true :=
    rfl
  intro u member
  simpa using List.all_eq_true.mp all u member

theorem bytesToBase64Url_eq (bytes : List UInt8) :
    bytesToBase64Url bytes = (base64.encode bytes).map toUrlUnit := by
  have pads : (List.replicate ((3 - bytes.length % 3) % 3)
      paddingUnit).map toUrlUnit =
      List.replicate ((3 - bytes.length % 3) % 3) paddingUnit :=
    List.map_replicate
  unfold bytesToBase64Url btoa List.rdropWhile
  rw [List.map_append, pads, List.reverse_append, List.reverse_replicate,
    List.dropWhile_append_of_pos]
  · have kept : ((base64.encode bytes).map toUrlUnit).reverse.dropWhile
        (fun u => u = paddingUnit) =
        ((base64.encode bytes).map toUrlUnit).reverse := by
      cases text : ((base64.encode bytes).map toUrlUnit).reverse with
      | nil => rfl
      | cons u rest =>
          have inside : u ∈ (base64.encode bytes).map toUrlUnit := by
            rw [← List.mem_reverse, text]
            exact List.mem_cons_self
          obtain ⟨v, member, rfl⟩ := List.mem_map.mp inside
          apply List.dropWhile_cons_of_neg
          simpa using (toUrlUnit_of_base64 v (base64.mem_encode member)).2.1
    rw [kept, List.reverse_reverse]
  · intro u member
    simpa using List.eq_of_mem_replicate member

theorem isBase64Url_of_mem {bytes : List UInt8} {u : UInt16}
    (member : u ∈ bytesToBase64Url bytes) : isBase64Url u = true := by
  rw [bytesToBase64Url_eq] at member
  obtain ⟨v, inside, rfl⟩ := List.mem_map.mp member
  exact (toUrlUnit_of_base64 v (base64.mem_encode inside)).1

theorem bytesToBase64Url_ne_nil {bytes : List UInt8} (some_ : bytes ≠ []) :
    bytesToBase64Url bytes ≠ [] := by
  rw [bytesToBase64Url_eq]
  unfold Alphabet.encode
  rw [List.map_map, ne_eq, List.map_eq_nil_iff, sextets_eq_nil]
  exact some_

/-- Bytes survive a link. -/
theorem base64UrlToBytes_bytesToBase64Url (bytes : List UInt8) :
    base64UrlToBytes (bytesToBase64Url bytes) = some bytes := by
  have back : (bytesToBase64Url bytes).map ofUrlUnit =
      base64.encode bytes := by
    rw [bytesToBase64Url_eq, List.map_map]
    have each : (base64.encode bytes).map (ofUrlUnit ∘ toUrlUnit) =
        (base64.encode bytes).map id := by
      apply List.map_congr_left
      intro u member
      exact (toUrlUnit_of_base64 u (base64.mem_encode member)).2.2
    rw [each, List.map_id]
  have length : (bytesToBase64Url bytes).length =
      (4 * bytes.length + 2) / 3 := by
    rw [bytesToBase64Url_eq, List.length_map]
    unfold Alphabet.encode
    rw [List.length_map, length_sextets]
  have encoded : (base64.encode bytes).length =
      (4 * bytes.length + 2) / 3 := by
    unfold Alphabet.encode
    rw [List.length_map, length_sextets]
  unfold base64UrlToBytes
  dsimp only
  rw [back, length,
    atob_append (fun u member => base64.mem_encode member),
    base64.decode_encode]
  · split
    · omega
    · have rest : (4 * bytes.length + 2) / 3 % 4 ≠ 1 := by omega
      omega
  · rw [encoded]
    split <;> omega

theorem bytesToBase64Url_injective {bytes bytes' : List UInt8}
    (same : bytesToBase64Url bytes = bytesToBase64Url bytes') :
    bytes = bytes' := by
  have read := congrArg base64UrlToBytes same
  rw [base64UrlToBytes_bytesToBase64Url,
    base64UrlToBytes_bytesToBase64Url] at read
  exact Option.some.inj read

end Byteln.Client

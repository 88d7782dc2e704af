import Byteln.Library.Base64
import Byteln.Library.CodeUnits

/-!
# Base64 texts of the web

`btoa` writes bytes as a padded base64 text; `atob` reads such texts, with or
without their padding.
-/

namespace Byteln.Library

/-- The standard alphabet. -/
def base64 : Alphabet UInt16 where
  chars := js ("ABCDEFGHIJKLMNOPQRSTUVWXYZabcdefghijklmnopqrstuvwxyz" ++
    "0123456789+/")
  length := by decide +kernel
  distinct := by decide +kernel

def paddingUnit : UInt16 :=
  0x3d

def btoa (bytes : List UInt8) : JSString :=
  base64.encode bytes ++ List.replicate ((3 - bytes.length % 3) % 3) paddingUnit

def isAsciiWhitespace (u : UInt16) : Bool :=
  u = 0x09 || u = 0x0a || u = 0x0c || u = 0x0d || u = 0x20

/-- A text without up to two padding characters at its end. -/
def dropPadding (s : JSString) : JSString :=
  if s.getLast? = some paddingUnit then
    if s.dropLast.getLast? = some paddingUnit then s.dropLast.dropLast
    else s.dropLast
  else s

/-- Reads a base64 text; nothing is returned where the source throws. -/
def atob (s : JSString) : Option (List UInt8) :=
  let text := s.filter fun u => !isAsciiWhitespace u
  base64.decode (if text.length % 4 = 0 then dropPadding text else text)

/-! ## Padded texts -/

theorem length_sextets (bytes : List UInt8) :
    (sextets bytes).length = (4 * bytes.length + 2) / 3 := by
  induction bytes using sextets.induct with
  | case1 a b c rest induction =>
      simp only [sextets, List.length_cons, induction]
      omega
  | case2 a b => simp [sextets]
  | case3 a => simp [sextets]
  | case4 => simp [sextets]

theorem chars_of_base64 :
    ∀ u ∈ base64.chars, isAsciiWhitespace u = false ∧ u ≠ paddingUnit := by
  have all : (base64.chars.all fun u =>
      !isAsciiWhitespace u && u != paddingUnit) = true :=
    rfl
  intro u member
  simpa using List.all_eq_true.mp all u member

theorem filter_base64 {s : JSString} (inside : ∀ u ∈ s, u ∈ base64.chars) :
    (s.filter fun u => !isAsciiWhitespace u) = s := by
  rw [List.filter_eq_self]
  intro u member
  rw [(chars_of_base64 u (inside u member)).1]
  rfl

theorem dropPadding_append {s : JSString}
    (inside : ∀ u ∈ s, u ∈ base64.chars) {count : Nat} (few : count ≤ 2) :
    dropPadding (s ++ List.replicate count paddingUnit) = s := by
  have last : s.getLast? ≠ some paddingUnit := by
    intro same
    exact (chars_of_base64 _ (inside _ (List.mem_of_getLast? same))).2 rfl
  have options : count = 0 ∨ count = 1 ∨ count = 2 := by omega
  rcases options with rfl | rfl | rfl
  · rw [List.replicate_zero, List.append_nil, dropPadding, if_neg last]
  · have one : s ++ List.replicate 1 paddingUnit = s ++ [paddingUnit] := rfl
    rw [one, dropPadding, List.getLast?_concat, if_pos rfl,
      List.dropLast_concat, if_neg last]
  · have two : s ++ List.replicate 2 paddingUnit =
        (s ++ [paddingUnit]) ++ [paddingUnit] := by
      simp
    rw [two, dropPadding, List.getLast?_concat, if_pos rfl,
      List.dropLast_concat, List.getLast?_concat, if_pos rfl,
      List.dropLast_concat]

/-- A padded text is read as what it pads. -/
theorem atob_append {s : JSString} (inside : ∀ u ∈ s, u ∈ base64.chars)
    {count : Nat} (few : count ≤ 2) (whole : (s.length + count) % 4 = 0) :
    atob (s ++ List.replicate count paddingUnit) = base64.decode s := by
  have pads : (List.replicate count paddingUnit).filter
      (fun u => !isAsciiWhitespace u) = List.replicate count paddingUnit := by
    rw [List.filter_eq_self]
    intro u member
    rw [List.eq_of_mem_replicate member]
    decide
  unfold atob
  rw [List.filter_append, filter_base64 inside, pads]
  dsimp only
  rw [if_pos (by simpa using whole), dropPadding_append inside few]

theorem atob_btoa (bytes : List UInt8) : atob (btoa bytes) = some bytes := by
  unfold btoa
  rw [atob_append (fun u member => base64.mem_encode member) (by omega),
    base64.decode_encode]
  have rest : bytes.length % 3 = 0 ∨ bytes.length % 3 = 1 ∨
      bytes.length % 3 = 2 := by omega
  unfold Alphabet.encode
  rw [List.length_map, length_sextets]
  rcases rest with rest | rest | rest
  · rw [rest]
    omega
  · rw [rest]
    omega
  · rw [rest]
    omega

end Byteln.Library

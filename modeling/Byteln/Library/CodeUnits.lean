import Mathlib

/-!
# Strings of code units

JavaScript strings are sequences of 16-bit code units, which need not be
well-formed UTF-16.
-/

namespace Byteln.Library

abbrev JSString := List UInt16

instance : LawfulBEq JSString :=
  inferInstanceAs (LawfulBEq (List UInt16))

/-- The code units of a character: one, or a surrogate pair. -/
def utf16 (c : Char) : JSString :=
  if c.toNat < 0x10000 then [UInt16.ofNat c.toNat]
  else
    [UInt16.ofNat (0xD800 + (c.toNat - 0x10000) / 0x400),
      UInt16.ofNat (0xDC00 + (c.toNat - 0x10000) % 0x400)]

/-- A string literal of the source. -/
def js (text : String) : JSString :=
  text.toList.flatMap utf16

/-- The code unit of a hexadecimal digit. -/
def hexUnit (n : Nat) : UInt16 :=
  UInt16.ofNat (if n < 10 then 0x30 + n else 0x57 + n)

end Byteln.Library

import Byteln.Client.Messages

/-!
# Names and types of attachments

The checks that a file name and a media type from the peer go through.  The
canonical composition of Unicode (`normalize('NFC')`) is a parameter.
-/

namespace Byteln.Client

open Byteln.Library

def MAX_FILE_NAME_LENGTH : Nat := 200

def MAX_MIME_LENGTH : Nat := 100

/-- The code unit lies between two others. -/
def within (low high : Nat) (unit : UInt16) : Bool :=
  low ≤ unit.toNat && unit.toNat ≤ high

/-! ## Media types -/

/-- `[a-z0-9]`, ignoring case. -/
def isMimeStart (unit : UInt16) : Bool :=
  within 0x61 0x7a unit || within 0x41 0x5a unit || within 0x30 0x39 unit

/-- `[a-z0-9!#$&^_.+-]`, ignoring case. -/
def isMimeUnit (unit : UInt16) : Bool :=
  isMimeStart unit || unit ∈ js "!#$&^_.+-"

def isMimeToken : JSString → Bool
  | [] => false
  | first :: rest => isMimeStart first && rest.all isMimeUnit

def isValidMime (mime : JSString) : Bool :=
  0 < mime.length && mime.length ≤ MAX_MIME_LENGTH &&
    match mime.splitOnP fun unit => unit ∈ js "/" with
    | [type, subtype] => isMimeToken type && isMimeToken subtype
    | _ => false

/-! ## File names -/

/-- The white space and line ends that `trim` removes. -/
def isWhiteSpace (unit : UInt16) : Bool :=
  within 0x09 0x0d unit || unit.toNat = 0x20 || unit.toNat = 0xa0 ||
    unit.toNat = 0x1680 || within 0x2000 0x200a unit ||
    within 0x2028 0x2029 unit || unit.toNat = 0x202f || unit.toNat = 0x205f ||
    unit.toNat = 0x3000 || unit.toNat = 0xfeff

def trim (text : JSString) : JSString :=
  ((text.dropWhile isWhiteSpace).reverse.dropWhile isWhiteSpace).reverse

/-- Control and formatting characters, those that turn the writing direction
among them. -/
def isFormatUnit (unit : UInt16) : Bool :=
  within 0x00 0x1f unit || within 0x7f 0x9f unit || unit.toNat = 0x061c ||
    within 0x200b 0x200f unit || within 0x202a 0x202e unit ||
    within 0x2066 0x2069 unit || unit.toNat = 0xfeff

/-- The last path component, without formatting characters, reserved
characters or leading dots; `file` when nothing is left. -/
def sanitizeFileName (nfc : JSString → JSString) (raw : JSString) : JSString :=
  let base := (raw.splitOnP fun unit => unit ∈ js "\\/").getLastD []
  let cleaned := trim <|
    ((nfc base).filter fun unit => !isFormatUnit unit).map fun unit =>
      if unit ∈ js "<>:\"|?*" then 0x5f else unit
  let undotted := cleaned.dropWhile fun unit => unit ∈ js "."
  let trimmed := trim (undotted.take MAX_FILE_NAME_LENGTH)
  if trimmed = [] then js "file" else trimmed

example : sanitizeFileName id (js "../a/..\\.evil?.pdf ") = js "evil_.pdf" := by
  decide

end Byteln.Client

import Mathlib.Algebra.Ring.Int.Defs
import Mathlib.Data.List.Nodup
import Byteln.Library.Base64
import Byteln.Server.GoStrings

/-!
# Proof of work, the relay's half

Challenges carry a nonce and their expiry and are signed, so that nothing has
to be kept to check a solution.  HMAC-SHA256 and SHA-256 are parameters.
-/

namespace Byteln.Server

open Byteln.Library

/-- `base64.RawURLEncoding`. -/
def rawURLEncoding : Alphabet UInt8 where
  chars := ascii
    "ABCDEFGHIJKLMNOPQRSTUVWXYZabcdefghijklmnopqrstuvwxyz0123456789-_"
  length := by decide
  distinct := by decide +kernel

/-- `DecodeString`, which ignores line ends. -/
def rawURLDecodeString (s : GoString) : Option (List UInt8) :=
  rawURLEncoding.decode (s.filter fun b => b != 0x0D && b != 0x0A)

/-- `binary.BigEndian.PutUint64`. -/
def putUint64 (n : UInt64) : List UInt8 :=
  [56, 48, 40, 32, 24, 16, 8, 0].map fun bits => UInt8.ofNat (n.toNat >>> bits)

/-- `binary.BigEndian.Uint64`. -/
def bigEndianUint64 (buf : List UInt8) : UInt64 :=
  UInt64.ofNat ((buf.take 8).foldl (fun n b => n * 256 + b.toNat) 0)

/-- In seconds. -/
def powChallengeTTL : Int64 := 30

/-- A time, in Unix seconds, to which the lifetime of a challenge can be
added. -/
structure IssueTime where
  unix : Int64
  fits : unix.toInt + 30 < 2 ^ 63

/-- What `rand.Read` writes. -/
structure Nonce where
  bytes : List UInt8
  length : bytes.length = 16

/-- The hash functions. -/
structure Hashes where
  hmac : List UInt8 → List UInt8 → List UInt8
  sha256 : List UInt8 → List UInt8

def IssueTime.expiry (now : IssueTime) : Int64 :=
  now.unix + powChallengeTTL

/-- What a challenge signs. -/
def challengeBuf (nonce : Nonce) (now : IssueTime) : List UInt8 :=
  nonce.bytes ++ putUint64 now.expiry.toUInt64

def issuePowChallenge (hashes : Hashes) (powSecret : List UInt8)
    (nonce : Nonce) (now : IssueTime) : GoString :=
  let buf := challengeBuf nonce now
  rawURLEncoding.encode buf ++ ascii "." ++
    rawURLEncoding.encode (hashes.hmac powSecret buf)

/-- `bits.Len8`. -/
def len8 (x : UInt8) : Nat :=
  if x = 0 then 0 else x.toNat.log2 + 1

/-- `bits.LeadingZeros8`. -/
def leadingZeros8 (x : UInt8) : Nat :=
  8 - len8 x

def leadingZeroBits : List UInt8 → Nat
  | [] => 0
  | b :: h => if b = 0 then 8 + leadingZeroBits h else leadingZeros8 b

/-- Check a parameter `<challenge>:<solution>`. -/
def verifyPow (hashes : Hashes) (powSecret : List UInt8)
    (powDifficultyBits : Int) (now : Int64) (param : GoString) : Bool :=
  match splitOnce param 0x3A with
  | none => false
  | some (challenge, solution) =>
      if solution = [] then false
      else
        match splitOnce challenge 0x2E with
        | none => false
        | some (nonceB64, sigB64) =>
            match rawURLDecodeString nonceB64, rawURLDecodeString sigB64 with
            | some buf, some sig =>
                if buf.length ≠ 24 then false
                else if sig ≠ hashes.hmac powSecret buf then false
                else
                  let expiry := (bigEndianUint64 (buf.drop 16)).toInt64
                  if expiry < now then false
                  else
                    powDifficultyBits ≤
                      leadingZeroBits (hashes.sha256 (challenge ++ solution))
            | _, _ => false

/-! ## Challenges -/

theorem urlChars : ∀ c ∈ rawURLEncoding.chars,
    c ≠ 0x3A ∧ c ≠ 0x2E ∧ c ≠ 0x0D ∧ c ≠ 0x0A ∧ c.toNat < 0x80 := by
  have all : rawURLEncoding.chars.all (fun c => c != 0x3A && c != 0x2E &&
      c != 0x0D && c != 0x0A && c.toNat < 0x80) = true :=
    rfl
  intro c member
  simpa [and_assoc] using List.all_eq_true.mp all c member

theorem rawURLDecodeString_encode (bytes : List UInt8) :
    rawURLDecodeString (rawURLEncoding.encode bytes) = some bytes := by
  have lines : (rawURLEncoding.encode bytes).filter
      (fun b => b != 0x0D && b != 0x0A) = rawURLEncoding.encode bytes := by
    rw [List.filter_eq_self]
    intro c member
    obtain ⟨-, -, cr, lf, -⟩ := urlChars c (rawURLEncoding.mem_encode member)
    simp [cr, lf]
  unfold rawURLDecodeString
  rw [lines]
  exact rawURLEncoding.decode_encode bytes

theorem bigEndianUint64_putUint64 (n : UInt64) :
    bigEndianUint64 (putUint64 n) = n := by
  have small := n.toNat_lt
  have sum : ((putUint64 n).take 8).foldl
      (fun n b => n * 256 + b.toNat) 0 = n.toNat := by
    simp only [putUint64, List.map_cons, List.map_nil, List.take_succ_cons,
      List.take_zero, List.foldl_cons, List.foldl_nil, UInt8.toNat_ofNat',
      Nat.shiftRight_eq_div_pow]
    omega
  unfold bigEndianUint64
  rw [sum, UInt64.ofNat_toNat]

theorem putUint64_length (n : UInt64) : (putUint64 n).length = 8 := rfl

/-- The bytes of a challenge. -/
theorem mem_issuePowChallenge {hashes : Hashes} {powSecret : List UInt8}
    {nonce : Nonce} {now : IssueTime} {c : UInt8}
    (member : c ∈ issuePowChallenge hashes powSecret nonce now) :
    c ≠ 0x3A ∧ c.toNat < 0x80 := by
  simp only [issuePowChallenge, List.mem_append] at member
  rcases member with (member | member) | member
  · obtain ⟨colon, -, -, -, small⟩ :=
      urlChars c (rawURLEncoding.mem_encode member)
    exact ⟨colon, small⟩
  · obtain rfl : c = 0x2E := List.mem_singleton.mp member
    decide
  · obtain ⟨colon, -, -, -, small⟩ :=
      urlChars c (rawURLEncoding.mem_encode member)
    exact ⟨colon, small⟩

/-- A solution of a challenge is accepted while the challenge lasts. -/
theorem verifyPow_of_solution {hashes : Hashes} {powSecret : List UInt8}
    {nonce : Nonce} {issued : IssueTime} {now : Int64}
    {powDifficultyBits : Int} {solution : GoString}
    (early : now.toInt ≤ issued.unix.toInt + 30) (some_ : solution ≠ [])
    (solves : powDifficultyBits ≤ leadingZeroBits (hashes.sha256
      (issuePowChallenge hashes powSecret nonce issued ++ solution))) :
    verifyPow hashes powSecret powDifficultyBits now
      (issuePowChallenge hashes powSecret nonce issued ++ 0x3A :: solution) =
        true := by
  have colon : (0x3A : UInt8) ∉
      issuePowChallenge hashes powSecret nonce issued := fun member =>
    (mem_issuePowChallenge member).1 rfl
  have dot : (0x2E : UInt8) ∉ rawURLEncoding.encode
      (challengeBuf nonce issued) := fun member =>
    (urlChars _ (rawURLEncoding.mem_encode member)).2.1 rfl
  have parts : splitOnce (issuePowChallenge hashes powSecret nonce issued)
      0x2E = some (rawURLEncoding.encode (challengeBuf nonce issued),
        rawURLEncoding.encode
          (hashes.hmac powSecret (challengeBuf nonce issued))) := by
    have split := splitOnce_append (rawURLEncoding.encode
      (hashes.hmac powSecret (challengeBuf nonce issued))) dot
    have dotted : ascii "." = [0x2E] := rfl
    unfold issuePowChallenge
    rw [dotted, List.append_assoc]
    exact split
  have length : (challengeBuf nonce issued).length = 24 := by
    unfold challengeBuf
    rw [List.length_append, nonce.length, putUint64_length]
  have expiry : (bigEndianUint64 ((challengeBuf nonce issued).drop 16)).toInt64
      = issued.expiry := by
    unfold challengeBuf
    rw [List.drop_left' nonce.length, bigEndianUint64_putUint64]
    exact Int64.toInt64_toUInt64 _
  have lasts : ¬ issued.expiry < now := by
    have fits := issued.fits
    have lower := issued.unix.le_toInt
    have ttl : powChallengeTTL.toInt = 30 := rfl
    have exact_ : issued.expiry.toInt = issued.unix.toInt + 30 := by
      unfold IssueTime.expiry
      rw [Int64.toInt_add, ttl]
      apply Int.bmod_eq_of_le <;> omega
    rw [Int64.lt_iff_toInt_lt, exact_]
    omega
  unfold verifyPow
  rw [splitOnce_append _ colon]
  simp only [if_neg some_, parts, rawURLDecodeString_encode, length, ne_eq,
    not_true_eq_false, if_false, expiry, if_neg lasts]
  exact decide_eq_true solves

/-- What an accepted parameter is made of. -/
theorem verifyPow_inv {hashes : Hashes} {powSecret : List UInt8} {now : Int64}
    {powDifficultyBits : Int} {param : GoString}
    (verified : verifyPow hashes powSecret powDifficultyBits now param =
      true) :
    ∃ challenge solution nonceB64 sigB64 buf,
      splitOnce param 0x3A = some (challenge, solution) ∧ solution ≠ [] ∧
        splitOnce challenge 0x2E = some (nonceB64, sigB64) ∧
        rawURLDecodeString nonceB64 = some buf ∧ buf.length = 24 ∧
        rawURLDecodeString sigB64 = some (hashes.hmac powSecret buf) ∧
        now ≤ (bigEndianUint64 (buf.drop 16)).toInt64 ∧
        powDifficultyBits ≤
          leadingZeroBits (hashes.sha256 (challenge ++ solution)) := by
  unfold verifyPow at verified
  split at verified
  · cases verified
  · rename_i challenge solution split
    split at verified
    · cases verified
    · rename_i some_
      split at verified
      · cases verified
      · rename_i nonceB64 sigB64 split'
        split at verified
        · rename_i buf sig decoded decoded'
          split at verified
          · cases verified
          · rename_i length
            split at verified
            · cases verified
            · rename_i signed
              dsimp only at verified
              split at verified
              · cases verified
              · rename_i lasts
                refine ⟨challenge, solution, nonceB64, sigB64, buf, split,
                  some_, split', decoded, not_not.mp length, ?_,
                  Int64.not_lt.mp lasts, of_decide_eq_true verified⟩
                rw [decoded', not_not.mp signed]
        · cases verified

end Byteln.Server

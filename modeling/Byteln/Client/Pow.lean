import Byteln.Library.Utf8
import Byteln.Server.Pow

/-!
# Proof of work, the page's half

The search for a solution, and that both halves agree on what a challenge, a
solution and a leading zero bit are.
-/

namespace Byteln.Client

open Byteln.Library Byteln.Server

namespace Pow

/-- The bits before the first one of a byte. -/
def countBits : Nat → UInt8 → Nat → Nat
  | 0, _, n => n
  | bits + 1, byte, n =>
      if byte &&& 0x80 ≠ 0 then n else countBits bits (byte <<< 1) (n + 1)

def leadingZeroBitsFrom (n : Nat) : List UInt8 → Nat
  | [] => n
  | b :: bytes =>
      if b = 0 then leadingZeroBitsFrom (n + 8) bytes else countBits 8 b n

def leadingZeroBits (bytes : List UInt8) : Nat :=
  leadingZeroBitsFrom 0 bytes

/-- In milliseconds. -/
def SOLVE_TIMEOUT_MS : Int :=
  20000

def timeoutMessage (difficulty timeoutMs : Int) : JSString :=
  js "pow: no solution for difficulty " ++ js (toString difficulty) ++
    js " within " ++ js (toString timeoutMs) ++ js "ms"

/-- The loop from one candidate on.  It returns a solution or gives up; it is
still at work after so many rounds otherwise. -/
def solveFrom (sha256 : List UInt8 → List UInt8) (clock : Nat → Int)
    (deadline : Int) (challenge : JSString) (difficulty timeoutMs : Int) :
    Nat → Nat → Option (Except JSString JSString)
  | 0, _ => none
  | rounds + 1, i =>
      let solution := js (toString i)
      let digest := sha256 (textEncode (challenge ++ solution))
      if difficulty ≤ leadingZeroBits digest then some (.ok solution)
      else if 0 < i ∧ i % 512 = 0 ∧ deadline < clock i then
        some (.error (timeoutMessage difficulty timeoutMs))
      else
        solveFrom sha256 clock deadline challenge difficulty timeoutMs rounds
          (i + 1)

/-- The clock shows `clock i` before candidate `i`. -/
def solvePowChallenge (sha256 : List UInt8 → List UInt8) (clock : Nat → Int)
    (challenge : JSString) (difficulty timeoutMs : Int) (rounds : Nat) :
    Option (Except JSString JSString) :=
  solveFrom sha256 clock (clock 0 + timeoutMs) challenge difficulty timeoutMs
    rounds 0

structure PowChallengeInfo where
  required : Bool
  challenge : JSString
  difficulty : Int

/-- The query value to connect with.  It is `none` within when the relay
requires none. -/
def solvePowForConnect (sha256 : List UInt8 → List UInt8) (clock : Nat → Int)
    (info : PowChallengeInfo) (rounds : Nat) :
    Option (Except JSString (Option JSString)) :=
  if !info.required || info.challenge = [] || info.difficulty = 0 then
    some (.ok none)
  else
    (solvePowChallenge sha256 clock info.challenge info.difficulty
      SOLVE_TIMEOUT_MS rounds).map fun solved =>
        solved.map fun solution => some (info.challenge ++ js ":" ++ solution)

theorem countBits_eq (b : UInt8) (n : Nat) (some_ : b ≠ 0) :
    countBits 8 b n = n + leadingZeros8 b := by
  have shift : ∀ bits (byte : UInt8) n,
      countBits bits byte n = n + countBits bits byte 0 := by
    intro bits
    induction bits with
    | zero => intro byte n; rfl
    | succ bits induction =>
        intro byte n
        simp only [countBits]
        split
        · rfl
        · rw [induction _ (n + 1), induction _ (0 + 1)]
          omega
  have small : ∀ k < 256, k = 0 ∨
      countBits 8 (UInt8.ofNat k) 0 = leadingZeros8 (UInt8.ofNat k) := by
    decide +kernel
  rw [shift]
  rcases small b.toNat b.toNat_lt with zero | same
  · exact absurd (UInt8.toNat_inj.mp zero) some_
  · rw [UInt8.ofNat_toNat] at same
    rw [same]

/-- Both halves count the same bits. -/
theorem leadingZeroBits_eq (digest : List UInt8) :
    leadingZeroBits digest = Server.leadingZeroBits digest := by
  have counted : ∀ n, leadingZeroBitsFrom n digest =
      n + Server.leadingZeroBits digest := by
    induction digest with
    | nil => intro n; rfl
    | cons b digest induction =>
        intro n
        unfold leadingZeroBitsFrom Server.leadingZeroBits
        by_cases zero : b = 0
        · rw [if_pos zero, if_pos zero, induction]
          omega
        · rw [if_neg zero, if_neg zero]
          exact countBits_eq b n zero
  unfold leadingZeroBits
  rw [counted, Nat.zero_add]

theorem toString_ne_nil (i : Nat) : js (toString i) ≠ [] := by
  obtain ⟨c, digits, same⟩ := List.exists_cons_of_ne_nil
    (Nat.toDigits_ne_nil (n := i) (b := 10))
  have text : (toString i).toList = c :: digits := by
    show (Nat.repr i).toList = _
    rw [Nat.repr_eq_ofList_toDigits, String.toList_ofList, same]
  unfold js
  rw [text, List.flatMap_cons]
  intro empty
  have unit := (List.append_eq_nil_iff.mp empty).1
  unfold utf16 at unit
  split at unit <;> cases unit

/-- What the loop returns is a solution. -/
theorem solveFrom_solves {sha256 : List UInt8 → List UInt8}
    {clock : Nat → Int} {deadline difficulty timeoutMs : Int}
    {challenge solution : JSString} (rounds : Nat) :
    ∀ {i : Nat}, solveFrom sha256 clock deadline challenge difficulty
        timeoutMs rounds i = some (.ok solution) →
      solution ≠ [] ∧ difficulty ≤
        leadingZeroBits (sha256 (textEncode (challenge ++ solution))) := by
  induction rounds with
  | zero =>
      intro i solved
      cases solved
  | succ rounds induction =>
      intro i solved
      unfold solveFrom at solved
      dsimp only at solved
      split at solved
      · rename_i enough
        obtain rfl := Except.ok.inj (Option.some.inj solved)
        exact ⟨toString_ne_nil i, enough⟩
      · split at solved
        · cases Option.some.inj solved
        · exact induction solved

/-- A solution that the page finds is accepted until the challenge expires,
only such parameters are accepted that the relay has signed and somebody has
solved, and both halves count the same zero bits. -/
theorem pow_halves_agree (hashes : Hashes) :
    (∀ powSecret nonce (issued : IssueTime) (now : Int64) difficulty clock
        timeoutMs rounds solution,
      solvePowChallenge hashes.sha256 clock
          (ofAscii (issuePowChallenge hashes powSecret nonce issued))
          difficulty timeoutMs rounds = some (.ok solution) →
        now.toInt ≤ issued.unix.toInt + 30 →
          verifyPow hashes powSecret difficulty now
            (textEncode (ofAscii (issuePowChallenge hashes powSecret nonce
              issued) ++ js ":" ++ solution)) = true) ∧
    (∀ powSecret (now : Int64) difficulty param,
      verifyPow hashes powSecret difficulty now param = true →
        ∃ challenge solution nonceB64 sigB64 buf,
          splitOnce param 0x3A = some (challenge, solution) ∧ solution ≠ [] ∧
          splitOnce challenge 0x2E = some (nonceB64, sigB64) ∧
          rawURLDecodeString nonceB64 = some buf ∧ buf.length = 24 ∧
          rawURLDecodeString sigB64 = some (hashes.hmac powSecret buf) ∧
          now ≤ (bigEndianUint64 (buf.drop 16)).toInt64 ∧
          difficulty ≤ Server.leadingZeroBits
            (hashes.sha256 (challenge ++ solution))) ∧
    (∀ digest, leadingZeroBits digest = Server.leadingZeroBits digest) := by
  refine ⟨?_, fun _ _ _ _ => verifyPow_inv, leadingZeroBits_eq⟩
  intro powSecret nonce issued now difficulty clock timeoutMs rounds solution
    solved early
  obtain ⟨some_, solves⟩ := solveFrom_solves rounds solved
  have small : ∀ b ∈ issuePowChallenge hashes powSecret nonce issued,
      b.toNat < 0x80 := fun b member => (mem_issuePowChallenge member).2
  have sent : textEncode (ofAscii (issuePowChallenge hashes powSecret nonce
      issued) ++ js ":" ++ solution) =
        issuePowChallenge hashes powSecret nonce issued ++
          0x3A :: textEncode solution := by
    have colon : textEncode (js ":" ++ solution) =
        0x3A :: textEncode solution :=
      @textEncode_ofAscii_append [0x3A] solution (by simp)
    rw [List.append_assoc, textEncode_ofAscii_append _ small, colon]
  rw [sent]
  apply verifyPow_of_solution early (textEncode_ne_nil some_)
  rw [textEncode_ofAscii_append _ small, leadingZeroBits_eq] at solves
  exact solves

/-- Hashes that have eleven zero bits in front behind a "3" only. -/
private def threeHashes : Hashes where
  hmac := fun key message => key ++ message.take 4
  sha256 := fun bytes =>
    if bytes.getLast? = some 0x33 then [0x00, 0x1f] else [0xff, 0xff]

private def threeChallenge : List UInt8 :=
  issuePowChallenge threeHashes [7] ⟨List.replicate 16 0xab, rfl⟩
    ⟨1700000000, by decide⟩

/-- The page finds a "3" in its fourth round, and the relay accepts it up to
the last second. -/
theorem pow_halves_agree_three :
    solvePowChallenge threeHashes.sha256 (fun _ => 0) (ofAscii threeChallenge)
      11 SOLVE_TIMEOUT_MS 4 = some (.ok (js "3")) ∧
    verifyPow threeHashes [7] 11 1700000030
      (textEncode (ofAscii threeChallenge ++ js ":" ++ js "3")) = true := by
  have solved : solvePowChallenge threeHashes.sha256 (fun _ => 0)
      (ofAscii threeChallenge) 11 SOLVE_TIMEOUT_MS 4 =
        some (.ok (js "3")) := by
    decide +kernel
  exact ⟨solved, (pow_halves_agree threeHashes).1 _ _ _ _ _ _ _ _ _ solved
    (by decide)⟩

end Pow

end Byteln.Client

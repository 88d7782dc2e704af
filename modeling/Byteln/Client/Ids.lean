import Byteln.Library.CodeUnits
import Byteln.Library.Lexicographic

/-!
# Message ids

Time-ordered UUIDs.  The messages of a chat are sorted by their ids, so an id
has to sort after every id that was drawn before it.
-/

namespace Byteln.Client

open Byteln.Library

/-! ## The text of an id -/

/-- `padStart` with one code unit. -/
def padStart (length : Nat) (fill : UInt16) (text : JSString) : JSString :=
  List.replicate (length - text.length) fill ++ text

/-- `toString(16)`. -/
def toString16 (n : Nat) : JSString :=
  (Nat.toDigits 16 n).flatMap utf16

def hexByte (byte : UInt8) : JSString :=
  padStart 2 (UInt16.ofNat '0'.toNat) (toString16 byte.toNat)

def bytesToUuid (bytes : List UInt8) : JSString :=
  let hex := bytes.map hexByte
  (hex.extract 0 4).flatten ++ js "-" ++ (hex.extract 4 6).flatten ++
    js "-" ++ (hex.extract 6 8).flatten ++ js "-" ++
      (hex.extract 8 10).flatten ++ js "-" ++ (hex.extract 10 16).flatten

/-- What an id of a millisecond and a sequence number is made of. -/
def uuidBytes (ms lastSeq : Nat) (rand : Vector UInt8 8) : List UInt8 :=
  [(ms / 2 ^ 40).toUInt8, (ms / 2 ^ 32).toUInt8, (ms / 2 ^ 24).toUInt8,
    (ms / 2 ^ 16).toUInt8, (ms / 2 ^ 8).toUInt8, ms.toUInt8,
    -- version 7 and 12 bits of the sequence
    (0x70 ||| (lastSeq >>> 8 &&& 0x0f)).toUInt8, (lastSeq &&& 0xff).toUInt8,
    -- the variant and 62 random bits
    (0x80 : UInt8) ||| (rand[0] &&& 0x3f)] ++ rand.toList.drop 1

/-! ## Drawing ids -/

/-- The module's counters. -/
structure UuidClock where
  lastMs : Int
  lastSeq : Nat

def UuidClock.initial : UuidClock :=
  ⟨-1, 0⟩

/-- One call: the time, and what the random sources answer. -/
structure UuidCall where
  now : Nat
  /-- `Math.floor(Math.random() * 0x1000)`. -/
  draw : Fin 0x1000
  rand : Vector UInt8 8

namespace UuidClock

/-- The counters after a call. -/
def next (clock : UuidClock) (call : UuidCall) : UuidClock :=
  if (call.now : Int) = clock.lastMs then
    let lastSeq := (clock.lastSeq + 1) &&& 0xfff
    ⟨if lastSeq = 0 then call.now + 1 else call.now, lastSeq⟩
  else ⟨call.now, call.draw⟩

/-- The id that a call returns writes the counters out. -/
def uuid (clock : UuidClock) (rand : Vector UInt8 8) : JSString :=
  bytesToUuid (uuidBytes clock.lastMs.toNat clock.lastSeq rand)

def uuidV7 (clock : UuidClock) (call : UuidCall) : UuidClock × JSString :=
  let clock := clock.next call
  (clock, clock.uuid call.rand)

/-- The ids of a sequence of calls. -/
def ids (clock : UuidClock) : List UuidCall → List JSString
  | [] => []
  | call :: calls =>
      let (clock, id) := clock.uuidV7 call
      id :: clock.ids calls

/-- The counters have not run ahead of the call: none before has borrowed from
its next millisecond, and this one need not borrow from beyond the 48 bits. -/
def Follows (clock : UuidClock) (call : UuidCall) : Prop :=
  clock.lastMs ≤ call.now ∧
    ¬(clock.lastMs = 2 ^ 48 - 1 ∧ clock.lastSeq = 0xfff)

/-- Every call finds the counters so. -/
def AllFollow (clock : UuidClock) : List UuidCall → Prop
  | [] => True
  | call :: calls => clock.Follows call ∧ (clock.next call).AllFollow calls

instance (clock : UuidClock) (call : UuidCall) :
    Decidable (clock.Follows call) :=
  inferInstanceAs (Decidable (_ ∧ ¬(_ ∧ _)))

instance decidableAllFollow (clock : UuidClock) :
    (calls : List UuidCall) → Decidable (clock.AllFollow calls)
  | [] => isTrue trivial
  | call :: calls =>
      have := decidableAllFollow (clock.next call) calls
      inferInstanceAs (Decidable (clock.Follows call ∧ _))

end UuidClock

/-! ## Ids sort as what they write -/

theorem utf16_digitChar :
    ∀ digit < 16, utf16 digit.digitChar = [hexUnit digit] := by
  decide

theorem hexUnit_lt :
    ∀ digit < 16, ∀ digit' < digit, hexUnit digit' < hexUnit digit := by
  decide

theorem hexByte_eq (byte : UInt8) :
    hexByte byte = [hexUnit (byte.toNat / 16), hexUnit (byte.toNat % 16)] := by
  have small : byte.toNat < 256 := byte.toNat_lt
  have low : byte.toNat % 16 < 16 := Nat.mod_lt _ (by decide)
  have high : byte.toNat / 16 < 16 := by omega
  unfold hexByte toString16
  by_cases short : byte.toNat < 16
  · have none : byte.toNat / 16 = 0 := Nat.div_eq_of_lt short
    rw [Nat.toDigits_of_lt_base short, List.flatMap_singleton,
      utf16_digitChar _ short, none, Nat.mod_eq_of_lt short]
    rfl
  · rw [Nat.toDigits_of_base_le (by decide) (Nat.le_of_not_lt short),
      Nat.toDigits_of_lt_base high, List.flatMap_append,
      List.flatMap_singleton, List.flatMap_singleton, utf16_digitChar _ high,
      utf16_digitChar _ low]
    rfl

theorem hexByte_sorts : Sorts 2 hexByte := by
  constructor
  · intro byte
    rw [hexByte_eq]
    rfl
  · intro byte byte' less
    have less : byte.toNat < byte'.toNat := UInt8.lt_iff_toNat_lt.mp less
    have small : byte'.toNat < 256 := byte'.toNat_lt
    rw [hexByte_eq, hexByte_eq]
    apply List.cons_lt_cons_iff.mpr
    by_cases first : byte.toNat / 16 < byte'.toNat / 16
    · exact .inl (hexUnit_lt _ (by omega) _ first)
    · have same : byte.toNat / 16 = byte'.toNat / 16 := by omega
      refine .inr ⟨congrArg hexUnit same, ?_⟩
      apply List.cons_lt_cons_iff.mpr
      exact .inl (hexUnit_lt _ (by omega) _ (by omega))

/-- The sequence goes into the third group, under the version. -/
theorem sequence_bytes {lastSeq : Nat} (small : lastSeq < 0x1000) :
    [(0x70 ||| (lastSeq >>> 8 &&& 0x0f)).toUInt8, (lastSeq &&& 0xff).toUInt8] =
      bigEndian 2 (0x7000 + lastSeq) := by
  have version : ∀ high < 0x10, 0x70 ||| high = 0x70 + high := by decide
  have high : lastSeq >>> 8 &&& 0x0f = lastSeq / 2 ^ 8 := by
    rw [Nat.shiftRight_eq_div_pow, Nat.and_two_pow_sub_one_eq_mod _ 4]
    omega
  have low : lastSeq &&& 0xff = lastSeq % 2 ^ 8 :=
    Nat.and_two_pow_sub_one_eq_mod lastSeq 8
  have sum : (0x7000 + lastSeq) / 256 = 0x70 + lastSeq / 2 ^ 8 := by omega
  rw [high, low, version _ (by omega)]
  simp only [bigEndian, pow_one, pow_zero, Nat.div_one, sum]
  congr 2
  apply UInt8.toNat_inj.mp
  simp

/-- The time is in the first two groups, the sequence in the third. -/
theorem bytesToUuid_eq {ms lastSeq : Nat} (small : lastSeq < 0x1000)
    (rand : Vector UInt8 8) :
    ∃ rest, bytesToUuid (uuidBytes ms lastSeq rand) =
      (bigEndian 4 (ms / 2 ^ 16)).flatMap hexByte ++ (js "-" ++
        ((bigEndian 2 ms).flatMap hexByte ++ (js "-" ++
          ((bigEndian 2 (0x7000 + lastSeq)).flatMap hexByte ++ rest)))) := by
  let random := (uuidBytes ms lastSeq rand).drop 8
  refine ⟨js "-" ++ ((random.extract 0 2).flatMap hexByte ++
    (js "-" ++ (random.extract 2 8).flatMap hexByte)), ?_⟩
  rw [← sequence_bytes small]
  simp [bytesToUuid, uuidBytes, bigEndian, Nat.div_div_eq_div_mul,
    List.append_assoc, List.flatMap, random]

/-- An id sorts after the ids of earlier times, and after those of the same
time with a lower sequence. -/
theorem uuidBytes_lt {ms ms' lastSeq lastSeq' : Nat}
    (rand rand' : Vector UInt8 8)
    (small : lastSeq < 0x1000) (small' : lastSeq' < 0x1000)
    (later : ms % 2 ^ 48 < ms' % 2 ^ 48 ∨ ms = ms' ∧ lastSeq < lastSeq') :
    bytesToUuid (uuidBytes ms lastSeq rand) <
      bytesToUuid (uuidBytes ms' lastSeq' rand') := by
  have lengths : ∀ width number number',
      ((bigEndian width number).flatMap hexByte).length =
        ((bigEndian width number').flatMap hexByte).length := by
    intro width number number'
    simp [hexByte_sorts.length_flatMap]
  have written : ∀ {width number number'},
      number % 256 ^ width < number' % 256 ^ width →
        (bigEndian width number).flatMap hexByte <
          (bigEndian width number').flatMap hexByte :=
    fun less => hexByte_sorts.flatMap_lt (by simp) (bigEndian_lt _ less)
  obtain ⟨rest, text⟩ := bytesToUuid_eq small rand
  obtain ⟨rest', text'⟩ := bytesToUuid_eq small' rand'
  rw [text, text']
  apply (append_lt_append_iff (lengths 4 _ _)).mpr
  rcases later with time | ⟨rfl, sequence⟩
  · by_cases high : ms / 2 ^ 16 % 256 ^ 4 < ms' / 2 ^ 16 % 256 ^ 4
    · exact .inl (written high)
    · have same : ms / 2 ^ 16 % 256 ^ 4 = ms' / 2 ^ 16 % 256 ^ 4 := by
        omega
      refine .inr ⟨?_, ?_⟩
      · rw [bigEndian_congr 4 same]
      · apply List.append_left_lt
        apply append_lt_append _ _ (lengths 2 _ _)
        exact written (by omega)
  · refine .inr ⟨rfl, ?_⟩
    apply List.append_left_lt
    apply List.append_left_lt
    apply List.append_left_lt
    apply append_lt_append _ _ (lengths 2 _ _)
    exact written (by omega)

/-! ## Sequences of calls -/

namespace UuidClock

variable {clock : UuidClock} {call : UuidCall}

/-- The counters fit into an id. -/
structure Fits (clock : UuidClock) : Prop where
  drawn : 0 ≤ clock.lastMs
  time : clock.lastMs < 2 ^ 48
  sequence : clock.lastSeq < 0x1000

theorem next_lastSeq (clock : UuidClock) (call : UuidCall) :
    (clock.next call).lastSeq < 0x1000 := by
  unfold next
  split
  · exact Nat.and_lt_two_pow _ (by decide : 0xfff < 2 ^ 12)
  · exact call.draw.isLt

/-- A call that finds the counters where they should be moves them forward. -/
theorem Fits.next (fits : clock.Fits) (bounded : call.now < 2 ^ 48)
    (follows : clock.Follows call) :
    (clock.next call).Fits ∧
      (clock.lastMs < (clock.next call).lastMs ∨
        clock.lastMs = (clock.next call).lastMs ∧
          clock.lastSeq < (clock.next call).lastSeq) := by
  obtain ⟨drawn, time, sequence⟩ := fits
  obtain ⟨behind, room⟩ := follows
  have wrap : (clock.lastSeq + 1) &&& 0xfff = (clock.lastSeq + 1) % 2 ^ 12 :=
    Nat.and_two_pow_sub_one_eq_mod _ 12
  suffices moved : 0 ≤ (clock.next call).lastMs ∧
      (clock.next call).lastMs < 2 ^ 48 ∧
      (clock.lastMs < (clock.next call).lastMs ∨
        clock.lastMs = (clock.next call).lastMs ∧
          clock.lastSeq < (clock.next call).lastSeq) from
    ⟨⟨moved.1, moved.2.1, next_lastSeq clock call⟩, moved.2.2⟩
  unfold UuidClock.next
  split
  · rename_i same
    dsimp only
    rw [wrap]
    split <;> omega
  · dsimp only
    omega

/-- The next id sorts after the last one exactly if the call finds the counters
where they should be. -/
theorem Fits.uuid_lt_iff (fits : clock.Fits) (bounded : call.now < 2 ^ 48)
    (rand rand' : Vector UInt8 8) :
    clock.uuid rand < (clock.next call).uuid rand' ↔ clock.Follows call := by
  have inside := next_lastSeq clock call
  constructor
  · intro less
    by_contra strays
    apply List.lt_asymm less
    apply uuidBytes_lt rand' rand inside fits.sequence
    obtain ⟨drawn, time, sequence⟩ := fits
    unfold Follows at strays
    unfold UuidClock.next
    split
    · rename_i same
      have wraps : (clock.lastSeq + 1) &&& 0xfff = 0 := by
        have full : clock.lastSeq = 0xfff := by omega
        rw [full]
        rfl
      dsimp only
      rw [if_pos wraps]
      omega
    · dsimp only
      omega
  · intro follows
    obtain ⟨after, moved⟩ := fits.next bounded follows
    apply uuidBytes_lt rand rand' fits.sequence inside
    obtain ⟨drawn, time, -⟩ := fits
    obtain ⟨drawn', time', -⟩ := after
    omega

/-- After an id has been drawn. -/
theorem Fits.ids_chain_iff (fits : clock.Fits) (calls : List UuidCall)
    (bounded : ∀ call ∈ calls, call.now < 2 ^ 48) (rand : Vector UInt8 8) :
    (clock.uuid rand :: clock.ids calls).IsChain (· < ·) ↔
      clock.AllFollow calls := by
  induction calls generalizing clock rand with
  | nil => simp [ids, AllFollow]
  | cons call calls induction =>
      have here := bounded call List.mem_cons_self
      have step := fits.uuid_lt_iff here rand call.rand
      show (clock.uuid rand :: (clock.next call).uuid call.rand ::
        (clock.next call).ids calls).IsChain (· < ·) ↔
          clock.Follows call ∧ (clock.next call).AllFollow calls
      rw [List.isChain_cons_cons, step]
      apply and_congr_right
      intro follows
      apply induction (fits.next here follows).1
      intro later known
      exact bounded later (List.mem_cons_of_mem call known)

end UuidClock

open UuidClock

theorem initial_follows (call : UuidCall) :
    UuidClock.initial.Follows call := by
  constructor
  · show (-1 : Int) ≤ call.now
    omega
  · rintro ⟨drawn, -⟩
    cases drawn

theorem initial_next (call : UuidCall) :
    UuidClock.initial.next call = ⟨call.now, call.draw⟩ := by
  apply if_neg
  show ¬(call.now : Int) = -1
  omega

/-- The ids of a session are strictly increasing exactly if no call is made in
a millisecond whose counter has run over into the next one. -/
theorem ids_increase_iff (calls : List UuidCall)
    (bounded : ∀ call ∈ calls, call.now < 2 ^ 48) :
    (UuidClock.initial.ids calls).Pairwise (· < ·) ↔
      UuidClock.initial.AllFollow calls := by
  cases calls with
  | nil => simp [ids, AllFollow]
  | cons call calls =>
      have here := bounded call List.mem_cons_self
      have fits : (UuidClock.initial.next call).Fits := by
        rw [initial_next]
        have time : (call.now : Int) < 2 ^ 48 := by exact_mod_cast here
        exact ⟨Int.natCast_nonneg _, time, call.draw.isLt⟩
      have chain := fits.ids_chain_iff calls
        (fun later known => bounded later (List.mem_cons_of_mem call known))
        call.rand
      rw [← List.isChain_iff_pairwise]
      show ((UuidClock.initial.next call).uuid call.rand ::
        (UuidClock.initial.next call).ids calls).IsChain (· < ·) ↔
          UuidClock.initial.Follows call ∧
            (UuidClock.initial.next call).AllFollow calls
      rw [chain]
      exact (and_iff_right (initial_follows call)).symm

private def noRandom : Vector UInt8 8 :=
  Vector.replicate 8 0

/-- Three ids in a millisecond whose counter starts at its end. -/
private def lateStart : List UuidCall :=
  [⟨1700000000000, 0xfff, noRandom⟩, ⟨1700000000000, 0, noRandom⟩,
    ⟨1700000000000, 0, noRandom⟩]

theorem ids_increase_two :
    (UuidClock.initial.ids (lateStart.take 2)).Pairwise (· < ·) := by
  apply (ids_increase_iff _ (by decide)).mpr
  decide

/-- The third id sorts before the second one. -/
theorem third_id_before_second :
    ∃ calls : List UuidCall,
      (∀ call ∈ calls, call.now < 2 ^ 48) ∧
      (calls.map UuidCall.now).Pairwise (· ≤ ·) ∧
      ¬(UuidClock.initial.ids calls).Pairwise (· < ·) :=
  ⟨lateStart, by decide, by decide, by decide⟩

end Byteln.Client

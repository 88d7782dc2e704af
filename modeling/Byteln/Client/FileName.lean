import Byteln.Client.Attachments
import Byteln.Library.Trimming

/-!
# Safe file names

What `sanitizeFileName` makes of any name.  The dots in front are removed
before the name is trimmed again, so white space between dots leaves a dot in
front; and characters that are deleted may have kept others from composing.
-/

namespace Byteln.Client

open Byteln.Library

def isPathSeparator (unit : UInt16) : Bool :=
  unit ∈ js "\\/"

def isReserved (unit : UInt16) : Bool :=
  unit ∈ js "<>:\"|?*"

def isDot (unit : UInt16) : Bool :=
  unit ∈ js "."

/-- No file name has them. -/
def isForbidden (unit : UInt16) : Bool :=
  isPathSeparator unit || isFormatUnit unit || isReserved unit

/-- `normalize('NFC')`: it is the identity on ASCII, its results are
normalized and so are their parts, and it makes none of the forbidden
characters. -/
structure Normalization where
  nfc : JSString → JSString
  ascii : ∀ s, (∀ u ∈ s, u < 0x80) → nfc s = s
  normalized : ∀ s, nfc (nfc s) = nfc s
  part : ∀ s part, nfc s = s → part <:+: s → nfc part = part
  forbidden : ∀ s, ∀ u ∈ nfc s, isForbidden u = true → u ∈ s

variable (unicode : Normalization)

/-- The name without its path. -/
def baseName (s : JSString) : JSString :=
  (s.splitOnP isPathSeparator).getLastD []

/-- Normalized, without format characters, and with reserved ones
replaced. -/
def visibleName (base : JSString) : JSString :=
  ((unicode.nfc base).filter fun u => !isFormatUnit u).map fun u =>
    if isReserved u then 0x5F else u

/-- Trimmed, and without the dots it starts with. -/
def undottedName (visible : JSString) : JSString :=
  (trimBy isWhiteSpace visible).dropWhile isDot

/-- What is kept of it. -/
def trimmedName (cleaned : JSString) : JSString :=
  trimBy isWhiteSpace (cleaned.take MAX_FILE_NAME_LENGTH)

/-- What is kept of a name. -/
def keptName (s : JSString) : JSString :=
  trimmedName (undottedName (visibleName unicode (baseName s)))

theorem sanitizeFileName_eq (s : JSString) :
    sanitizeFileName unicode.nfc s =
      if keptName unicode s = [] then js "file" else keptName unicode s := by
  have reserved : ∀ u : UInt16, (isReserved u = true) = (u ∈ js "<>:\"|?*") :=
    fun u => decide_eq_true_eq
  unfold sanitizeFileName keptName trimmedName undottedName visibleName baseName
  simp only [reserved]
  rfl

/-- What a name is safe for. -/
structure SafeFileName (name : JSString) : Prop where
  nonempty : name ≠ []
  length : name.length ≤ MAX_FILE_NAME_LENGTH
  characters : ∀ u ∈ name, isForbidden u = false
  trimmed : CleanEnds isWhiteSpace name
  undotted : name.head? ≠ some 0x2E

/-! ## Pieces of the name -/

theorem baseName_eq_self {s : JSString}
    (plain : ∀ u ∈ s, isPathSeparator u = false) : baseName s = s := by
  unfold baseName
  rw [List.splitOnP_eq_singleton plain]
  rfl

theorem mem_baseName {s : JSString} {u : UInt16} (member : u ∈ baseName s) :
    isPathSeparator u = false := by
  unfold baseName at member
  rw [List.getLastD_eq_getLast?] at member
  cases last : (s.splitOnP isPathSeparator).getLast? with
  | none =>
      rw [last] at member
      cases member
  | some piece =>
      rw [last] at member
      exact (mem_getLast_splitOnP last member).2

theorem underscore_allowed : isForbidden 0x5F = false := by
  decide

/-- No forbidden character is visible. -/
theorem mem_visibleName {s : JSString} {u : UInt16}
    (member : u ∈ visibleName unicode (baseName s)) :
    isForbidden u = false := by
  obtain ⟨v, inside, rfl⟩ := List.mem_map.mp member
  obtain ⟨composed, visible⟩ := List.mem_filter.mp inside
  split
  · exact underscore_allowed
  · rename_i plain
    by_contra forbidden
    rw [Bool.not_eq_false] at forbidden
    have before := mem_baseName (unicode.forbidden _ v composed forbidden)
    simp only [isForbidden, before, Bool.false_or, Bool.or_eq_true] at forbidden
    rcases forbidden with invisible | reserved
    · rw [invisible] at visible
      cases visible
    · exact plain reserved

theorem undottedName_within (visible : JSString) :
    undottedName visible <:+: visible :=
  (List.dropWhile_suffix isDot).isInfix.trans trimBy_infix

theorem trimmedName_within (cleaned : JSString) :
    trimmedName cleaned <:+: cleaned :=
  trimBy_infix.trans (List.take_prefix _ cleaned).isInfix

/-- A text of allowed characters that is trimmed, short and has no dot in
front is left as it is. -/
theorem keeps_name {name : JSString}
    (characters : ∀ u ∈ name, isForbidden u = false)
    (length : name.length ≤ MAX_FILE_NAME_LENGTH)
    (trimmed : CleanEnds isWhiteSpace name)
    (undotted : name.head? ≠ some 0x2E)
    (normal : unicode.nfc name = name) :
    trimmedName (undottedName (visibleName unicode (baseName name))) =
      name := by
  have allowed : ∀ u ∈ name, isPathSeparator u = false ∧
      isFormatUnit u = false ∧ isReserved u = false := by
    intro u member
    have allowed := characters u member
    simp only [isForbidden, Bool.or_eq_false_iff] at allowed
    exact ⟨allowed.1.1, allowed.1.2, allowed.2⟩
  have visible : visibleName unicode name = name := by
    unfold visibleName
    rw [normal, List.filter_eq_self.mpr ?_]
    · conv_rhs => rw [← List.map_id name]
      apply List.map_congr_left
      intro u member
      simp [(allowed u member).2.2]
    · intro u member
      simp [(allowed u member).2.1]
  have dotless : name.dropWhile isDot = name := by
    apply dropWhile_eq_self
    intro u head
    rw [Bool.eq_false_iff]
    intro dot
    obtain rfl : u = 0x2E := List.mem_singleton.mp (of_decide_eq_true dot)
    exact undotted head
  rw [baseName_eq_self fun u member => (allowed u member).1, visible]
  unfold undottedName trimmedName
  rw [trimBy_eq_self trimmed, dotless, List.take_of_length_le length,
    trimBy_eq_self trimmed]

/-! ## Dots -/

/-- After white space and dots comes white space, and then another dot that is
not cut off. -/
def Redotted (s : JSString) : Prop :=
  ∃ blank rest, undottedName (visibleName unicode (baseName s)) =
      blank ++ 0x2E :: rest ∧
    blank ≠ [] ∧ (∀ u ∈ blank, isWhiteSpace u = true) ∧
    blank.length < MAX_FILE_NAME_LENGTH

theorem dot_not_blank : isWhiteSpace 0x2E = false := by
  decide

theorem undottedName_head (visible : JSString) :
    (undottedName visible).head? ≠ some 0x2E := by
  intro head
  have first := List.head?_dropWhile_not isDot (trimBy isWhiteSpace visible)
  rw [show ((trimBy isWhiteSpace visible).dropWhile isDot).head? = some 0x2E
    from head] at first
  cases first

/-- Trimming keeps a first element that is not to be removed. -/
theorem head?_trimBy_append {α : Type*} {p : α → Bool} {blank rest : List α}
    {a : α} (blanks : ∀ b ∈ blank, p b = true) (clean : p a = false) :
    (trimBy p (blank ++ a :: rest)).head? = some a := by
  have dropped : (blank ++ a :: rest).dropWhile p = a :: rest := by
    rw [List.dropWhile_append_of_pos blanks]
    exact List.dropWhile_cons_of_neg (by simp [clean])
  have front : (a :: rest).rdropWhile p ≠ [] := by
    rw [ne_eq, List.rdropWhile_eq_nil_iff]
    intro all
    rw [all a List.mem_cons_self] at clean
    cases clean
  obtain ⟨tail, whole⟩ := List.rdropWhile_prefix p (a :: rest)
  obtain ⟨first, others, same⟩ := List.exists_cons_of_ne_nil front
  rw [same] at whole
  unfold trimBy
  rw [dropped, same, (List.cons.inj whole).1]
  rfl

/-- The kept name starts with a dot just there. -/
theorem keptName_head_iff (s : JSString) :
    (keptName unicode s).head? = some 0x2E ↔ Redotted unicode s := by
  unfold keptName Redotted trimmedName
  generalize same : undottedName (visibleName unicode (baseName s)) = cleaned
  constructor
  · intro head
    have head := head?_trimBy head
    have split := List.takeWhile_append_dropWhile (p := isWhiteSpace)
      (l := cleaned.take MAX_FILE_NAME_LENGTH)
    generalize (cleaned.take MAX_FILE_NAME_LENGTH).dropWhile isWhiteSpace =
      rest at head split
    generalize blanks : (cleaned.take MAX_FILE_NAME_LENGTH).takeWhile
      isWhiteSpace = blank at split
    obtain ⟨rest, rfl⟩ := List.head?_eq_some_iff.mp head
    have whole : cleaned = blank ++ 0x2E ::
        (rest ++ cleaned.drop MAX_FILE_NAME_LENGTH) := by
      conv_lhs => rw [← List.take_append_drop MAX_FILE_NAME_LENGTH cleaned,
        ← split]
      simp
    refine ⟨blank, _, whole, ?_, ?_, ?_⟩
    · rintro rfl
      have first := undottedName_head (visibleName unicode (baseName s))
      rw [same, whole] at first
      exact first rfl
    · rw [← blanks]
      intro u member
      exact List.mem_takeWhile_imp member
    · have length := congrArg List.length split
      rw [List.length_append, List.length_cons, List.length_take] at length
      omega
  · rintro ⟨blank, rest, rfl, -, blanks, short⟩
    rw [List.take_append, List.take_of_length_le short.le]
    obtain ⟨more, left⟩ : ∃ more,
        MAX_FILE_NAME_LENGTH - blank.length = more + 1 :=
      ⟨MAX_FILE_NAME_LENGTH - blank.length - 1, by omega⟩
    rw [left, List.take_succ_cons]
    exact head?_trimBy_append blanks dot_not_blank

/-! ## Safe names -/

/-- ASCII text, as a check. -/
theorem ascii_of_all {s : JSString}
    (all : (s.all fun u => u < 0x80) = true) : ∀ u ∈ s, u < 0x80 := by
  intro u member
  exact of_decide_eq_true (List.all_eq_true.mp all u member)

theorem ascii_file : ∀ u ∈ js "file", u < 0x80 :=
  ascii_of_all (by decide)

theorem safeFileName_file : SafeFileName (js "file") := by
  constructor
  · decide
  · decide
  · have allowed : ((js "file").all fun u => !isForbidden u) = true := by
      decide
    intro u member
    have plain := List.all_eq_true.mp allowed u member
    simpa using plain
  · constructor <;> (intro u head; obtain rfl := Option.some.inj head; decide)
  · decide

/-- What is kept is safe, unless it starts with a dot. -/
theorem keptName_safe {s : JSString} (kept : keptName unicode s ≠ [])
    (undotted : ¬ Redotted unicode s) : SafeFileName (keptName unicode s) := by
  constructor
  · exact kept
  · unfold keptName trimmedName
    apply trimBy_infix.length_le.trans
    rw [List.length_take]
    exact Nat.min_le_left _ _
  · intro u member
    have inside := ((trimmedName_within _).trans
      (undottedName_within _)).subset member
    exact mem_visibleName unicode inside
  · exact trimBy_cleanEnds _
  · intro head
    exact undotted ((keptName_head_iff unicode s).mp head)

/-- A safe name that is normalized is left as it is. -/
theorem SafeFileName.kept {name : JSString} (safe : SafeFileName name)
    (normal : unicode.nfc name = name) :
    sanitizeFileName unicode.nfc name = name := by
  have same : keptName unicode name = name :=
    keeps_name unicode safe.characters safe.length safe.trimmed safe.undotted
      normal
  rw [sanitizeFileName_eq, same, if_neg safe.nonempty]

/-- A safe name that is left as it is is normalized. -/
theorem SafeFileName.normal {name : JSString} (safe : SafeFileName name)
    (same : sanitizeFileName unicode.nfc name = name) :
    unicode.nfc name = name := by
  rw [sanitizeFileName_eq] at same
  split at same
  · apply unicode.ascii
    rw [← same]
    exact ascii_file
  · have plain : ∀ u ∈ name, isPathSeparator u = false := by
      intro u member
      have allowed := safe.characters u member
      simp only [isForbidden, Bool.or_eq_false_iff] at allowed
      exact allowed.1.1
    have visible : visibleName unicode name = unicode.nfc name := by
      have allowed : ∀ u ∈ unicode.nfc name, isFormatUnit u = false ∧
          isReserved u = false := by
        intro u member
        have allowed : isForbidden u = false := by
          by_contra forbidden
          rw [Bool.not_eq_false] at forbidden
          have inside := unicode.forbidden name u member forbidden
          rw [safe.characters u inside] at forbidden
          cases forbidden
        simp only [isForbidden, Bool.or_eq_false_iff] at allowed
        exact ⟨allowed.1.2, allowed.2⟩
      unfold visibleName
      rw [List.filter_eq_self.mpr fun u member => by
        simp [(allowed u member).1]]
      conv_rhs => rw [← List.map_id (unicode.nfc name)]
      apply List.map_congr_left
      intro u member
      simp [(allowed u member).2]
    have inside : name <:+: unicode.nfc name := by
      have part := (trimmedName_within (undottedName
        (visibleName unicode (baseName name)))).trans (undottedName_within _)
      rw [baseName_eq_self plain, visible] at part
      unfold keptName at same
      rw [baseName_eq_self plain, visible] at same
      rw [same] at part
      exact part
    exact unicode.part _ _ (unicode.normalized name) inside

/-- The name is safe and left as it is from then on, exactly where no dot is
uncovered and what is kept is normalized. -/
theorem sanitizeFileName_safe_iff (s : JSString) :
    (SafeFileName (sanitizeFileName unicode.nfc s) ∧
        sanitizeFileName unicode.nfc (sanitizeFileName unicode.nfc s) =
          sanitizeFileName unicode.nfc s) ↔
      ¬ Redotted unicode s ∧
        unicode.nfc (keptName unicode s) = keptName unicode s := by
  by_cases kept : keptName unicode s = []
  · have file : sanitizeFileName unicode.nfc s = js "file" := by
      rw [sanitizeFileName_eq, if_pos kept]
    rw [file, kept]
    constructor
    · intro _
      constructor
      · rw [← keptName_head_iff, kept]
        simp
      · exact unicode.ascii [] fun u member => by cases member
    · intro _
      exact ⟨safeFileName_file, safeFileName_file.kept unicode
        (unicode.ascii _ ascii_file)⟩
  · have name : sanitizeFileName unicode.nfc s = keptName unicode s := by
      rw [sanitizeFileName_eq, if_neg kept]
    rw [name]
    constructor
    · rintro ⟨safe, same⟩
      refine ⟨fun dotted => ?_, safe.normal unicode same⟩
      exact safe.undotted ((keptName_head_iff unicode s).mpr dotted)
    · rintro ⟨undotted, normal⟩
      have safe := keptName_safe unicode kept undotted
      exact ⟨safe, safe.kept unicode normal⟩

/-- A dot behind a dot and a space is uncovered, whatever normalization does
beyond ASCII. -/
theorem sanitizeFileName_dotted :
    ∃ s, ∀ unicode : Normalization,
      (sanitizeFileName unicode.nfc s).head? = some 0x2E ∧
        sanitizeFileName unicode.nfc (sanitizeFileName unicode.nfc s) ≠
          sanitizeFileName unicode.nfc s := by
  refine ⟨js ". .a", fun unicode => ?_⟩
  have base : unicode.nfc (((js ". .a").splitOnP fun unit =>
      unit ∈ js "\\/").getLastD []) = js ". .a" :=
    unicode.ascii _ (ascii_of_all (by decide))
  have first : sanitizeFileName unicode.nfc (js ". .a") = js ".a" := by
    unfold sanitizeFileName
    dsimp only
    rw [base]
    decide +kernel
  have base : unicode.nfc (((js ".a").splitOnP fun unit =>
      unit ∈ js "\\/").getLastD []) = js ".a" :=
    unicode.ascii _ (ascii_of_all (by decide))
  have second : sanitizeFileName unicode.nfc (js ".a") = js "a" := by
    unfold sanitizeFileName
    dsimp only
    rw [base]
    decide +kernel
  rw [first, second]
  decide +kernel

/-- Names of one character a unit that never compose. -/
def plainNormalization : Normalization where
  nfc := id
  ascii := fun _ _ => rfl
  normalized := fun _ => rfl
  part := fun _ _ _ _ => rfl
  forbidden := fun _ _ member _ => member

/-- A name with a path, dots in front, a mark that turns the writing direction
and a reserved character. -/
theorem sanitizeFileName_safe_path :
    SafeFileName (sanitizeFileName plainNormalization.nfc
      (js "../etc/..\\ ..evil‮fdp?.exe ")) := by
  refine ((sanitizeFileName_safe_iff plainNormalization _).mpr ⟨?_, rfl⟩).1
  rw [← keptName_head_iff]
  decide +kernel

end Byteln.Client

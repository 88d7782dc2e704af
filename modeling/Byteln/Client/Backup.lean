import Byteln.Client.Manager
import Byteln.Client.WireMessages

/-!
# Export files

A file is encrypted under a key derived from the session key, from the session
key and a passphrase, or from a passphrase alone.  The import picks the
derivation from the secrets that it is given, not from the file: a secret that
the file did not use changes the key.
-/

namespace Byteln.Client

open Byteln.Library

/-! ## Keys -/

/-- A key of AES-GCM, or the bits of one. -/
abbrev Key :=
  Vector UInt8 32

/-- What the code uses of `crypto.subtle`: the two derivations with their
fixed parameters, and AES-GCM. -/
structure Subtle where
  hkdf : Bytes → Key
  pbkdf2 : Bytes → Bytes → Key
  encrypt : Key → Bytes → Bytes → Bytes
  decrypt : Key → Bytes → Bytes → Option Bytes

/-- Only the key of a ciphertext opens it. -/
def Subtle.Ideal (subtle : Subtle) : Prop :=
  ∀ key key' nonce text,
    subtle.decrypt key' nonce (subtle.encrypt key nonce text) =
      if key' = key then some text else none

/-- What an export draws and reads of the clock. -/
structure Draws where
  salt : Vector UInt8 16
  nonce : Vector UInt8 12
  now : JSString

def mixed (a b : Key) : Key :=
  Vector.zipWith (fun a b => a ^^^ b) a b

/-- The bytes of zeros. -/
def zeroKey : Key :=
  Vector.replicate 32 0

/-- The key, and the salt where a passphrase was used.  A salt is drawn where
none is given. -/
def deriveBackupKey (subtle : Subtle) (drawn : Vector UInt8 16)
    (sessionKey : Bytes) (passphrase : Option JSString)
    (passSalt : Option Bytes) : Key × Option Bytes :=
  let ikmBits := subtle.hkdf sessionKey
  match truthy passphrase with
  | some passphrase =>
      let salt := passSalt.getD drawn.toList
      let passBits := subtle.pbkdf2 (textEncode passphrase) salt
      (mixed ikmBits passBits, some salt)
  | none => (ikmBits, none)

/-! ## Exports -/

structure ExportFile where
  version : Nat
  bucket_id : JSString
  exported_at : JSString
  nonce : JSString
  ciphertext : JSString
  pass_salt : Option JSString

variable {ν : Type} [Numeric ν]

/-- The file both exports write. -/
def exportFile (subtle : Subtle) (draws : Draws) (bucketId : JSString)
    (messages : List (StoredMessage ν)) (key : Key)
    (passSalt : Option Bytes) : ExportFile :=
  let plaintext := textEncode (serializeMessages messages)
  let ct := subtle.encrypt key draws.nonce.toList plaintext
  { version := 1
    bucket_id := bucketId
    exported_at := draws.now
    nonce := bytesToBase64Url draws.nonce.toList
    ciphertext := bytesToBase64Url ct
    pass_salt := passSalt.map bytesToBase64Url }

def exportHistory (subtle : Subtle) (draws : Draws) (bucketId : JSString)
    (sessionKey : Bytes) (messages : List (StoredMessage ν))
    (passphrase : Option JSString) : ExportFile :=
  let derived :=
    deriveBackupKey subtle draws.salt sessionKey passphrase none
  exportFile subtle draws bucketId messages derived.1 derived.2

def exportHistoryWithPassphraseOnly (subtle : Subtle) (draws : Draws)
    (bucketId : JSString) (messages : List (StoredMessage ν))
    (passphrase : JSString) : ExportFile :=
  let salt := draws.salt.toList
  let key := subtle.pbkdf2 (textEncode passphrase) salt
  exportFile subtle draws bucketId messages key (some salt)

/-! ## Imports -/

/-- What `base64UrlToBytes` returns or throws. -/
def base64UrlBytes (text : JSString) : Except String Bytes :=
  match base64UrlToBytes text with
  | some bytes => pure bytes
  | none => throw atobError

/-- The salt of a file, where it has one. -/
def fileSalt (file : ExportFile) : Except String (Option Bytes) :=
  match truthy file.pass_salt with
  | some passSalt => some <$> base64UrlBytes passSalt
  | none => pure none

/-- The key an import decrypts with, by the secrets it is given. -/
def importKey (subtle : Subtle) (drawn : Vector UInt8 16) (file : ExportFile)
    (sessionKey : Option Bytes) (passphrase : Option JSString) :
    Except String Key :=
  match sessionKey with
  | some sessionKey => do
      let passSalt ← fileSalt file
      pure (deriveBackupKey subtle drawn sessionKey passphrase passSalt).1
  | none =>
      match truthy file.pass_salt, truthy passphrase with
      | some passSalt, some passphrase => do
          let salt ← base64UrlBytes passSalt
          pure (subtle.pbkdf2 (textEncode passphrase) salt)
      | _, _ => throw "passphrase export required for keyless import"

/-- The messages of a ciphertext, where it decrypts to some. -/
def openMessages (subtle : Subtle) (nfc : JSString → JSString) (key : Key)
    (nonce ct : Bytes) : Option (List (StoredMessage ν)) := do
  let pt ← subtle.decrypt key nonce ct
  (readMessages nfc "bad payload" (textDecode pt)).toOption

def wrongKeyError : String :=
  "decrypt failed — wrong key or passphrase"

def importHistory (subtle : Subtle) (nfc : JSString → JSString)
    (drawn : Vector UInt8 16) (file : ExportFile)
    (sessionKey : Option Bytes) (passphrase : Option JSString) :
    Except String (JSString × List (StoredMessage ν)) :=
  if file.version ≠ 1 then throw "unsupported export version"
  else if sessionKey = none ∧ truthy passphrase = none then
    throw "need session key or passphrase"
  else do
    let key ← importKey subtle drawn file sessionKey passphrase
    let nonce ← base64UrlBytes file.nonce
    let ct ← base64UrlBytes file.ciphertext
    match openMessages subtle nfc key nonce ct with
    | some messages => pure (file.bucket_id, messages)
    | none => throw wrongKeyError

/-! ## Keys that are mixed -/

theorem xor_eq_left_iff {a b : UInt8} : a ^^^ b = a ↔ b = 0 := by
  have zero := UInt8.xor_right_inj (a := b) (b := 0) a
  rw [UInt8.xor_zero] at zero
  exact zero

theorem mixed_eq_left {a b : Key} : mixed a b = a ↔ b = zeroKey := by
  unfold mixed zeroKey
  constructor
  · intro same
    apply Vector.ext
    intro index bound
    have byte := congrArg (fun key : Key => key[index]) same
    rw [Vector.getElem_zipWith, xor_eq_left_iff] at byte
    rw [byte, Vector.getElem_replicate]
  · rintro rfl
    apply Vector.ext
    intro index bound
    rw [Vector.getElem_zipWith, Vector.getElem_replicate, UInt8.xor_zero]

theorem mixed_comm (a b : Key) : mixed a b = mixed b a := by
  unfold mixed
  apply Vector.ext
  intro index bound
  rw [Vector.getElem_zipWith, Vector.getElem_zipWith, UInt8.xor_comm]

theorem mixed_eq_right {a b : Key} : mixed a b = b ↔ a = zeroKey := by
  rw [mixed_comm, mixed_eq_left]

/-! ## Files that open -/

/-- The messages that are read as they were written. -/
def StoredMessage.Survives (nfc : JSString → JSString)
    (msg : StoredMessage ν) : Prop :=
  (Json.parse (toWire msg).stringify).map (fromWire nfc) =
    some (.ok (some msg))

theorem fromWire_of_survives {nfc : JSString → JSString}
    {msg : StoredMessage ν} (survives : msg.Survives nfc) :
    fromWire nfc (toWire msg).norm = .ok (some msg) := by
  unfold StoredMessage.Survives at survives
  rw [Json.parse_stringify_norm (distinct_toWire msg), Option.map_some]
    at survives
  exact Option.some.inj survives

theorem readMessages_of_survive {nfc : JSString → JSString}
    {messages : List (StoredMessage ν)}
    (survive : ∀ msg ∈ messages, msg.Survives nfc) (bad : String) :
    readMessages nfc bad (textDecode (textEncode
      (serializeMessages messages))) = .ok messages := by
  have each : ∀ msg ∈ messages,
      fromWire nfc (toWire msg).norm = .ok (some msg) :=
    fun msg member => fromWire_of_survives (survive msg member)
  rw [readMessages_serializeMessages each, List.filterMap_some]

/-- The sealed messages open under their key and under no other. -/
theorem openMessages_encrypt {subtle : Subtle} (ideal : subtle.Ideal)
    {nfc : JSString → JSString} {messages : List (StoredMessage ν)}
    (survive : ∀ msg ∈ messages, msg.Survives nfc) (key key' : Key)
    (nonce : Bytes) :
    openMessages subtle nfc key' nonce (subtle.encrypt key nonce
        (textEncode (serializeMessages messages))) =
      if key' = key then some messages else none := by
  unfold openMessages
  rw [ideal]
  by_cases same : key' = key
  · rw [if_pos same, if_pos same, Option.bind_eq_bind, Option.bind_some,
      readMessages_of_survive survive]
    rfl
  · rw [if_neg same, if_neg same]
    rfl

theorem base64UrlBytes_bytesToBase64Url (bytes : Bytes) :
    base64UrlBytes (bytesToBase64Url bytes) = .ok bytes := by
  unfold base64UrlBytes
  rw [base64UrlToBytes_bytesToBase64Url]
  rfl

/-- An export file is read under the key the import comes to, where the
secrets suffice for one. -/
theorem importHistory_exportFile {subtle : Subtle} (ideal : subtle.Ideal)
    {nfc : JSString → JSString} {draws : Draws} {drawn : Vector UInt8 16}
    {bucketId : JSString} {messages : List (StoredMessage ν)}
    (survive : ∀ msg ∈ messages, msg.Survives nfc) {key key' : Key}
    {passSalt : Option Bytes} {sessionKey : Option Bytes}
    {passphrase : Option JSString}
    (given : ¬ (sessionKey = none ∧ truthy passphrase = none))
    (reached : importKey subtle drawn
      (exportFile subtle draws bucketId messages key passSalt) sessionKey
        passphrase = .ok key') :
    importHistory subtle nfc drawn
        (exportFile subtle draws bucketId messages key passSalt) sessionKey
        passphrase =
      if key' = key then .ok (bucketId, messages)
      else .error wrongKeyError := by
  have version : ¬ (exportFile subtle draws bucketId messages key
      passSalt).version ≠ 1 := fun other => other rfl
  unfold importHistory
  rw [if_neg version, if_neg given, reached]
  dsimp only [exportFile]
  rw [base64UrlBytes_bytesToBase64Url, base64UrlBytes_bytesToBase64Url]
  simp only [bind, Except.bind]
  rw [openMessages_encrypt ideal survive]
  by_cases same : key' = key
  · rw [if_pos same, if_pos same]
    rfl
  · rw [if_neg same, if_neg same]
    rfl

/-- The salt of a file written with one. -/
theorem truthy_salt (salt : Vector UInt8 16) :
    truthy ((some salt.toList).map bytesToBase64Url) =
      some (bytesToBase64Url salt.toList) := by
  have full : salt.toList ≠ [] := by
    intro empty
    have length := congrArg List.length empty
    rw [Vector.length_toList] at length
    cases length
  unfold truthy
  rw [Option.map_some, Option.filter_some,
    if_pos (decide_eq_true (bytesToBase64Url_ne_nil full))]

theorem fileSalt_exportFile (subtle : Subtle) (draws : Draws)
    (bucketId : JSString) (messages : List (StoredMessage ν)) (key : Key)
    (salt : Vector UInt8 16) :
    fileSalt (exportFile subtle draws bucketId messages key
      (some salt.toList)) = .ok (some salt.toList) := by
  unfold fileSalt exportFile
  rw [truthy_salt]
  dsimp only
  rw [base64UrlBytes_bytesToBase64Url]
  rfl

/-! ## Imports of exports -/

/-- How a file was exported. -/
inductive ExportMode
  | history (sessionKey : Bytes) (passphrase : Option JSString)
  | passphraseOnly (passphrase : JSString)

/-- What is exported. -/
def ExportMode.file (mode : ExportMode) (subtle : Subtle) (draws : Draws)
    (bucketId : JSString) (messages : List (StoredMessage ν)) : ExportFile :=
  match mode with
  | .history sessionKey passphrase =>
      exportHistory subtle draws bucketId sessionKey messages passphrase
  | .passphraseOnly passphrase =>
      exportHistoryWithPassphraseOnly subtle draws bucketId messages
        passphrase

/-- The secrets of the export are among those supplied. -/
def ExportMode.Included (mode : ExportMode) (sessionKey : Option Bytes)
    (passphrase : Option JSString) : Prop :=
  match mode with
  | .history used usedPassphrase =>
      sessionKey = some used ∧
        ∀ text ∈ truthy usedPassphrase, passphrase = some text
  | .passphraseOnly used => passphrase = some used

/-- Nothing is supplied that the export did not use, unless the bits derived
from it happen not to change the key. -/
def ExportMode.Unmixed (mode : ExportMode) (subtle : Subtle) (draws : Draws)
    (drawn : Vector UInt8 16) (sessionKey : Option Bytes)
    (passphrase : Option JSString) : Prop :=
  match mode with
  | .history _ usedPassphrase =>
      truthy usedPassphrase = none → ∀ text ∈ truthy passphrase,
        subtle.pbkdf2 (textEncode text) drawn.toList = zeroKey
  | .passphraseOnly used =>
      (sessionKey = none → used ≠ []) ∧
        ∀ raw ∈ sessionKey,
          if used = [] then
            subtle.hkdf raw =
              subtle.pbkdf2 (textEncode used) draws.salt.toList
          else subtle.hkdf raw = zeroKey

theorem truthy_of_truthy {text : JSString} {given : Option JSString}
    (used : truthy given = some text) : truthy (some text) = some text := by
  obtain ⟨-, full⟩ := Option.filter_eq_some_iff.mp used
  unfold truthy
  rw [Option.filter_some, if_pos full]

theorem deriveBackupKey_of_none {subtle : Subtle} {drawn : Vector UInt8 16}
    {sessionKey : Bytes} {passphrase : Option JSString}
    {passSalt : Option Bytes} (without : truthy passphrase = none) :
    deriveBackupKey subtle drawn sessionKey passphrase passSalt =
      (subtle.hkdf sessionKey, none) := by
  unfold deriveBackupKey
  rw [without]

theorem deriveBackupKey_of_some {subtle : Subtle} {drawn : Vector UInt8 16}
    {sessionKey : Bytes} {passphrase : Option JSString} {text : JSString}
    (used : truthy passphrase = some text) (passSalt : Option Bytes) :
    deriveBackupKey subtle drawn sessionKey passphrase passSalt =
      (mixed (subtle.hkdf sessionKey) (subtle.pbkdf2 (textEncode text)
        (passSalt.getD drawn.toList)), some (passSalt.getD drawn.toList)) := by
  unfold deriveBackupKey
  rw [used]

/-- An import with a session key derives the key from the salt of the
file. -/
theorem importKey_of_session {subtle : Subtle} {drawn : Vector UInt8 16}
    {file : ExportFile} {raw : Bytes} {passphrase : Option JSString}
    {passSalt : Option Bytes} (salted : fileSalt file = .ok passSalt) :
    importKey subtle drawn file (some raw) passphrase =
      .ok (deriveBackupKey subtle drawn raw passphrase passSalt).1 := by
  unfold importKey
  dsimp only
  rw [salted]
  rfl

theorem ok_iff_of_eq_ite {p : Prop} [Decidable p] {ε α : Type}
    {result : Except ε α} {a : α} {e : ε}
    (reads : result = if p then .ok a else .error e) :
    result = .ok a ↔ p := by
  rw [reads]
  by_cases holds : p
  · rw [if_pos holds]
    exact iff_of_true rfl holds
  · rw [if_neg holds]
    exact iff_of_false (fun equal => nomatch equal) holds

theorem import_of_history {subtle : Subtle} (ideal : subtle.Ideal)
    {nfc : JSString → JSString} {draws : Draws} {drawn : Vector UInt8 16}
    {bucketId : JSString} {messages : List (StoredMessage ν)}
    (survive : ∀ msg ∈ messages, msg.Survives nfc) (used : Bytes)
    {usedPassphrase passphrase : Option JSString}
    (included : ∀ text ∈ truthy usedPassphrase, passphrase = some text) :
    importHistory subtle nfc drawn
        (exportHistory subtle draws bucketId used messages usedPassphrase)
        (some used) passphrase = .ok (bucketId, messages) ↔
      (truthy usedPassphrase = none → ∀ text ∈ truthy passphrase,
        subtle.pbkdf2 (textEncode text) drawn.toList = zeroKey) := by
  have given : ¬ (some used = none ∧ truthy passphrase = none) :=
    fun nothing => nomatch nothing.1
  unfold exportHistory
  cases exported : truthy usedPassphrase with
  | none =>
      rw [deriveBackupKey_of_none exported]
      dsimp only
      rw [ok_iff_of_eq_ite (importHistory_exportFile ideal survive given
        (importKey_of_session rfl))]
      cases extra : truthy passphrase with
      | none =>
          rw [deriveBackupKey_of_none extra]
          exact iff_of_true rfl fun _ text member => nomatch member
      | some text =>
          rw [deriveBackupKey_of_some extra, Option.getD_none, mixed_eq_left]
          constructor
          · intro zero _ text' member
            rw [← Option.some.inj member]
            exact zero
          · intro zero
            exact zero rfl text rfl
  | some text =>
      have same := included text exported
      have again := truthy_of_truthy exported
      rw [deriveBackupKey_of_some exported, Option.getD_none]
      dsimp only
      rw [ok_iff_of_eq_ite (importHistory_exportFile ideal survive given
        (importKey_of_session (fileSalt_exportFile _ _ _ _ _ _))), same,
        deriveBackupKey_of_some again, Option.getD_some]
      exact iff_of_true rfl fun without => nomatch without

/-- An import without a session key derives the key from the passphrase. -/
theorem importKey_of_passphrase {subtle : Subtle} {drawn : Vector UInt8 16}
    {draws : Draws} {bucketId : JSString}
    {messages : List (StoredMessage ν)} {key : Key}
    {passphrase : Option JSString} {text : JSString}
    (used : truthy passphrase = some text) :
    importKey subtle drawn (exportFile subtle draws bucketId messages key
        (some draws.salt.toList)) none passphrase =
      .ok (subtle.pbkdf2 (textEncode text) draws.salt.toList) := by
  unfold importKey exportFile
  dsimp only
  rw [truthy_salt, used]
  dsimp only
  rw [base64UrlBytes_bytesToBase64Url]
  rfl

theorem truthy_some {text : JSString} (full : text ≠ []) :
    truthy (some text) = some text := by
  unfold truthy
  rw [Option.filter_some, if_pos (decide_eq_true full)]

theorem import_of_passphraseOnly {subtle : Subtle} (ideal : subtle.Ideal)
    {nfc : JSString → JSString} {draws : Draws} {drawn : Vector UInt8 16}
    {bucketId : JSString} {messages : List (StoredMessage ν)}
    (survive : ∀ msg ∈ messages, msg.Survives nfc) (used : JSString)
    (sessionKey : Option Bytes) :
    importHistory subtle nfc drawn
        (exportHistoryWithPassphraseOnly subtle draws bucketId messages used)
        sessionKey (some used) = .ok (bucketId, messages) ↔
      (sessionKey = none → used ≠ []) ∧
        ∀ raw ∈ sessionKey,
          if used = [] then
            subtle.hkdf raw =
              subtle.pbkdf2 (textEncode used) draws.salt.toList
          else subtle.hkdf raw = zeroKey := by
  unfold exportHistoryWithPassphraseOnly
  dsimp only
  cases sessionKey with
  | none =>
      by_cases empty : used = []
      · subst empty
        exact iff_of_false (fun read => nomatch read)
          (fun full => full.1 rfl rfl)
      · have given : ¬ ((none : Option Bytes) = none ∧
            truthy (some used) = none) := by
          rintro ⟨-, without⟩
          rw [truthy_some empty] at without
          cases without
        rw [ok_iff_of_eq_ite (importHistory_exportFile ideal survive given
          (importKey_of_passphrase (truthy_some empty)))]
        exact iff_of_true rfl
          ⟨fun _ => empty, fun raw member => nomatch member⟩
  | some raw =>
      have given : ¬ (some raw = none ∧ truthy (some used) = none) :=
        fun nothing => nomatch nothing.1
      rw [ok_iff_of_eq_ite (importHistory_exportFile ideal survive given
        (importKey_of_session (fileSalt_exportFile _ _ _ _ _ _)))]
      have alone : ((some raw = none → used ≠ []) ∧ ∀ raw' ∈ some raw,
          if used = [] then subtle.hkdf raw' =
            subtle.pbkdf2 (textEncode used) draws.salt.toList
          else subtle.hkdf raw' = zeroKey) ↔
          if used = [] then subtle.hkdf raw =
            subtle.pbkdf2 (textEncode used) draws.salt.toList
          else subtle.hkdf raw = zeroKey := by
        simp
      rw [alone]
      by_cases empty : used = []
      · subst empty
        rw [if_pos rfl, deriveBackupKey_of_none rfl]
      · rw [if_neg empty, deriveBackupKey_of_some (truthy_some empty),
          Option.getD_some, mixed_eq_right]

/-- An import given the secrets of a file reads its messages exactly if it is
given no others. -/
theorem import_reads_iff_unmixed {subtle : Subtle} (ideal : subtle.Ideal)
    {nfc : JSString → JSString} {draws : Draws} {drawn : Vector UInt8 16}
    {bucketId : JSString} {messages : List (StoredMessage ν)}
    (survive : ∀ msg ∈ messages, msg.Survives nfc) {mode : ExportMode}
    {sessionKey : Option Bytes} {passphrase : Option JSString}
    (included : mode.Included sessionKey passphrase) :
    importHistory subtle nfc drawn
        (mode.file subtle draws bucketId messages) sessionKey passphrase =
      .ok (bucketId, messages) ↔
      mode.Unmixed subtle draws drawn sessionKey passphrase := by
  cases mode with
  | history used usedPassphrase =>
      obtain ⟨rfl, same⟩ := included
      exact import_of_history ideal survive used same
  | passphraseOnly used =>
      obtain rfl := included
      exact import_of_passphraseOnly ideal survive used sessionKey

/-! ## A secret too many -/

/-- Derivations to fixed keys, and a cipher that writes the key before the
text. -/
def plainSubtle : Subtle where
  hkdf _ := Vector.replicate 32 1
  pbkdf2 _ _ := Vector.replicate 32 2
  encrypt key _ text := key.toList ++ text
  decrypt key _ sealed :=
    if sealed.take 32 = key.toList then some (sealed.drop 32) else none

theorem ideal_plainSubtle : plainSubtle.Ideal := by
  intro key key' nonce text
  have width : key.toList.length = 32 := Vector.length_toList
  have head : (key.toList ++ text).take 32 = key.toList := by
    exact List.take_left' width
  have rest : (key.toList ++ text).drop 32 = text := by
    exact List.drop_left' width
  show (if (key.toList ++ text).take 32 = key'.toList then
    some ((key.toList ++ text).drop 32) else none) = _
  rw [head, rest]
  by_cases same : key' = key
  · rw [if_pos same, if_pos (congrArg Vector.toList same.symm)]
  · rw [if_neg same, if_neg (fun lists => same (Vector.toList_inj.mp
      lists).symm)]

def someDraws : Draws where
  salt := Vector.replicate 16 3
  nonce := Vector.replicate 12 4
  now := js "2024-01-01T00:00:00.000Z"

theorem survives_textMessage : textMessage.Survives id := by
  have storable : textMessage.Storable id :=
    ⟨rfl, rfl, by simp [IsReply]⟩
  unfold StoredMessage.Survives
  rw [Json.parse_stringify (regular_toWire storable), Option.map_some,
    fromWire_toWire storable]
  rfl

theorem survive_textMessage :
    ∀ msg ∈ [textMessage], msg.Survives id := by
  intro msg member
  rw [List.mem_singleton.mp member]
  exact survives_textMessage

theorem import_reads_iff_unmixed_passphrase :
    importHistory plainSubtle id someDraws.salt
        ((ExportMode.passphraseOnly (js "pass")).file plainSubtle someDraws
          (js "room") [textMessage]) none (some (js "pass")) =
      .ok (js "room", [textMessage]) := by
  have included : (ExportMode.passphraseOnly (js "pass")).Included none
      (some (js "pass")) := rfl
  apply (import_reads_iff_unmixed ideal_plainSubtle survive_textMessage
    included).mpr
  constructor
  · intro _
    decide
  · intro _ member
    cases member

/-- A passphrase that the export did not use makes the import fail. -/
theorem import_fails_with_passphrase :
    (ExportMode.history [] none).Included (some []) (some (js "pass")) ∧
      (∀ msg ∈ [textMessage], msg.Survives id) ∧
      importHistory (ν := Int) plainSubtle id someDraws.salt
          (exportHistory plainSubtle someDraws (js "room") [] [textMessage]
            none) (some []) (some (js "pass")) =
        .error wrongKeyError := by
  have used : truthy (some (js "pass")) = some (js "pass") :=
    truthy_some (by decide)
  have included : (ExportMode.history [] none).Included (some [])
      (some (js "pass")) := ⟨rfl, fun text member => nomatch member⟩
  refine ⟨included, survive_textMessage, ?_⟩
  have given : ¬ (some ([] : Bytes) = none ∧
      truthy (some (js "pass")) = none) := fun nothing => nomatch nothing.1
  unfold exportHistory
  rw [deriveBackupKey_of_none rfl]
  dsimp only
  rw [importHistory_exportFile ideal_plainSubtle survive_textMessage given
    (importKey_of_session rfl), deriveBackupKey_of_some used, if_neg]
  rw [mixed_eq_left]
  decide

end Byteln.Client

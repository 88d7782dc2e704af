import Byteln.Library.Unescape
import Byteln.Server.Allowlist
import Byteln.Server.Pow
import Byteln.Server.Replay

/-!
# The front door

What `handleConn` makes of the head of a request before it looks at the
registry: it answers the plain HTTP endpoints, refuses what asks for no
bucket, and reads off what a connection asks for.  Every answer is a complete
HTTP response.
-/

namespace Byteln.Server

open Byteln.Library

/-! ## Reading the request -/

/-- The method, the path and the protocol. -/
def parseReqLine (line : GoString) : GoString × GoString × GoString :=
  match splitOnce line 0x20 with
  | none => ([], [], [])
  | some (method, rest) =>
      match splitOnce rest 0x20 with
      | none => (method, rest, [])
      | some (path, proto) => (method, path, proto)

structure RequestURI where
  path : GoString
  rawQuery : GoString

/-- `url.ParseRequestURI` of a text that starts with a slash. -/
def parseRequestURI (rawURL : GoString) : Option RequestURI :=
  if rawURL.any fun b => b < 0x20 || b == 0x7f then none
  else
    let (rest, rawQuery) := (splitOnce rawURL 0x3f).getD (rawURL, [])
    (urlUnescape false rest).map fun path => ⟨path, rawQuery⟩

def bucketPrefix : GoString :=
  ascii "/bucket/"

/-- `strings.TrimPrefix` and `strings.Trim` of slashes. -/
def bucketIDOf (path : GoString) : GoString :=
  let id := if bucketPrefix.isPrefixOf path then path.drop 8 else path
  (id.dropWhile fun b => b == 0x2f).rdropWhile fun b => b == 0x2f

/-- `[A-Za-z0-9_-]`. -/
def isBucketIDByte (b : UInt8) : Bool :=
  (0x61 ≤ b && b ≤ 0x7a) || (0x41 ≤ b && b ≤ 0x5a) ||
    (0x30 ≤ b && b ≤ 0x39) || b == 0x2d || b == 0x5f

/-- A character that is not ASCII has no byte that is allowed. -/
def validBucketID (id : GoString) : Bool :=
  4 ≤ id.length && id.length ≤ 32 && id.all isBucketIDByte

/-! ## Answers -/

/-- `http.StatusText`, of the codes that are used. -/
def statusText (code : ℕ) : GoString :=
  if code = 200 then ascii "OK"
  else if code = 400 then ascii "Bad Request"
  else if code = 401 then ascii "Unauthorized"
  else if code = 403 then ascii "Forbidden"
  else if code = 404 then ascii "Not Found"
  else if code = 429 then ascii "Too Many Requests"
  else []

/-- A number in decimal digits. -/
def decimalText (n : Int) : GoString :=
  ascii (toString n)

def writeHTTP (code : ℕ) (ctype body allowOrigin : GoString) : GoString :=
  let corsHdr :=
    if allowOrigin = [] then []
    else
      ascii "Access-Control-Allow-Origin: " ++ allowOrigin ++
        ascii "\r\nVary: Origin\r\n"
  ascii "HTTP/1.1 " ++ decimalText code ++ ascii " " ++ statusText code ++
    ascii "\r\nContent-Type: " ++ ctype ++ ascii "\r\n" ++ corsHdr ++
    ascii "Content-Length: " ++ decimalText body.length ++
    ascii "\r\nConnection: close\r\n\r\n" ++ body

def writeHealth (allowOrigin : GoString) : GoString :=
  writeHTTP 200 (ascii "application/json")
    (ascii "\x7b\"ok\":true,\"service\":\"bytelnd\"\x7d\n") allowOrigin

/-- A challenge is quoted as it is: it has neither quotation marks nor
backslashes. -/
def powBody (challenge : GoString) (difficulty : Int) : GoString :=
  ascii "\x7b\"required\":true,\"challenge\":\"" ++ challenge ++
    ascii "\",\"difficulty\":" ++ decimalText difficulty ++ ascii "\x7d\n"

/-- The body of the refused answer is `origin forbidden` and a line end, which
is one byte more than it says. -/
def writeCORSPreflight (allowOrigin : GoString) : GoString :=
  if allowOrigin = [] then
    ascii "HTTP/1.1 403 Forbidden\r\nContent-Type: text/plain\r\n" ++
      ascii "Content-Length: 16\r\nConnection: close\r\n\r\n" ++
      ascii "origin forbidden\n"
  else
    ascii "HTTP/1.1 204 No Content\r\nAccess-Control-Allow-Origin: " ++
      allowOrigin ++ ascii "\r\nVary: Origin\r\n" ++
      ascii "Access-Control-Allow-Methods: GET, OPTIONS\r\n" ++
      ascii "Access-Control-Allow-Headers: Content-Type, X-Byteln-Token\r\n" ++
      ascii "Access-Control-Max-Age: 86400\r\nContent-Length: 0\r\n" ++
      ascii "Connection: close\r\n\r\n"

/-! ## The door -/

/-- What the door uses of the server. -/
structure Front where
  checkWSOrigin : Bool
  powDifficultyBits : Int
  lib : GoLib
  cors : Allowlist
  hashes : Hashes
  powSecret : List UInt8

/-- The clock and the random bytes that a request meets. -/
structure Moment where
  now : Int64
  issued : IssueTime
  nonce : Nonce

/-- What a connection asks for. -/
structure BucketRequest where
  bucketID : GoString
  token : GoString
  deviceSessionID : GoString
  ip : GoString
  deriving DecidableEq

inductive Reply where
  /-- The answer, after which the connection is closed. -/
  | answered (response : GoString)
  | admitted (request : BucketRequest)

namespace Front

variable (front : Front) (moment : Moment)

/-- A fresh challenge. -/
def challenge : GoString :=
  issuePowChallenge front.hashes front.powSecret moment.nonce moment.issued

def writePowChallengeResponse (allowOrigin : GoString) : GoString :=
  if front.powDifficultyBits ≤ 0 then
    writeHTTP 200 (ascii "application/json")
      (ascii "\x7b\"required\":false\x7d\n") allowOrigin
  else
    writeHTTP 200 (ascii "application/json")
      (powBody (front.challenge moment) front.powDifficultyBits) allowOrigin

/-- Does the query carry the proof of work that the relay asks for? -/
def admitsPow (query : List (GoString × GoString)) : Bool :=
  let pow := queryGet query (ascii "pow")
  front.powDifficultyBits ≤ 0 || (pow ≠ [] &&
    verifyPow front.hashes front.powSecret front.powDifficultyBits
      moment.now pow)

def admitsOrigin (origin : GoString) : Bool :=
  !front.checkWSOrigin || origin = [] ||
    front.cors.allow front.lib origin

def handleBucket (remoteAddr : GoString) (headers : Headers)
    (path : GoString) : Reply :=
  let origin := headerGet headers (ascii "Origin")
  match parseRequestURI path with
  | none => .answered (writeHTTP 400 (ascii "text/plain")
      (ascii "bad path\n") [])
  | some u =>
      let bucketID := bucketIDOf u.path
      if validBucketID bucketID = false then
        .answered (writeHTTP 400 (ascii "text/plain")
          (ascii "bad bucket id\n") [])
      else if front.admitsOrigin origin = false then
        .answered (writeHTTP 403 (ascii "text/plain")
          (ascii "origin not allowed\n") [])
      else
        let query := parseQuery u.rawQuery
        if front.admitsPow moment query = false then
          .answered (writeHTTP 401 (ascii "application/json")
            (powBody (front.challenge moment) front.powDifficultyBits)
            (front.cors.corsOrigin front.lib origin))
        else
          let token := queryGet query (ascii "token")
          .admitted
            { bucketID := bucketID
              token := if token = [] then
                  headerGet headers (ascii "X-Byteln-Token")
                else token
              deviceSessionID := queryGet query (ascii "sid")
              ip := clientIP remoteAddr headers }

def handle (remoteAddr : GoString) (head : RequestHead) : Reply :=
  let (method, path, _) := parseReqLine head.reqLine
  let echo := front.cors.corsOrigin front.lib
    (headerGet head.headers (ascii "Origin"))
  if method = ascii "OPTIONS" ∧
      (path = ascii "/health" ∨ path = ascii "/health/") then
    .answered (writeCORSPreflight echo)
  else if method = ascii "GET" ∧
      (path = ascii "/health" ∨ path = ascii "/health/") then
    .answered (writeHealth echo)
  else if method = ascii "OPTIONS" ∧
      (path = ascii "/pow-challenge" ∨ path = ascii "/pow-challenge/") then
    .answered (writeCORSPreflight echo)
  else if method = ascii "GET" ∧
      (path = ascii "/pow-challenge" ∨ path = ascii "/pow-challenge/") then
    .answered (front.writePowChallengeResponse moment echo)
  else if method ≠ ascii "GET" ∨ bucketPrefix.isPrefixOf path = false then
    .answered (writeHTTP 404 (ascii "text/plain") (ascii "not found\n") [])
  else front.handleBucket moment remoteAddr head.headers path

end Front

/-! ## Heads -/

theorem visible_notMem_space {b : UInt8} (visible : isVisible b = true) :
    (∀ encoding ∈ spaceEncodings, b ∉ encoding) ∧ b ≠ 0x0D ∧ b ≠ 0x0A := by
  have blank : spaceEncodings.all (fun encoding =>
      encoding.all fun b => !isVisible b) = true := by
    decide
  refine ⟨?_, ?_, ?_⟩
  · intro encoding member inside
    have white :=
      List.all_eq_true.mp (List.all_eq_true.mp blank _ member) _ inside
    rw [visible] at white
    cases white
  · rintro rfl
    cases visible
  · rintro rfl
    cases visible

theorem trimRight_visible (s : GoString) {b : UInt8}
    (visible : isVisible b = true) : trimRight (s ++ [b]) = s ++ [b] := by
  have none : (spaceEncodings.map List.reverse).find?
      (fun first => first.isPrefixOf (s ++ [b]).reverse) = none := by
    rw [List.reverse_append, List.find?_eq_none]
    intro first member isPrefix
    obtain ⟨encoding, inside, rfl⟩ := List.mem_map.mp member
    have some_ : encoding ≠ [] := by
      rintro rfl
      exact nil_notMem_spaceEncodings inside
    obtain ⟨init, last, rfl⟩ := List.eq_nil_or_concat encoding |>.resolve_left
      some_
    simp only [List.concat_eq_append, List.reverse_append, List.reverse_cons,
      List.reverse_nil, List.nil_append, List.cons_append, List.isPrefixOf,
      Bool.and_eq_true, beq_iff_eq] at isPrefix
    have apart := (visible_notMem_space visible).1 _ inside
    rw [← isPrefix.1] at apart
    exact apart (by simp)
  unfold trimRight
  rw [trimPrefixes_of_find? none, List.reverse_reverse]

/-- White space is only trimmed off the outside. -/
theorem trimSpace_visible {s : GoString} (some_ : s ≠ [])
    (visible : ∀ b ∈ s, isVisible b = true) : trimSpace s = s := by
  obtain ⟨init, last, same⟩ := List.eq_nil_or_concat s |>.resolve_left some_
  obtain ⟨first, rest, begins⟩ := List.exists_cons_of_ne_nil some_
  rw [List.concat_eq_append] at same
  have left : trimLeft s = s := by
    have whole := trimLeft_append (visible_notMem_space
      (visible first (by simp [begins]))).1 [] rest
    rw [begins]
    exact whole
  unfold trimSpace
  rw [left, same]
  exact trimRight_visible init (visible last (by simp [same]))

def fieldLine (field : GoString × GoString) : GoString :=
  field.1 ++ ascii ": " ++ field.2 ++ ascii "\r\n"

/-- Visible characters without a colon. -/
def isFieldName (name : GoString) : Bool :=
  name ≠ [] && name.all fun b => isVisible b && b != 0x3A

/-- A name, and a value in one line. -/
structure IsField (field : GoString × GoString) : Prop where
  name : isFieldName field.1 = true
  value : 0x0A ∉ field.2

theorem IsField.visible {field : GoString × GoString}
    (isField : IsField field) :
    field.1 ≠ [] ∧ ∀ b ∈ field.1, isVisible b = true ∧ b ≠ 0x3A := by
  have name := isField.name
  simp only [isFieldName, Bool.and_eq_true, decide_eq_true_eq,
    List.all_eq_true, bne_iff_ne] at name
  exact name

/-- Line ends are only trimmed behind the last byte that is none. -/
theorem trimLineEnd_append (s v : GoString) {b : UInt8}
    (plain : (b == 0x0D || b == 0x0A) = false) :
    trimLineEnd (s ++ b :: v) = s ++ b :: trimLineEnd v := by
  unfold trimLineEnd
  induction v using List.reverseRecOn with
  | nil =>
      rw [List.rdropWhile_concat_neg _ _ _ (by simp [plain])]
      rfl
  | append_singleton v last induction =>
      rw [← List.cons_append, ← List.append_assoc]
      by_cases ends : (last == 0x0D || last == 0x0A) = true
      · rw [List.rdropWhile_concat_pos (fun b => b == 0x0D || b == 0x0A) _ _
            ends,
          List.rdropWhile_concat_pos (fun b => b == 0x0D || b == 0x0A) _ _
            ends, induction]
      · rw [List.rdropWhile_concat_neg (fun b => b == 0x0D || b == 0x0A) _ _
            ends,
          List.rdropWhile_concat_neg (fun b => b == 0x0D || b == 0x0A) _ _
            ends]
        simp

theorem trimLineEnd_fieldLine (field : GoString × GoString) :
    trimLineEnd (fieldLine field) =
      field.1 ++ 0x3A :: 0x20 :: trimLineEnd field.2 := by
  have line : ascii "\r\n" = [0x0D] ++ [0x0A] := rfl
  have colon : ascii ": " = [0x3A, 0x20] := rfl
  have ends : trimLineEnd (field.2 ++ ascii "\r\n") =
      trimLineEnd field.2 := by
    unfold trimLineEnd
    rw [line, ← List.append_assoc, List.rdropWhile_concat_pos _ _ _ rfl,
      List.rdropWhile_concat_pos _ _ _ rfl]
  have space := trimLineEnd_append [] (field.2 ++ ascii "\r\n")
    (show ((0x20 : UInt8) == 0x0D || (0x20 : UInt8) == 0x0A) = false from rfl)
  rw [List.nil_append, List.nil_append, ends] at space
  unfold fieldLine
  rw [List.append_assoc, List.append_assoc, colon, List.cons_append,
    List.singleton_append, trimLineEnd_append _ _ rfl, space]

theorem headerLine_fieldLine {field : GoString × GoString}
    (isField : IsField field) :
    headerLine (trimLineEnd (fieldLine field)) =
      some (canonicalHeaderKey field.1,
        trimSpace (0x20 :: trimLineEnd field.2)) := by
  obtain ⟨some_, visible⟩ := isField.visible
  have colon : (0x3A : UInt8) ∉ field.1 := fun member =>
    (visible _ member).2 rfl
  have name : trimSpace field.1 = field.1 :=
    trimSpace_visible some_ fun b member => (visible b member).1
  unfold headerLine
  rw [trimLineEnd_fieldLine, splitOnce_append _ colon]
  simp only [Option.map_some, name]

/-- The headers that a list of fields sets. -/
def setFields (headers : Headers) (fields : List (GoString × GoString)) :
    Headers :=
  fields.foldl (fun headers field => Function.update headers
    (canonicalHeaderKey field.1) (trimSpace (0x20 :: trimLineEnd field.2)))
    headers

theorem isLine_fieldLine {field : GoString × GoString}
    (isField : IsField field) : IsLine (fieldLine field) := by
  refine ⟨field.1 ++ ascii ": " ++ field.2 ++ [0x0D], ?_, ?_⟩
  · simp only [List.mem_append, List.mem_singleton, not_or]
    refine ⟨⟨⟨fun member => ?_, by decide⟩, isField.value⟩, by decide⟩
    exact (visible_notMem_space (isField.visible.2 _ member).1).2.2 rfl
  · have line : ascii "\r\n" = [0x0D] ++ [0x0A] := rfl
    unfold fieldLine
    rw [line]
    simp only [List.append_assoc]

theorem readHTTPHeaders_fields {fields : List (GoString × GoString)}
    (areFields : ∀ field ∈ fields, IsField field) (headers : Headers) :
    readHTTPHeaders headers (fields.map fieldLine ++ [ascii "\r\n"]) =
      some (setFields headers fields) := by
  induction fields generalizing headers with
  | nil => rfl
  | cons field fields induction =>
      obtain ⟨isField, areFields⟩ := List.forall_mem_cons.mp areFields
      have content : trimLineEnd (fieldLine field) ≠ [] := by
        rw [trimLineEnd_fieldLine]
        simp
      rw [List.map_cons, List.cons_append, readHTTPHeaders]
      simp only [if_neg content, headerLine_fieldLine isField]
      exact induction areFields _

/-- A status line and some fields. -/
def headBytes (status : GoString) (fields : List (GoString × GoString)) :
    GoString :=
  status ++ ascii "\r\n" ++ ((fields.map fieldLine).flatten ++ ascii "\r\n")

/-- A response with a head in lines, and a body of so many bytes as the head
says. -/
def Declares (response body : GoString) (length : ℕ) : Prop :=
  ∃ (head : HeadLines) (headers : Headers),
    response = head.bytes ++ body ∧
    readHTTPHeaders (fun _ => []) (head.lines ++ [head.last]) = some headers ∧
    headerGet headers (ascii "Content-Length") = decimalText length

theorem visible_of_decimalText (n : ℕ) :
    decimalText n ≠ [] ∧ ∀ b ∈ decimalText n, isVisible b = true := by
  have digits : (toString (n : Int)).toList = Nat.toDigits 10 n := by
    show (Nat.repr n).toList = _
    rw [Nat.repr_eq_ofList_toDigits, String.toList_ofList]
  unfold decimalText ascii
  rw [digits]
  constructor
  · rw [ne_eq, List.map_eq_nil_iff]
    exact Nat.toDigits_ne_nil
  · intro b member
    obtain ⟨c, inside, rfl⟩ := List.mem_map.mp member
    have digit := Nat.isDigit_of_mem_toDigits (by decide) (by decide) inside
    have bounds : 0x30 ≤ c.toNat ∧ c.toNat ≤ 0x39 := by
      simpa [Char.isDigit, UInt32.le_iff_toNat_le] using digit
    have value : (UInt8.ofNat c.toNat).toNat = c.toNat := by
      rw [UInt8.toNat_ofNat']
      omega
    unfold isVisible
    simp only [Bool.and_eq_true, decide_eq_true_eq, UInt8.le_iff_toNat_le,
      value, UInt8.reduceToNat]
    omega

theorem trimLineEnd_visible {s : GoString}
    (visible : ∀ b ∈ s, isVisible b = true) : trimLineEnd s = s := by
  rcases List.eq_nil_or_concat s with rfl | ⟨init, last, rfl⟩
  · rfl
  · rw [List.concat_eq_append] at *
    have plain := visible_notMem_space (visible last (by simp))
    unfold trimLineEnd
    exact List.rdropWhile_concat_neg _ _ _ (by simp [plain.2.1, plain.2.2])

theorem setFields_of_apart {key : GoString}
    {fields : List (GoString × GoString)}
    (apart : ∀ field ∈ fields, canonicalHeaderKey field.1 ≠ key)
    (headers : Headers) : setFields headers fields key = headers key := by
  induction fields generalizing headers with
  | nil => rfl
  | cons field fields induction =>
      obtain ⟨first, apart⟩ := List.forall_mem_cons.mp apart
      unfold setFields at induction ⊢
      rw [List.foldl_cons, induction apart,
        Function.update_of_ne (Ne.symm first)]

/-- A head with a length, and fields of other names behind it. -/
theorem declares_headBytes {status body : GoString}
    {before after : List (GoString × GoString)} {length : ℕ}
    (oneLine : 0x0A ∉ status)
    (fieldsBefore : ∀ field ∈ before, IsField field)
    (fieldsAfter : ∀ field ∈ after, IsField field ∧
      canonicalHeaderKey field.1 ≠ ascii "Content-Length") :
    Declares (headBytes status (before ++
        (ascii "Content-Length", decimalText length) :: after) ++ body)
      body length := by
  obtain ⟨some_, visible⟩ := visible_of_decimalText length
  have own : IsField (ascii "Content-Length", decimalText length) := by
    refine ⟨rfl, fun member => ?_⟩
    exact (visible_notMem_space (visible _ member)).2.2 rfl
  have areFields : ∀ field ∈ before ++
      (ascii "Content-Length", decimalText length) :: after,
      IsField field := by
    intro field member
    rcases List.mem_append.mp member with early | late
    · exact fieldsBefore field early
    · rcases List.mem_cons.mp late with rfl | late
      · exact own
      · exact (fieldsAfter field late).1
  have line : ascii "\r\n" = [0x0D] ++ [0x0A] := rfl
  have head : IsLine (status ++ ascii "\r\n") := by
    refine ⟨status ++ [0x0D], ?_, by rw [line, List.append_assoc]⟩
    simp [oneLine]
  have empty : IsLine (ascii "\r\n") := ⟨[0x0D], by decide, rfl⟩
  refine ⟨⟨status ++ ascii "\r\n", (before ++
      (ascii "Content-Length", decimalText length) :: after).map fieldLine,
      ascii "\r\n", ?_, ?_, rfl⟩, _, rfl,
    readHTTPHeaders_fields areFields _, ?_⟩
  · intro text member
    rcases List.mem_cons.mp member with rfl | member
    · exact head
    · rcases List.mem_cons.mp member with rfl | member
      · exact empty
      · obtain ⟨field, inside, rfl⟩ := List.mem_map.mp member
        exact isLine_fieldLine (areFields field inside)
  · intro text member
    obtain ⟨field, inside, rfl⟩ := List.mem_map.mp member
    rw [trimLineEnd_fieldLine]
    simp
  · have key : canonicalHeaderKey (ascii "Content-Length") =
        ascii "Content-Length" := by
      decide
    have trimmed : trimSpace (0x20 :: decimalText length) =
        decimalText length := by
      have whole := trimSpace_visible some_ visible
      unfold trimSpace at whole ⊢
      rw [trimLeft_cons_space, whole]
    unfold headerGet setFields
    rw [List.foldl_append, List.foldl_cons]
    have kept := setFields_of_apart
      (fun field member => (fieldsAfter field member).2)
    unfold setFields at kept
    rw [key, kept, Function.update_self, trimLineEnd_visible visible, trimmed]

/-! ## Every answer is framed -/

/-- The fields that echo an origin. -/
def corsFields (allowOrigin : GoString) : List (GoString × GoString) :=
  if allowOrigin = [] then []
  else
    [(ascii "Access-Control-Allow-Origin", allowOrigin),
      (ascii "Vary", ascii "Origin")]

theorem isField_cors {allowOrigin : GoString} (oneLine : 0x0A ∉ allowOrigin) :
    ∀ field ∈ corsFields allowOrigin, IsField field := by
  intro field member
  unfold corsFields at member
  split at member
  · cases member
  · simp only [List.mem_cons, List.not_mem_nil, or_false] at member
    rcases member with rfl | rfl
    · exact ⟨rfl, oneLine⟩
    · exact ⟨rfl, by decide⟩

theorem writeHTTP_eq (code : ℕ) (ctype body allowOrigin : GoString) :
    writeHTTP code ctype body allowOrigin =
      headBytes (ascii "HTTP/1.1 " ++ decimalText code ++ ascii " " ++
          statusText code)
        ((ascii "Content-Type", ctype) :: corsFields allowOrigin ++
          (ascii "Content-Length", decimalText body.length) ::
            [(ascii "Connection", ascii "close")]) ++ body := by
  have first : ascii "\r\nContent-Type: " =
      ascii "\r\n" ++ (ascii "Content-Type" ++ ascii ": ") := rfl
  have origin : ascii "Access-Control-Allow-Origin: " =
      ascii "Access-Control-Allow-Origin" ++ ascii ": " := rfl
  have vary : ascii "\r\nVary: Origin\r\n" = ascii "\r\n" ++
      (ascii "Vary" ++ (ascii ": " ++ (ascii "Origin" ++ ascii "\r\n"))) :=
    rfl
  have length : ascii "Content-Length: " =
      ascii "Content-Length" ++ ascii ": " := rfl
  have last : ascii "\r\nConnection: close\r\n\r\n" = ascii "\r\n" ++
      (ascii "Connection" ++ (ascii ": " ++ (ascii "close" ++
        (ascii "\r\n" ++ ascii "\r\n")))) := rfl
  unfold writeHTTP headBytes corsFields fieldLine
  rw [first, origin, vary, length, last]
  split <;> simp

/-- A status whose text is in one line. -/
theorem declares_writeHTTP {code : ℕ} {ctype allowOrigin : GoString}
    (body : GoString) (status : 0x0A ∉ statusText code)
    (kind : 0x0A ∉ ctype) (oneLine : 0x0A ∉ allowOrigin) :
    Declares (writeHTTP code ctype body allowOrigin) body body.length := by
  rw [writeHTTP_eq]
  apply declares_headBytes
  · have digits := (visible_of_decimalText code).2
    have version : (0x0A : UInt8) ∉ ascii "HTTP/1.1 " ∧
        (0x0A : UInt8) ∉ ascii " " := by
      decide
    simp only [List.mem_append, not_or]
    refine ⟨⟨⟨version.1, fun member => ?_⟩, version.2⟩, status⟩
    exact (visible_notMem_space (digits _ member)).2.2 rfl
  · intro field member
    rcases List.mem_cons.mp member with rfl | cors
    · exact ⟨rfl, kind⟩
    · exact isField_cors oneLine field cors
  · intro field member
    obtain rfl := List.mem_singleton.mp member
    exact ⟨⟨rfl, by decide⟩, by decide⟩

/-- The refused preflight says one byte less than it has. -/
theorem declares_refused : Declares (writeCORSPreflight [])
    (ascii "origin forbidden\n") 16 := by
  have whole : writeCORSPreflight [] =
      headBytes (ascii "HTTP/1.1 403 Forbidden")
        ([(ascii "Content-Type", ascii "text/plain")] ++
          (ascii "Content-Length", decimalText (16 : ℕ)) ::
            [(ascii "Connection", ascii "close")]) ++
        ascii "origin forbidden\n" := by
    decide +kernel
  rw [whole]
  apply declares_headBytes
  · decide
  · intro field member
    obtain rfl := List.mem_singleton.mp member
    exact ⟨rfl, by decide⟩
  · intro field member
    obtain rfl := List.mem_singleton.mp member
    exact ⟨⟨rfl, by decide⟩, by decide⟩

theorem declares_permitted {allowOrigin : GoString} (some_ : allowOrigin ≠ [])
    (oneLine : 0x0A ∉ allowOrigin) :
    Declares (writeCORSPreflight allowOrigin) [] 0 := by
  have first : ascii
      "HTTP/1.1 204 No Content\r\nAccess-Control-Allow-Origin: " =
        ascii "HTTP/1.1 204 No Content" ++ (ascii "\r\n" ++
          (ascii "Access-Control-Allow-Origin" ++ ascii ": ")) := rfl
  have rest : ascii "\r\nVary: Origin\r\n" ++
      (ascii "Access-Control-Allow-Methods: GET, OPTIONS\r\n" ++
      (ascii "Access-Control-Allow-Headers: Content-Type, X-Byteln-Token\r\n"
      ++ (ascii "Access-Control-Max-Age: 86400\r\nContent-Length: 0\r\n" ++
        ascii "Connection: close\r\n\r\n"))) =
      ascii "\r\n" ++ (([(ascii "Vary", ascii "Origin"),
          (ascii "Access-Control-Allow-Methods", ascii "GET, OPTIONS"),
          (ascii "Access-Control-Allow-Headers",
            ascii "Content-Type, X-Byteln-Token"),
          (ascii "Access-Control-Max-Age", ascii "86400"),
          (ascii "Content-Length", decimalText (0 : ℕ)),
          (ascii "Connection", ascii "close")].map fieldLine).flatten ++
        ascii "\r\n") := by
    decide +kernel
  have whole : writeCORSPreflight allowOrigin =
      headBytes (ascii "HTTP/1.1 204 No Content")
        ((ascii "Access-Control-Allow-Origin", allowOrigin) ::
          [(ascii "Vary", ascii "Origin"),
            (ascii "Access-Control-Allow-Methods", ascii "GET, OPTIONS"),
            (ascii "Access-Control-Allow-Headers",
              ascii "Content-Type, X-Byteln-Token"),
            (ascii "Access-Control-Max-Age", ascii "86400")] ++
          (ascii "Content-Length", decimalText (0 : ℕ)) ::
            [(ascii "Connection", ascii "close")]) ++ [] := by
    unfold writeCORSPreflight headBytes
    rw [if_neg some_, first]
    simp only [List.append_assoc, rest]
    simp [fieldLine]
  rw [whole]
  apply declares_headBytes
  · decide
  · intro field member
    simp only [List.mem_cons, List.not_mem_nil, or_false] at member
    rcases member with rfl | rfl | rfl | rfl | rfl
    · exact ⟨rfl, oneLine⟩
    all_goals exact ⟨rfl, by decide⟩
  · intro field member
    obtain rfl := List.mem_singleton.mp member
    exact ⟨⟨rfl, by decide⟩, by decide⟩

/-- The values of headers are in one line each. -/
theorem oneLine_of_readHTTPHeaders {lines : List GoString}
    (ended : ∀ line ∈ lines, IsLine line) {headers headers' : Headers}
    (read : readHTTPHeaders headers lines = some headers')
    (before : ∀ k, 0x0A ∉ headers k) (k : GoString) : 0x0A ∉ headers' k := by
  induction lines generalizing headers with
  | nil => cases read
  | cons line lines induction =>
      obtain ⟨⟨body, oneLine, rfl⟩, later⟩ := List.forall_mem_cons.mp ended
      rw [readHTTPHeaders] at read
      split at read
      · obtain rfl := Option.some.inj read
        exact before k
      · split at read
        · exact induction later read before
        · rename_i key v found
          refine induction later read fun other => ?_
          by_cases same : other = key
          · subst same
            rw [Function.update_self]
            unfold headerLine at found
            obtain ⟨⟨name, text⟩, split, equal⟩ :=
              Option.map_eq_some_iff.mp found
            obtain ⟨-, rfl⟩ := Prod.mk.inj equal
            intro member
            have inText : (0x0A : UInt8) ∈ text := by
              have left := List.mem_reverse.mp (mem_trimPrefixes _ (by
                simpa [trimSpace, trimRight] using member))
              exact mem_trimPrefixes _ left
            obtain ⟨whole, -⟩ := splitOnce_inv split
            have inBody : trimLineEnd (body ++ [0x0A]) <+: body := by
              unfold trimLineEnd
              rw [List.rdropWhile_concat_pos
                (fun b => b == 0x0D || b == 0x0A) _ _ rfl]
              exact List.rdropWhile_prefix _ _
            apply oneLine
            apply inBody.subset
            rw [whole]
            exact List.mem_append_right _ (List.mem_cons_of_mem _ inText)
          · rw [Function.update_of_ne same]
            exact before other

namespace Front

/-- Whatever head arrives, however it is cut: the answer of the door, if it
gives one, is a head in lines and a body, and the head says how long the body
is.  Only the answer to a preflight that is refused says one byte less. -/
theorem answers_framed (front : Front) (moment : Moment)
    (remoteAddr : GoString) {network : Wire UInt8} {head : HeadLines}
    {rest : GoString} (stream : network.content = head.bytes ++ rest) :
    ∃ parsed c, (BufConn.newBufConn network).readHTTPHeaders =
        some (parsed, c) ∧
      ∀ response, front.handle moment remoteAddr parsed =
          .answered response →
        (∃ body, Declares response body body.length) ∨
          response = writeCORSPreflight [] ∧
            Declares response (ascii "origin forbidden\n") 16 := by
  obtain ⟨headers, c, read, lines, -⟩ :=
    BufConn.readHTTPHeaders_head stream
  refine ⟨_, c, read, ?_⟩
  obtain ⟨-, ended⟩ := List.forall_mem_cons.mp head.ended
  obtain ⟨last, ended⟩ := List.forall_mem_cons.mp ended
  have oneLine : ∀ k, 0x0A ∉ headers k := by
    refine oneLine_of_readHTTPHeaders ?_ lines fun _ => List.not_mem_nil
    intro line member
    rcases List.mem_append.mp member with full | empty
    · exact ended line full
    · rw [List.mem_singleton.mp empty]
      exact last
  have echoed : 0x0A ∉ front.cors.corsOrigin front.lib
      (headerGet headers (ascii "Origin")) := by
    unfold Allowlist.corsOrigin
    split
    · exact List.not_mem_nil
    · exact oneLine _
  have preflight : ∀ {response}, Reply.answered (writeCORSPreflight
      (front.cors.corsOrigin front.lib (headerGet headers (ascii "Origin")))) =
        .answered response →
      (∃ body, Declares response body body.length) ∨
        response = writeCORSPreflight [] ∧
          Declares response (ascii "origin forbidden\n") 16 := by
    intro response answer
    obtain rfl := Reply.answered.inj answer
    by_cases refused : front.cors.corsOrigin front.lib
        (headerGet headers (ascii "Origin")) = []
    · rw [refused]
      exact .inr ⟨rfl, declares_refused⟩
    · exact .inl ⟨[], declares_permitted refused echoed⟩
  have plain : ∀ {response code ctype body echo},
      Reply.answered (writeHTTP code ctype body echo) = .answered response →
      0x0A ∉ statusText code → 0x0A ∉ ctype → 0x0A ∉ echo →
      ∃ body, Declares response body body.length := by
    intro response code ctype body echo answer status kind apart
    obtain rfl := Reply.answered.inj answer
    exact ⟨body, declares_writeHTTP body status kind apart⟩
  intro response answer
  simp only [handle] at answer
  split at answer
  · exact preflight answer
  · split at answer
    · exact .inl (plain answer (by decide) (by decide) echoed)
    · split at answer
      · exact preflight answer
      · split at answer
        · left
          unfold writePowChallengeResponse at answer
          split at answer
          · exact plain answer (by decide) (by decide) echoed
          · exact plain answer (by decide) (by decide) echoed
        · split at answer
          · exact .inl (plain answer (by decide) (by decide)
              List.not_mem_nil)
          · left
            unfold handleBucket at answer
            dsimp only at answer
            split at answer
            · exact plain answer (by decide) (by decide) List.not_mem_nil
            · split at answer
              · exact plain answer (by decide) (by decide) List.not_mem_nil
              · split at answer
                · exact plain answer (by decide) (by decide)
                    List.not_mem_nil
                · split at answer
                  · exact plain answer (by decide) (by decide) echoed
                  · cases answer

/-- A relay without a proof of work. -/
def sample : Front where
  checkWSOrigin := false
  powDifficultyBits := 0
  lib := plainLib
  cors := Allowlist.new plainLib [] []
  hashes := ⟨fun _ bytes => bytes, fun bytes => bytes⟩
  powSecret := []

def sampleMoment : Moment where
  now := 0
  issued := ⟨0, by decide⟩
  nonce := ⟨List.replicate 16 0, rfl⟩

theorem answers_framed_sample :
    ∃ parsed c, (BufConn.newBufConn BufConn.sampleNetwork).readHTTPHeaders =
        some (parsed, c) ∧
      ∀ response, sample.handle sampleMoment (ascii "192.0.2.1:80") parsed =
          .answered response →
        (∃ body, Declares response body body.length) ∨
          response = writeCORSPreflight [] ∧
            Declares response (ascii "origin forbidden\n") 16 :=
  answers_framed sample sampleMoment (ascii "192.0.2.1:80")
    (show BufConn.sampleNetwork.content =
      BufConn.sampleHead.bytes ++ [0x81] by decide)

end Front

end Byteln.Server

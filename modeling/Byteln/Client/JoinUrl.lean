import Byteln.Client.Handoff
import Byteln.Client.Pow
import Byteln.Library.Decimal
import Byteln.Library.UrlTarget
import Byteln.Server.FrontDoor

/-!
# Joining through the front door

The URL that a page connects to, the challenge it solves before, and what the
front door of the relay reads off the request.
-/

namespace Byteln.Client

open Byteln.Library Byteln.Server

/-! ## The URL -/

def joinParams (token deviceSessionId : JSString) : UrlParams :=
  let params : UrlParams := [(js "token", repair token)]
  if deviceSessionId = [] then params
  else params.set (js "sid") deviceSessionId

/-- A lone surrogate in the identifier is an error. -/
def joinUrl (relayBase bucketId token deviceSessionId : JSString) :
    Option JSString :=
  (encodeURIComponent bucketId).map fun id =>
    wsBase relayBase ++ js "/bucket/" ++ id ++ js "?" ++
      (joinParams token deviceSessionId).format

/-- What the socket asks for that `openSocket` makes, with the solution of a
challenge. -/
def socketTarget (url : JSString) (pow : Option JSString) : UrlTarget :=
  match pow with
  | none => .ofUrl url
  | some pow => (UrlTarget.ofUrl url).setParam (js "pow") pow

/-! ## The challenge -/

namespace Pow

/-- `!!v`. -/
def isTruthy : Option (Json ℤ) → Bool
  | none | some .null => false
  | some (.bool b) => b
  | some (.number n) => n ≠ 0
  | some (.string s) => s ≠ []
  | _ => true

/-- The fields of a challenge, where they have their types. -/
def PowChallengeInfo.ofJson (v : Json ℤ) : PowChallengeInfo where
  required := isTruthy (v.get? (js "required"))
  challenge := ((v.get? (js "challenge")).bind Json.string?).getD []
  difficulty := ((v.get? (js "difficulty")).bind Json.integer?).getD 0

def notRequired : PowChallengeInfo where
  required := false
  challenge := []
  difficulty := 0

/-- In milliseconds. -/
def NEGATIVE_CACHE_MS : ℤ :=
  60000

structure CacheEntry where
  info : PowChallengeInfo
  expiresAt : ℤ

/-- What comes of asking: nothing that can be read, an answer that is not
`ok`, or a value. -/
inductive Fetched where
  | failed
  | refused
  | data (v : Json ℤ)

/-- The entry of the relay's origin, and what is asked for if there is none
that lasts. -/
def getPowChallenge (cached : Option CacheEntry) (now : ℤ)
    (fetched : Fetched) : PowChallengeInfo × Option CacheEntry :=
  match cached.filter fun entry => now < entry.expiresAt with
  | some entry => (entry.info, cached)
  | none =>
      match fetched with
      | .failed => (notRequired, cached)
      | .refused =>
          (notRequired, some ⟨notRequired, now + NEGATIVE_CACHE_MS⟩)
      | .data v =>
          if (PowChallengeInfo.ofJson v).required = false then
            (notRequired, some ⟨notRequired, now + NEGATIVE_CACHE_MS⟩)
          else (.ofJson v, cached)

/-- A body that is no JSON cannot be read, nor can `null`. -/
def fetchedBody (body : List UInt8) : Fetched :=
  match Json.parse (utf8Decode body) with
  | none | some .null => .failed
  | some v => .data v

end Pow

/-! ## What is asked for -/

/-- An address of a relay that has its origin for itself. -/
def IsRelayBase (relayBase : JSString) : Prop :=
  ∃ scheme host, 0x3a ∉ scheme ∧ (∀ u ∈ host, endsAuthority u = false) ∧
    wsBase relayBase = scheme ++ js "://" ++ host

/-- The parameters of the request. -/
def sentParams (token deviceSessionId : JSString) (pow : Option JSString) :
    UrlParams :=
  [(js "token", repair token)] ++
    (if deviceSessionId = [] then []
      else [(js "sid", repair deviceSessionId)]) ++
    (pow.map fun pow => (js "pow", repair pow)).toList

theorem joinParams_eq (token deviceSessionId : JSString) :
    joinParams token deviceSessionId =
      sentParams token deviceSessionId none := by
  have apart : js "token" ≠ js "sid" := by
    decide
  unfold joinParams sentParams
  dsimp only
  split
  · rfl
  · rw [UrlParams.set, if_neg apart, UrlParams.set]
    rfl

theorem joinParams_wellFormed (token deviceSessionId : JSString) :
    (joinParams token deviceSessionId).WellFormed := by
  have first : UrlParams.WellFormed [(js "token", repair token)] := by
    intro pair member
    rw [List.mem_singleton.mp member]
    exact ⟨show isWellFormed (js "token") = true by decide,
      isWellFormed_repair token⟩
  unfold joinParams
  dsimp only
  split
  · exact first
  · exact first.set (show isWellFormed (js "sid") = true by decide)
      deviceSessionId

theorem set_pow (token deviceSessionId pow : JSString) :
    (joinParams token deviceSessionId).set (js "pow") pow =
      sentParams token deviceSessionId (some pow) := by
  have apart : js "token" ≠ js "pow" ∧ js "sid" ≠ js "pow" := by
    decide
  rw [joinParams_eq]
  unfold sentParams
  split
  · simp only [List.append_nil, Option.map_none, Option.toList_none]
    rw [UrlParams.set, if_neg apart.1, UrlParams.set]
    rfl
  · simp only [List.append_nil, Option.map_none, Option.toList_none,
      List.cons_append, List.nil_append]
    rw [UrlParams.set, if_neg apart.1, UrlParams.set, if_neg apart.2,
      UrlParams.set]
    rfl

/-- The parameters of a query are those that were written. -/
theorem parseBytes_joinParams (token deviceSessionId : JSString) :
    UrlParams.parseBytes
        (textEncode (joinParams token deviceSessionId).format) =
      joinParams token deviceSessionId := by
  have some_ : joinParams token deviceSessionId ≠ [] := by
    rw [joinParams_eq]
    exact List.cons_ne_nil _ _
  have head := (UrlParams.head?_format_append some_ []).1
  have whole := UrlParams.parse_format (joinParams token deviceSessionId)
  rw [List.append_nil] at head
  unfold UrlParams.parse at whole
  rw [if_neg head] at whole
  rw [whole]
  exact (joinParams_wellFormed token deviceSessionId).repair

/-- The path of a bucket, and the parameters. -/
theorem socketTarget_joinUrl
    {relayBase bucketId token deviceSessionId url : JSString}
    (relay : IsRelayBase relayBase)
    (made : joinUrl relayBase bucketId token deviceSessionId = some url)
    (pow : Option JSString) :
    isWellFormed bucketId = true ∧ socketTarget url pow =
      { path := resolveDots [] [js "bucket",
          ofAscii ((textEncode bucketId).flatMap uriEncodeByte)]
        query := (sentParams token deviceSessionId pow).format } := by
  obtain ⟨id, encoded, rfl⟩ := Option.map_eq_some_iff.mp made
  unfold encodeURIComponent at encoded
  split at encoded
  · rename_i formed
    obtain rfl := Option.some.inj encoded
    refine ⟨formed, ?_⟩
    obtain ⟨scheme, host, colon, inHost, base⟩ := relay
    have plain : ∀ u ∈ ofAscii ((textEncode bucketId).flatMap uriEncodeByte),
        isSlash u = false ∧ u ≠ 0x3f ∧ u ≠ 0x23 := by
      intro u member
      obtain ⟨b, inside, rfl⟩ := List.mem_map.mp member
      obtain ⟨-, slash, backslash, query, fragment⟩ :=
        visible_of_uriEncode _ b inside
      have slash := UrlParams.toUInt16_ne slash
      have backslash := UrlParams.toUInt16_ne backslash
      refine ⟨?_, UrlParams.toUInt16_ne query,
        UrlParams.toUInt16_ne fragment⟩
      unfold isSlash
      rw [Bool.or_eq_false_iff, decide_eq_false_iff_not,
        decide_eq_false_iff_not]
      exact ⟨slash, backslash⟩
    have name : ∀ u ∈ js "bucket",
        isSlash u = false ∧ u ≠ 0x3f ∧ u ≠ 0x23 := by
      have whole : (js "bucket").all (fun u =>
          !isSlash u && u != 0x3f && u != 0x23) = true := rfl
      intro u member
      simpa [and_assoc] using List.all_eq_true.mp whole u member
    have segments : (js "bucket" ++ 0x2f :: ofAscii
        ((textEncode bucketId).flatMap uriEncodeByte)).splitOnP isSlash =
          [js "bucket",
            ofAscii ((textEncode bucketId).flatMap uriEncodeByte)] := by
      rw [List.splitOnP_append_cons_of_forall_mem
          (fun u member => (name u member).1) _ rfl,
        List.splitOnP_eq_singleton fun u member => (plain u member).1]
    have target : UrlTarget.ofUrl (wsBase relayBase ++ js "/bucket/" ++
        ofAscii ((textEncode bucketId).flatMap uriEncodeByte) ++ js "?" ++
          (joinParams token deviceSessionId).format) =
        ⟨resolveDots [] [js "bucket",
          ofAscii ((textEncode bucketId).flatMap uriEncodeByte)],
          (joinParams token deviceSessionId).format⟩ := by
      have whole := UrlTarget.ofUrl_plain
        (js "bucket" ++ 0x2f :: ofAscii
          ((textEncode bucketId).flatMap uriEncodeByte))
        (joinParams token deviceSessionId).format colon inHost (by
          intro u member
          rcases List.mem_append.mp member with before | member
          · exact (name u before).2
          · rcases List.mem_cons.mp member with rfl | inside
            · decide
            · exact (plain u inside).2)
        fun member => (UrlParams.mem_format member).2 rfl
      rw [segments] at whole
      rw [← whole, base]
      have before : js "/bucket/" = 0x2f :: js "bucket" ++ [0x2f] := rfl
      have mark : js "?" = [0x3f] := rfl
      rw [before, mark]
      simp
    unfold socketTarget
    cases pow with
    | none => rw [target, joinParams_eq]
    | some pow =>
        dsimp only
        rw [target]
        unfold UrlTarget.setParam
        dsimp only
        rw [parseBytes_joinParams, set_pow]
  · cases encoded

/-! ## What the door reads -/

theorem textEncode_repair (s : JSString) :
    textEncode (repair s) = textEncode s := by
  unfold textEncode
  rw [codePoints_repair]

/-- The values that were sent. -/
theorem queryGet_sentParams (token deviceSessionId : JSString)
    (pow : Option JSString) :
    queryGet (parseQuery (textEncode
        (sentParams token deviceSessionId pow).format)) (ascii "token") =
      textEncode token ∧
    queryGet (parseQuery (textEncode
        (sentParams token deviceSessionId pow).format)) (ascii "sid") =
      textEncode deviceSessionId ∧
    queryGet (parseQuery (textEncode
        (sentParams token deviceSessionId pow).format)) (ascii "pow") =
      (pow.map textEncode).getD [] := by
  have keys : textEncode (js "token") = ascii "token" ∧
      textEncode (js "sid") = ascii "sid" ∧
      textEncode (js "pow") = ascii "pow" :=
    ⟨rfl, rfl, rfl⟩
  have apart : ascii "token" ≠ ascii "sid" ∧ ascii "token" ≠ ascii "pow" ∧
      ascii "sid" ≠ ascii "pow" := by
    decide
  rw [parseQuery_format]
  unfold sentParams queryGet
  generalize ascii "token" = tokenKey at *
  generalize ascii "sid" = sidKey at *
  generalize ascii "pow" = powKey at *
  obtain ⟨isToken, isSid, isPow⟩ := keys
  obtain ⟨tokenSid, tokenPow, sidPow⟩ := apart
  by_cases empty : deviceSessionId = []
  · subst empty
    cases pow with
    | none =>
        simp [isToken, textEncode_repair, tokenSid, tokenPow]
        rfl
    | some pow =>
        simp [isToken, isPow, textEncode_repair, tokenSid, tokenPow,
          sidPow.symm]
        rfl
  · cases pow with
    | none =>
        simp [isToken, isSid, textEncode_repair, tokenSid, tokenPow, sidPow,
          empty]
    | some pow =>
        simp [isToken, isSid, isPow, textEncode_repair, tokenSid, tokenPow,
          sidPow, empty]

/-- `strings.Trim(s, "/")`. -/
def trimSlashes (s : GoString) : GoString :=
  (s.dropWhile fun b => b == 0x2f).rdropWhile fun b => b == 0x2f

theorem bucketIDOf_append (id : GoString) :
    bucketIDOf (bucketPrefix ++ id) = trimSlashes id := by
  have before : bucketPrefix.isPrefixOf (bucketPrefix ++ id) = true := by
    rw [List.isPrefixOf_iff_prefix]
    exact List.prefix_append _ _
  have behind : (bucketPrefix ++ id).drop 8 = id := List.drop_left' rfl
  unfold bucketIDOf trimSlashes
  dsimp only
  rw [if_pos before, behind]

theorem visible_apart {s : GoString} (visible : ∀ b ∈ s, isVisible b = true) :
    0x20 ∉ s ∧ (s.any fun b => b < 0x20 || b == 0x7f) = false := by
  have byte : ∀ b, isVisible b = true →
      b ≠ 0x20 ∧ (decide (b < 0x20) || b == 0x7f) = false := by
    intro b seen
    have control : ¬ b < 0x20 := by
      intro below
      have small : b.toNat < 0x20 := below
      have large := (bounds_of_isVisible seen).1
      omega
    have delete : b ≠ 0x7f := ne_of_class seen rfl
    refine ⟨ne_of_class seen rfl, ?_⟩
    simp [control, delete]
  constructor
  · intro member
    exact (byte _ (visible _ member)).1 rfl
  · rw [List.any_eq_false]
    intro b member
    rw [(byte b (visible b member)).2]
    exact Bool.false_ne_true

/-- The request line of a browser. -/
def requestLine (target : GoString) : GoString :=
  ascii "GET " ++ target ++ ascii " HTTP/1.1"

theorem parseReqLine_requestLine {target : GoString}
    (visible : ∀ b ∈ target, isVisible b = true) :
    parseReqLine (requestLine target) =
      (ascii "GET", target, ascii "HTTP/1.1") := by
  have line : requestLine target =
      ascii "GET" ++ 0x20 :: (target ++ 0x20 :: ascii "HTTP/1.1") := by
    have get : ascii "GET " = ascii "GET" ++ [0x20] := rfl
    have proto : ascii " HTTP/1.1" = 0x20 :: ascii "HTTP/1.1" := rfl
    unfold requestLine
    rw [get, proto]
    simp
  unfold parseReqLine
  rw [line, splitOnce_append _ (by decide)]
  dsimp only
  rw [splitOnce_append _ (visible_apart visible).1]

theorem parseRequestURI_append {path query : GoString}
    (visible : ∀ b ∈ path ++ 0x3f :: query, isVisible b = true)
    (apart : 0x3f ∉ path) :
    parseRequestURI (path ++ 0x3f :: query) =
      (urlUnescape false path).map fun path => ⟨path, query⟩ := by
  unfold parseRequestURI
  rw [(visible_apart visible).2, splitOnce_append _ apart]
  rfl

section Door

variable (front : Front) (moment : Moment) (remoteAddr : GoString)
  {raw : GoString} {headers : Headers} {request : BucketRequest}

theorem handleBucket_append {segment id query : GoString}
    (visible : ∀ b ∈ bucketPrefix ++ segment ++ 0x3f :: query,
      isVisible b = true)
    (apart : 0x3f ∉ segment) (decoded : urlUnescape false segment = some id) :
    front.handleBucket moment remoteAddr headers
        (bucketPrefix ++ segment ++ 0x3f :: query) = .admitted request ↔
      validBucketID (trimSlashes id) = true ∧
      front.admitsOrigin (headerGet headers (ascii "Origin")) = true ∧
      front.admitsPow moment (parseQuery query) = true ∧
      request =
        { bucketID := trimSlashes id
          token :=
            if queryGet (parseQuery query) (ascii "token") = [] then
              headerGet headers (ascii "X-Byteln-Token")
            else queryGet (parseQuery query) (ascii "token")
          deviceSessionID := queryGet (parseQuery query) (ascii "sid")
          ip := clientIP remoteAddr headers } := by
  have plain : ∀ b ∈ bucketPrefix, b ≠ 0x25 := by
    intro b member
    have whole : bucketPrefix.all (fun b => b != 0x25) = true := rfl
    simpa using List.all_eq_true.mp whole b member
  have path : urlUnescape false (bucketPrefix ++ segment) =
      some (bucketPrefix ++ id) := by
    rw [urlUnescape_plain_append plain, decoded]
    rfl
  have inPath : 0x3f ∉ bucketPrefix ++ segment := by
    rw [List.mem_append, not_or]
    exact ⟨by decide, apart⟩
  unfold Front.handleBucket
  rw [parseRequestURI_append visible inPath, path]
  dsimp only [Option.map_some]
  rw [bucketIDOf_append]
  by_cases valid : validBucketID (trimSlashes id) = true
  · by_cases origin :
        front.admitsOrigin (headerGet headers (ascii "Origin")) = true
    · by_cases pow : front.admitsPow moment (parseQuery query) = true
      · have passes := Bool.false_ne_true.symm
        rw [valid, origin, pow, if_neg passes, if_neg passes, if_neg passes]
        constructor
        · intro admitted
          exact ⟨rfl, rfl, rfl, (Reply.admitted.inj admitted).symm⟩
        · rintro ⟨-, -, -, rfl⟩
          rfl
      · simp [valid, origin, pow]
    · simp [valid, origin]
  · simp [valid]

theorem handle_requestLine {path query : GoString}
    (visible : ∀ b ∈ path ++ 0x3f :: query, isVisible b = true) :
    front.handle moment remoteAddr
        ⟨raw, requestLine (path ++ 0x3f :: query), headers⟩ =
      .admitted request ↔
      bucketPrefix.isPrefixOf (path ++ 0x3f :: query) = true ∧
        front.handleBucket moment remoteAddr headers
          (path ++ 0x3f :: query) = .admitted request := by
  have mark : 0x3f ∈ path ++ 0x3f :: query := by
    simp
  have other : ∀ known : GoString, 0x3f ∉ known →
      path ++ 0x3f :: query ≠ known := by
    rintro known absent rfl
    exact absent mark
  have health := other (ascii "/health") (by decide)
  have health' := other (ascii "/health/") (by decide)
  have challenge := other (ascii "/pow-challenge") (by decide)
  have challenge' := other (ascii "/pow-challenge/") (by decide)
  unfold Front.handle
  dsimp only
  rw [parseReqLine_requestLine visible]
  dsimp only
  rw [if_neg fun same => same.2.elim health health',
    if_neg fun same => same.2.elim health health',
    if_neg fun same => same.2.elim challenge challenge',
    if_neg fun same => same.2.elim challenge challenge']
  cases bucketPrefix.isPrefixOf (path ++ 0x3f :: query) with
  | true => simp
  | false => simp

end Door

/-! ## Through the door -/

/-- An identifier that is a dot segment names no bucket. -/
theorem invalid_of_dots {id : List UInt8}
    (dot : isSingleDot (ofAscii (id.flatMap uriEncodeByte)) = true ∨
      isDoubleDot (ofAscii (id.flatMap uriEncodeByte)) = true) :
    validBucketID (trimSlashes id) = false := by
  have known : (dots ++ dots.flatMap fun dot => dots.map (dot ++ ·)).all
      (fun segment =>
        ofAscii (segment.map UInt16.toUInt8) == segment &&
          (urlUnescape false (segment.map UInt16.toUInt8) == some [0x2e] ||
            urlUnescape false (segment.map UInt16.toUInt8) ==
              some [0x2e, 0x2e])) = true :=
    rfl
  have member : ofAscii (id.flatMap uriEncodeByte) ∈
      dots ++ dots.flatMap fun dot => dots.map (dot ++ ·) := by
    rw [List.mem_append]
    exact dot.imp of_decide_eq_true of_decide_eq_true
  have values := List.all_eq_true.mp known _ member
  rw [Bool.and_eq_true, Bool.or_eq_true, beq_iff_eq, beq_iff_eq,
    beq_iff_eq] at values
  obtain ⟨same, decoded⟩ := values
  have injective : Function.Injective ofAscii := by
    apply List.map_injective_iff.mpr
    intro b c equal
    by_contra other
    exact UrlParams.toUInt16_ne other equal
  rw [injective same, urlUnescape_uriEncode] at decoded
  rcases decoded with single | double
  · rw [Option.some.inj single]
    decide
  · rw [Option.some.inj double]
    decide

/-- The three paths that come of an identifier. -/
theorem resolveDots_bucket (id : JSString) :
    resolveDots [] [js "bucket", id] =
      if isDoubleDot id then [[]]
      else if isSingleDot id then [js "bucket", []]
      else [js "bucket", id] := by
  have bucket : isDoubleDot (js "bucket") = false ∧
      isSingleDot (js "bucket") = false :=
    ⟨rfl, rfl⟩
  rw [resolveDots]
  · rw [bucket.1, bucket.2, if_neg Bool.false_ne_true,
      if_neg Bool.false_ne_true, resolveDots]
    rfl
  · simp

/-- The bytes of a path of a bucket and of a query. -/
theorem textEncode_bucket (segment query : GoString)
    (small : ∀ b ∈ segment ++ query, b.toNat < 0x80) (some_ : query ≠ []) :
    textEncode (UrlTarget.text
        ⟨[js "bucket", ofAscii segment], ofAscii query⟩) =
      bucketPrefix ++ segment ++ 0x3f :: query := by
  have text : UrlTarget.text
      ⟨[js "bucket", ofAscii segment], ofAscii query⟩ =
        ofAscii (bucketPrefix ++ segment ++ 0x3f :: query) ++ [] := by
    have front : ofAscii bucketPrefix = 0x2f :: js "bucket" ++ [0x2f] := rfl
    have filled : ofAscii query ≠ [] := by
      simpa [ofAscii] using some_
    unfold UrlTarget.text
    dsimp only
    rw [if_neg filled]
    unfold ofAscii at front ⊢
    simp only [List.map_append, front]
    simp
  rw [text, textEncode_ofAscii_append]
  · exact List.append_nil _
  · have start : bucketPrefix.all (fun b => b.toNat < 0x80) = true := rfl
    intro b member
    rw [List.append_assoc] at member
    rcases List.mem_append.mp member with before | member
    · simpa using List.all_eq_true.mp start b before
    · rcases List.mem_append.mp member with inPath | member
      · exact small b (List.mem_append_left _ inPath)
      · rcases List.mem_cons.mp member with rfl | inQuery
        · decide
        · exact small b (List.mem_append_right _ inQuery)

theorem textEncode_root (query : GoString)
    (small : ∀ b ∈ query, b.toNat < 0x80) (some_ : query ≠ []) :
    textEncode (UrlTarget.text ⟨[[]], ofAscii query⟩) =
      [0x2f] ++ 0x3f :: query := by
  have text : UrlTarget.text ⟨[[]], ofAscii query⟩ =
      ofAscii ([0x2f] ++ 0x3f :: query) ++ [] := by
    have filled : ofAscii query ≠ [] := by
      simpa [ofAscii] using some_
    unfold UrlTarget.text
    dsimp only
    rw [if_neg filled]
    simp [ofAscii]
  rw [text, textEncode_ofAscii_append]
  · exact List.append_nil _
  · intro b member
    rcases List.mem_cons.mp member with rfl | member
    · decide
    · rcases List.mem_cons.mp member with rfl | inQuery
      · decide
      · exact small b inQuery

/-- The door asks for a solution, and the request has it. -/
theorem admitsPow_sentParams (front : Front) (moment : Moment)
    (token deviceSessionId : JSString) (pow : Option JSString) :
    front.admitsPow moment (parseQuery (textEncode
        (sentParams token deviceSessionId pow).format)) = true ↔
      front.powDifficultyBits ≤ 0 ∨ ∃ p ∈ pow,
        verifyPow front.hashes front.powSecret front.powDifficultyBits
          moment.now (textEncode p) = true := by
  have sent := (queryGet_sentParams token deviceSessionId pow).2.2
  have empty : verifyPow front.hashes front.powSecret
      front.powDifficultyBits moment.now [] = false := rfl
  unfold Front.admitsPow
  rw [sent, Bool.or_eq_true, decide_eq_true_eq]
  cases pow with
  | none => simp
  | some p =>
      by_cases none_ : textEncode p = []
      · simp [none_, empty]
      · simp [none_]

/-- What the page asks for is admitted, and understood as it was meant, if the
identifier is one of a bucket, the origin is allowed, and the work is done
that the relay asks for. -/
theorem handle_socketTarget
    {relayBase bucketId token deviceSessionId url : JSString}
    (relay : IsRelayBase relayBase)
    (made : joinUrl relayBase bucketId token deviceSessionId = some url)
    (pow : Option JSString)
    (front : Front) (moment : Moment) (remoteAddr raw : GoString)
    (headers : Headers) (request : BucketRequest) :
    front.handle moment remoteAddr
        ⟨raw, requestLine (textEncode (socketTarget url pow).text),
          headers⟩ = .admitted request ↔
      validBucketID (trimSlashes (textEncode bucketId)) = true ∧
      front.admitsOrigin (headerGet headers (ascii "Origin")) = true ∧
      (front.powDifficultyBits ≤ 0 ∨ ∃ p ∈ pow,
        verifyPow front.hashes front.powSecret front.powDifficultyBits
          moment.now (textEncode p) = true) ∧
      request =
        { bucketID := trimSlashes (textEncode bucketId)
          token :=
            if textEncode token = [] then
              headerGet headers (ascii "X-Byteln-Token")
            else textEncode token
          deviceSessionID := textEncode deviceSessionId
          ip := clientIP remoteAddr headers } := by
  obtain ⟨-, target⟩ := socketTarget_joinUrl relay made pow
  obtain ⟨isToken, isSid, -⟩ :=
    queryGet_sentParams token deviceSessionId pow
  have isPow :=
    admitsPow_sentParams front moment token deviceSessionId pow
  have format : (sentParams token deviceSessionId pow).format =
      ofAscii (textEncode (sentParams token deviceSessionId pow).format) := by
    rw [textEncode_format]
    rfl
  have inQuery : ∀ b ∈ textEncode
      (sentParams token deviceSessionId pow).format, isVisible b = true := by
    rw [textEncode_format]
    exact visible_of_format _
  have some_ : textEncode (sentParams token deviceSessionId pow).format ≠
      [] := by
    intro none_
    have read :=
      UrlParams.parse_format (sentParams token deviceSessionId pow)
    rw [format, none_] at read
    have params : sentParams token deviceSessionId pow ≠ [] := by
      simp [sentParams]
    exact params (List.map_eq_nil_iff.mp read.symm)
  generalize textEncode (sentParams token deviceSessionId pow).format =
    query at *
  have small : ∀ b, isVisible b = true → b.toNat < 0x80 := by
    intro b seen
    exact (bounds_of_isVisible seen).2.trans (by decide)
  have inPath := visible_of_uriEncode (textEncode bucketId)
  have visible : ∀ {path : GoString}, (∀ b ∈ path, isVisible b = true) →
      ∀ b ∈ path ++ 0x3f :: query, isVisible b = true := by
    intro path before b member
    rcases List.mem_append.mp member with member | member
    · exact before b member
    · rcases List.mem_cons.mp member with rfl | member
      · decide
      · exact inQuery b member
  have inBucket : ∀ {segment : GoString},
      (∀ b ∈ segment, isVisible b = true) →
      ∀ b ∈ bucketPrefix ++ segment, isVisible b = true := by
    have whole : bucketPrefix.all isVisible = true := rfl
    intro segment plain b member
    rcases List.mem_append.mp member with member | member
    · exact List.all_eq_true.mp whole b member
    · exact plain b member
  have bucket : ∀ {segment id : GoString},
      (∀ b ∈ segment, isVisible b = true) → 0x3f ∉ segment →
      urlUnescape false segment = some id →
      (front.handle moment remoteAddr ⟨raw, requestLine (textEncode
          (UrlTarget.text ⟨[js "bucket", ofAscii segment], ofAscii query⟩)),
            headers⟩ = .admitted request ↔
        validBucketID (trimSlashes id) = true ∧
        front.admitsOrigin (headerGet headers (ascii "Origin")) = true ∧
        front.admitsPow moment (parseQuery query) = true ∧
        request =
          { bucketID := trimSlashes id
            token :=
              if queryGet (parseQuery query) (ascii "token") = [] then
                headerGet headers (ascii "X-Byteln-Token")
              else queryGet (parseQuery query) (ascii "token")
            deviceSessionID := queryGet (parseQuery query) (ascii "sid")
            ip := clientIP remoteAddr headers }) := by
    intro segment id plain apart decoded
    have whole := visible (inBucket plain)
    rw [textEncode_bucket segment query (by
        intro b member
        rcases List.mem_append.mp member with member | member
        · exact small b (plain b member)
        · exact small b (inQuery b member)) some_,
      handle_requestLine front moment remoteAddr whole,
      handleBucket_append front moment remoteAddr whole apart decoded]
    have begins : bucketPrefix.isPrefixOf
        (bucketPrefix ++ segment ++ 0x3f :: query) = true := by
      rw [List.isPrefixOf_iff_prefix, List.append_assoc]
      exact List.prefix_append _ _
    simp only [begins, true_and]
  rw [target, format, resolveDots_bucket]
  by_cases double : isDoubleDot
      (ofAscii ((textEncode bucketId).flatMap uriEncodeByte)) = true
  · have root : ∀ b ∈ ([0x2f] : GoString), isVisible b = true := by
      intro b member
      rw [List.mem_singleton.mp member]
      rfl
    rw [if_pos double, textEncode_root query (fun b member =>
      small b (inQuery b member)) some_, invalid_of_dots (.inr double)]
    simp only [Bool.false_eq_true, false_and, iff_false]
    intro admitted
    have begins := ((handle_requestLine front moment remoteAddr
      (visible root)).mp admitted).1
    cases begins
  · rw [if_neg double]
    by_cases single : isSingleDot
        (ofAscii ((textEncode bucketId).flatMap uriEncodeByte)) = true
    · have none_ := bucket (show ∀ b ∈ [], isVisible b = true by simp)
        List.not_mem_nil (show urlUnescape false [] = some [] from rfl)
      rw [if_pos single, invalid_of_dots (.inl single)]
      simp only [Bool.false_eq_true, false_and, iff_false]
      intro admitted
      have valid := (none_.mp admitted).1
      cases valid
    · rw [if_neg single, bucket (fun b member => (inPath b member).1)
        (fun member => (inPath _ member).2.2.2.1 rfl)
        (urlUnescape_uriEncode false _), isPow, isToken, isSid]

/-! ## The challenge that is solved -/

theorem utf8Decode_small {bytes : List UInt8}
    (small : ∀ b ∈ bytes, b.toNat < 0x80) :
    utf8Decode bytes = ofAscii bytes := by
  have encoded := textEncode_ofAscii_append [] small
  rw [List.append_nil, show textEncode [] = [] from rfl,
    List.append_nil] at encoded
  have formed : isWellFormed (ofAscii bytes) = true := by
    apply isWellFormed_of_text
    intro u member
    obtain ⟨b, inside, rfl⟩ := List.mem_map.mp member
    apply text_of_small
    rw [UInt8.toNat_toUInt16]
    exact small b inside
  rw [← repair_of_isWellFormed formed, ← utf8Decode_textEncode, encoded]

namespace Pow

theorem ofAscii_decimalText (n : ℕ) :
    ofAscii (decimalText n) = decimal n := by
  have digits : (toString (n : ℤ)).toList = Nat.toDigits 10 n := by
    show (Nat.repr n).toList = _
    rw [Nat.repr_eq_ofList_toDigits, String.toList_ofList]
  unfold decimalText ascii ofAscii
  rw [digits, List.map_map, ← toDigits_eq_decimal]
  apply List.map_congr_left
  intro c member
  have digit := Nat.isDigit_of_mem_toDigits (by decide) (by decide) member
  have bounds : 0x30 ≤ c.toNat ∧ c.toNat ≤ 0x39 := by
    simpa [Char.isDigit, UInt32.le_iff_toNat_le] using digit
  apply UInt16.toNat_inj.mp
  simp only [Function.comp_apply, UInt8.toNat_toUInt16, UInt8.toNat_ofNat',
    UInt16.toNat_ofNat']
  omega

/-- The value that the body of a challenge writes. -/
def challengeValue (challenge : GoString) (difficulty : ℕ) : Json ℤ :=
  .object [(js "required", .bool true),
    (js "challenge", .string (ofAscii challenge)),
    (js "difficulty", .number difficulty)]

theorem ofAscii_powBody {challenge : GoString}
    (plain : ∀ b ∈ challenge, quoteUnit b.toUInt16 = [b.toUInt16] ∧
      b.toNat < 0x80) (difficulty : ℕ) :
    ofAscii (powBody challenge difficulty) =
      (challengeValue challenge difficulty).stringify ++ [0x0a] := by
  have quoted : quote (ofAscii challenge) = ofAscii challenge := by
    apply quote_plain
    intro u member
    obtain ⟨b, inside, rfl⟩ := List.mem_map.mp member
    rw [UInt8.toNat_toUInt16]
    exact plain b inside
  have number : (Json.number (difficulty : ℤ)).stringify =
      decimal difficulty := rfl
  have whole : (challengeValue challenge difficulty).stringify =
      ofAscii (ascii "\x7b\"required\":true,\"challenge\":\"") ++
        ofAscii challenge ++ ofAscii (ascii "\",\"difficulty\":") ++
          decimal difficulty ++ ofAscii (ascii "\x7d") := by
    have first : ofAscii (ascii "\x7b\"required\":true,\"challenge\":\"") =
        0x7b :: (literal (js "required") ++ 0x3a :: js "true") ++
          0x2c :: literal (js "challenge") ++ [0x3a, 0x22] :=
      rfl
    have second : ofAscii (ascii "\",\"difficulty\":") =
        0x22 :: 0x2c :: literal (js "difficulty") ++ [0x3a] :=
      rfl
    have third : ofAscii (ascii "\x7d") = [0x7d] := rfl
    rw [first, second, third]
    unfold challengeValue
    simp only [Json.stringify, Json.stringifyMember, Json.stringifyMembers,
      literal, quoted]
    rw [← number, Json.stringify]
    simp
  have last : ascii "\x7d\n" = ascii "\x7d" ++ [0x0a] := rfl
  rw [whole, ← ofAscii_decimalText]
  unfold powBody
  rw [last]
  simp [ofAscii]

theorem plain_issuePowChallenge (hashes : Hashes) (powSecret : List UInt8)
    (nonce : Nonce) (issued : IssueTime) :
    ∀ b ∈ issuePowChallenge hashes powSecret nonce issued,
      quoteUnit b.toUInt16 = [b.toUInt16] ∧ b.toNat < 0x80 := by
  have chars : (0x2e :: rawURLEncoding.chars).all (fun b =>
      quoteUnit b.toUInt16 == [b.toUInt16] && b.toNat < 0x80) = true :=
    rfl
  intro b member
  have known : b ∈ 0x2e :: rawURLEncoding.chars := by
    simp only [issuePowChallenge, List.mem_append] at member
    rcases member with (member | member) | member
    · exact List.mem_cons_of_mem _ (rawURLEncoding.mem_encode member)
    · rw [List.mem_singleton.mp member]
      exact List.mem_cons_self
    · exact List.mem_cons_of_mem _ (rawURLEncoding.mem_encode member)
  simpa using List.all_eq_true.mp chars b known

theorem issuePowChallenge_ne_nil (hashes : Hashes) (powSecret : List UInt8)
    (nonce : Nonce) (issued : IssueTime) :
    issuePowChallenge hashes powSecret nonce issued ≠ [] := by
  have dot : ascii "." ≠ [] := by
    decide
  unfold issuePowChallenge
  dsimp only
  exact List.append_ne_nil_of_left_ne_nil
    (List.append_ne_nil_of_right_ne_nil _ dot) _

/-- What is read of the body of the relay's answer. -/
theorem getPowChallenge_powBody
    {cached : Option CacheEntry}
    {now : ℤ}
    (expired : ∀ entry ∈ cached, entry.expiresAt ≤ now)
    {challenge : GoString}
    (plain : ∀ b ∈ challenge, quoteUnit b.toUInt16 = [b.toUInt16] ∧
      b.toNat < 0x80)
    (difficulty : ℕ) :
    (getPowChallenge cached now
        (fetchedBody (powBody challenge difficulty))).1 =
      { required := true
        challenge := ofAscii challenge
        difficulty := difficulty } := by
  have small : ∀ b ∈ powBody challenge difficulty, b.toNat < 0x80 := by
    have marks : (ascii "\x7b\"required\":true,\"challenge\":\"" ++
        ascii "\",\"difficulty\":" ++ ascii "\x7d\n").all
          (fun b => b.toNat < 0x80) = true := rfl
    have digit : ∀ b, isVisible b = true → b.toNat < 0x80 := by
      intro b seen
      exact (bounds_of_isVisible seen).2.trans (by decide)
    intro b member
    simp only [powBody, List.mem_append] at member
    have mark := List.all_eq_true.mp marks b
    simp only [List.mem_append, decide_eq_true_eq] at mark
    rcases member with (((before | inside) | between) | digits) | behind
    · exact mark (.inl (.inl before))
    · exact (plain b inside).2
    · exact mark (.inl (.inr between))
    · exact digit b ((visible_of_decimalText difficulty).2 b digits)
    · exact mark (.inr behind)
  have regular : (challengeValue challenge difficulty).Regular := by
    refine .object (show [js "required", js "challenge",
      js "difficulty"].Nodup by decide) ?_
    intro m member
    simp only [List.mem_cons, List.not_mem_nil, or_false] at member
    rcases member with rfl | rfl | rfl
    · exact .bool true
    · exact .string _
    · exact .number rfl
  have body : fetchedBody (powBody challenge difficulty) =
      .data (challengeValue challenge difficulty) := by
    unfold fetchedBody
    rw [utf8Decode_small small, ofAscii_powBody plain,
      Json.parse_line regular]
    rfl
  have read : PowChallengeInfo.ofJson (challengeValue challenge difficulty) =
      { required := true
        challenge := ofAscii challenge
        difficulty := difficulty } := rfl
  have stale : cached.filter (fun entry => now < entry.expiresAt) = none := by
    rw [Option.filter_eq_none_iff]
    intro entry member
    simpa using expired entry member
  unfold getPowChallenge
  rw [body, stale]
  dsimp only
  rw [read, if_neg Bool.false_ne_true.symm]

/-- A solution that is found opens the door until the challenge expires. -/
theorem verifyPow_of_solveFrom
    {hashes : Hashes}
    {powSecret : List UInt8}
    {nonce : Nonce}
    {issued : IssueTime}
    {now : Int64}
    (early : now.toInt ≤ issued.unix.toInt + 30)
    {clock : ℕ → ℤ}
    {deadline difficulty timeoutMs : ℤ}
    {rounds i : ℕ}
    {solution : JSString}
    (solved : solveFrom hashes.sha256 clock deadline
      (ofAscii (issuePowChallenge hashes powSecret nonce issued)) difficulty
      timeoutMs rounds i = some (.ok solution)) :
    verifyPow hashes powSecret difficulty now
      (textEncode (ofAscii (issuePowChallenge hashes powSecret nonce issued) ++
        js ":" ++ solution)) = true := by
  obtain ⟨some_, solves⟩ := solveFrom_solves rounds solved
  have small : ∀ b ∈ issuePowChallenge hashes powSecret nonce issued,
      b.toNat < 0x80 := fun b member => (mem_issuePowChallenge member).2
  have colon : textEncode (js ":" ++ solution) =
      0x3A :: textEncode solution :=
    @textEncode_ofAscii_append [0x3A] solution (by simp)
  rw [List.append_assoc, textEncode_ofAscii_append _ small, colon]
  apply verifyPow_of_solution early (textEncode_ne_nil some_)
  rw [textEncode_ofAscii_append _ small, leadingZeroBits_eq] at solves
  exact solves

end Pow

/-- The body of the answer to `/pow-challenge`. -/
def challengeBody (front : Front) (moment : Moment) : GoString :=
  if front.powDifficultyBits ≤ 0 then ascii "\x7b\"required\":false\x7d\n"
  else powBody (front.challenge moment) front.powDifficultyBits

/-- A page asks for a challenge, solves it and connects: it is let in before
the challenge expires, as whom and to what it meant to be, whatever the relay
asks for, if only the identifier is one of a bucket and the origin is
allowed. -/
theorem page_joins
    (front : Front)
    {asked entered : Moment}
    (early : entered.now.toInt ≤ asked.issued.unix.toInt + 30)
    {cached : Option Pow.CacheEntry}
    {now : ℤ}
    (expired : ∀ entry ∈ cached, entry.expiresAt ≤ now)
    {relayBase bucketId token deviceSessionId url : JSString}
    (relay : IsRelayBase relayBase)
    (made : joinUrl relayBase bucketId token deviceSessionId = some url)
    {clock : ℕ → ℤ}
    {rounds : ℕ}
    {pow : Option JSString}
    (solved : Pow.solvePowForConnect front.hashes.sha256 clock
      (Pow.getPowChallenge cached now
        (Pow.fetchedBody (challengeBody front asked))).1 rounds =
          some (.ok pow))
    (remoteAddr raw : GoString)
    (headers : Headers)
    (request : BucketRequest) :
    front.handle entered remoteAddr
        ⟨raw, requestLine (textEncode (socketTarget url pow).text),
          headers⟩ = .admitted request ↔
      validBucketID (trimSlashes (textEncode bucketId)) = true ∧
      front.admitsOrigin (headerGet headers (ascii "Origin")) = true ∧
      request =
        { bucketID := trimSlashes (textEncode bucketId)
          token :=
            if textEncode token = [] then
              headerGet headers (ascii "X-Byteln-Token")
            else textEncode token
          deviceSessionID := textEncode deviceSessionId
          ip := clientIP remoteAddr headers } := by
  have works : front.powDifficultyBits ≤ 0 ∨ ∃ p ∈ pow,
      verifyPow front.hashes front.powSecret front.powDifficultyBits
        entered.now (textEncode p) = true := by
    by_cases none_ : front.powDifficultyBits ≤ 0
    · exact .inl none_
    · right
      obtain ⟨difficulty, same⟩ :=
        Int.eq_ofNat_of_zero_le (Int.le_of_lt (Int.not_le.mp none_))
      have read := Pow.getPowChallenge_powBody expired
        (Pow.plain_issuePowChallenge front.hashes front.powSecret
          asked.nonce asked.issued) difficulty
      have some_ := Pow.issuePowChallenge_ne_nil front.hashes
        front.powSecret asked.nonce asked.issued
      unfold challengeBody Front.challenge at solved
      rw [if_neg none_] at solved
      rw [same] at none_ solved ⊢
      rw [read] at solved
      have filled : ofAscii (issuePowChallenge front.hashes front.powSecret
          asked.nonce asked.issued) ≠ [] := by
        simpa [ofAscii] using some_
      have positive : difficulty ≠ 0 := by
        rintro rfl
        exact none_ le_rfl
      unfold Pow.solvePowForConnect at solved
      rw [if_neg (by simp [filled, positive])] at solved
      obtain ⟨result, found, mapped⟩ := Option.map_eq_some_iff.mp solved
      cases result with
      | error message => cases mapped
      | ok solution =>
          obtain rfl := Except.ok.inj mapped
          exact ⟨_, rfl, Pow.verifyPow_of_solveFrom early found⟩
  rw [handle_socketTarget relay made]
  simp only [works, true_and]

/-- A relay that asks for one bit, and a hash that gives eight. -/
def workingFront : Front :=
  { Front.sample with
    powDifficultyBits := 1
    hashes := ⟨fun _ _ => [], fun _ => [0]⟩ }

/-- A page that has never asked before finds a solution and joins. -/
theorem page_joins_sample :
    ∃ url, joinUrl (js "wss://relay.example/") (js "abcd") (js "t")
        (js "s") = some url ∧
      ∀ request, workingFront.handle Front.sampleMoment
          (ascii "192.0.2.1:80") ⟨[], requestLine (textEncode
            (socketTarget url (some (ofAscii
              (workingFront.challenge Front.sampleMoment) ++
                js ":0"))).text), fun _ => []⟩ =
          .admitted request ↔
        validBucketID (trimSlashes (textEncode (js "abcd"))) = true ∧
        workingFront.admitsOrigin
          (headerGet (fun _ => []) (ascii "Origin")) = true ∧
        request =
          { bucketID := trimSlashes (textEncode (js "abcd"))
            token :=
              if textEncode (js "t") = [] then
                headerGet (fun _ => []) (ascii "X-Byteln-Token")
              else textEncode (js "t")
            deviceSessionID := textEncode (js "s")
            ip := clientIP (ascii "192.0.2.1:80") fun _ => [] } := by
  have inHost : ∀ u ∈ js "relay.example", endsAuthority u = false := by
    have whole : (js "relay.example").all (fun u => !endsAuthority u) = true :=
      rfl
    intro u member
    simpa using List.all_eq_true.mp whole u member
  have relay : IsRelayBase (js "wss://relay.example/") :=
    ⟨js "wss", js "relay.example", by decide, inHost, rfl⟩
  obtain ⟨url, made⟩ : ∃ url, joinUrl (js "wss://relay.example/") (js "abcd")
      (js "t") (js "s") = some url :=
    ⟨_, rfl⟩
  have solved : Pow.solvePowForConnect workingFront.hashes.sha256 (fun _ => 0)
      (Pow.getPowChallenge none 0 (Pow.fetchedBody
        (challengeBody workingFront Front.sampleMoment))).1 1 =
          some (.ok (some (ofAscii
            (workingFront.challenge Front.sampleMoment) ++ js ":0"))) := by
    decide +kernel
  exact ⟨url, made, page_joins workingFront
    (show Front.sampleMoment.now.toInt ≤
      Front.sampleMoment.issued.unix.toInt + 30 by decide)
    (show ∀ entry ∈ (none : Option Pow.CacheEntry), entry.expiresAt ≤ 0 by
      simp) relay made solved (ascii "192.0.2.1:80") [] fun _ => []⟩

end Byteln.Client

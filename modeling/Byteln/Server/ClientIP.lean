import Mathlib.Data.List.DropRight
import Byteln.Server.GoStrings
import Byteln.Server.Limiter

/-!
# Whose quota a request counts against

The relay takes the first address of the `X-Forwarded-For` header as the
client's.  The front end appends the real address to whatever the client sent,
so a client that sends a header of its own chooses the key of its quotas.
-/

namespace Byteln.Server

/-! ## Headers -/

/-- A header map.  A key that is missing has no text. -/
abbrev Headers := GoString → GoString

def validHeaderFieldByte (b : UInt8) : Bool :=
  (0x30 ≤ b && b ≤ 0x39) || (0x41 ≤ b && b ≤ 0x5A) ||
    (0x61 ≤ b && b ≤ 0x7A) || b ∈ ascii "!#$%&'*+-.^_\x60|~"

/-- Upper case for the first letter and for each letter after a hyphen. -/
def canonicalBytes (upper : Bool) : GoString → GoString
  | [] => []
  | b :: rest =>
      let b :=
        if upper && 0x61 ≤ b && b ≤ 0x7A then b - 0x20
        else if !upper && 0x41 ≤ b && b ≤ 0x5A then b + 0x20
        else b
      b :: canonicalBytes (b == 0x2D) rest

/-- `http.CanonicalHeaderKey`. -/
def canonicalHeaderKey (s : GoString) : GoString :=
  if s.all validHeaderFieldByte then canonicalBytes true s else s

/-- `strings.TrimRight` of carriage returns and line feeds. -/
def trimLineEnd (line : GoString) : GoString :=
  line.rdropWhile fun b => b == 0x0D || b == 0x0A

/-- The header on a line. -/
def headerLine (hTrim : GoString) : Option (GoString × GoString) :=
  (splitOnce hTrim 0x3A).map fun (k, v) =>
    (canonicalHeaderKey (trimSpace k), trimSpace v)

/-- The headers up to the empty line. -/
def readHTTPHeaders (headers : Headers) : List GoString → Option Headers
  | [] => none
  | h :: lines =>
      let hTrim := trimLineEnd h
      if hTrim = [] then some headers
      else
        match headerLine hTrim with
        | none => readHTTPHeaders headers lines
        | some (k, v) => readHTTPHeaders (Function.update headers k v) lines

def headerGet (h : Headers) (k : GoString) : GoString :=
  h (canonicalHeaderKey k)

/-- `net.SplitHostPort`, which fails on an address without a port or with
misplaced brackets. -/
def splitHostPort (hostport : GoString) : Option (GoString × GoString) :=
  match (splitOnce hostport.reverse 0x3A).map fun (port, host) =>
      (host.reverse, port.reverse) with
  | none => none
  | some (host, port) =>
      if hostport.head? = some 0x5B then
        match splitOnce hostport 0x5D with
        | none => none
        | some (bracketed, after) =>
            if after ≠ 0x3A :: port then none
            else if 0x5B ∈ hostport.drop 1 ∨ 0x5D ∈ after then none
            else some (bracketed.drop 1, port)
      else if 0x3A ∈ host then none
      else if 0x5B ∈ hostport ∨ 0x5D ∈ hostport then none
      else some (host, port)

def clientIP (remoteAddr : GoString) (headers : Headers) : GoString :=
  let xff := headerGet headers (ascii "X-Forwarded-For")
  if xff ≠ [] then trimSpace ((xff.splitOn 0x2C).headD [])
  else
    match splitHostPort remoteAddr with
    | none => remoteAddr
    | some (host, _) => host

/-! ## The front end -/

/-- A byte of an address: printable, and no comma. -/
def addressByte (b : UInt8) : Bool :=
  0x21 ≤ b && b ≤ 0x7E && b ≠ 0x2C

/-- The text of a real client address. -/
structure RealAddress where
  text : GoString
  nonempty : text ≠ []
  printable : ∀ b ∈ text, addressByte b = true

def xForwardedFor : GoString :=
  ascii "X-Forwarded-For"

/-- The client's own header value, if it sent one, followed by its real
address. -/
def proxyAddXForwardedFor (chosen : Option GoString)
    (remote : RealAddress) : GoString :=
  match chosen with
  | none => remote.text
  | some value => value ++ ascii ", " ++ remote.text

/-- A line that is no end of the headers and sets another header. -/
def OtherHeader (line : GoString) : Prop :=
  trimLineEnd line ≠ [] ∧
    ∀ k v, headerLine (trimLineEnd line) = some (k, v) → k ≠ xForwardedFor

/-- An upgrade request as it reaches the relay through the front end. -/
structure ProxiedRequest where
  remote : RealAddress
  /-- The `X-Forwarded-For` value that the client sent. -/
  chosen : Option GoString
  /-- The address of the front end. -/
  remoteAddr : GoString
  before : List GoString
  behind : List GoString
  others : ∀ line ∈ before ++ behind, OtherHeader line

namespace ProxiedRequest

def lines (request : ProxiedRequest) : List GoString :=
  request.before ++
    (xForwardedFor ++ ascii ": " ++
      proxyAddXForwardedFor request.chosen request.remote ++ ascii "\r\n") ::
    (request.behind ++ [ascii "\r\n"])

/-- The key of the request's quotas. -/
def ip (request : ProxiedRequest) : Option GoString :=
  (readHTTPHeaders (fun _ => []) request.lines).map fun headers =>
    clientIP request.remoteAddr headers

/-- The address that the client claims: what it sent up to the first comma. -/
def claimed (request : ProxiedRequest) : GoString :=
  match request.chosen with
  | none => request.remote.text
  | some value => trimSpace (value.takeWhile fun b => b != 0x2C)

end ProxiedRequest

/-! ## Reading the header back -/

theorem comma_notMem_space :
    ∀ encoding ∈ spaceEncodings, (0x2C : UInt8) ∉ encoding := by
  decide

namespace RealAddress

variable (remote : RealAddress)

theorem begins : ∃ first rest, remote.text = first :: rest ∧
    addressByte first = true := by
  obtain ⟨first, rest, same⟩ := List.exists_cons_of_ne_nil remote.nonempty
  refine ⟨first, rest, same, remote.printable first ?_⟩
  rw [same]
  exact List.mem_cons_self

theorem ends : ∃ init last, remote.text = init ++ [last] ∧
    addressByte last = true := by
  refine ⟨remote.text.dropLast, remote.text.getLast remote.nonempty,
    (List.dropLast_append_getLast remote.nonempty).symm, ?_⟩
  exact remote.printable _ (List.getLast_mem remote.nonempty)

theorem comma_notMem : (0x2C : UInt8) ∉ remote.text := by
  intro member
  have printable := remote.printable _ member
  cases printable

end RealAddress

theorem address_notMem_space {b : UInt8} (printable : addressByte b = true) :
    ∀ encoding ∈ spaceEncodings, b ∉ encoding := by
  have blank : spaceEncodings.all (fun encoding =>
      encoding.all fun b => !addressByte b) = true := by
    decide
  intro encoding member inside
  have white := List.all_eq_true.mp (List.all_eq_true.mp blank _ member) _ inside
  rw [printable] at white
  cases white

/-- Trimming stops where the address starts. -/
theorem trimLeft_address (s : GoString) (remote : RealAddress) :
    trimLeft (s ++ remote.text) = trimLeft s ++ remote.text := by
  obtain ⟨first, rest, same, printable⟩ := remote.begins
  rw [same]
  exact trimLeft_append (address_notMem_space printable) s rest

/-- The end of an address is no white space. -/
theorem trimRight_address (s : GoString) (remote : RealAddress) :
    trimRight (s ++ remote.text) = s ++ remote.text := by
  obtain ⟨init, last, same, printable⟩ := remote.ends
  have none : (spaceEncodings.map List.reverse).find?
      (fun first => first.isPrefixOf (s ++ remote.text).reverse) = none := by
    rw [same, List.reverse_append, List.reverse_append, List.find?_eq_none]
    have heads : ∀ first ∈ spaceEncodings.map List.reverse,
        (first.head?.map addressByte) = some false := by
      decide
    intro first member isPrefix
    have blank := heads first member
    cases first with
    | nil => cases blank
    | cons b rest =>
        simp only [List.reverse_cons, List.reverse_nil, List.nil_append,
          List.cons_append, List.isPrefixOf, Bool.and_eq_true,
          beq_iff_eq] at isPrefix
        rw [List.head?_cons, isPrefix.1, Option.map_some, printable] at blank
        cases blank
  unfold trimRight
  rw [trimPrefixes_of_find? none, List.reverse_reverse]

/-- Reading past the other headers. -/
theorem readHTTPHeaders_others {k : GoString} {headers : Headers}
    {others rest : List GoString} (apart : ∀ line ∈ others, OtherHeader line)
    (other : k = xForwardedFor) :
    ∃ headers', headers' k = headers k ∧
      readHTTPHeaders headers (others ++ rest) =
        readHTTPHeaders headers' rest := by
  induction others generalizing headers with
  | nil => exact ⟨headers, rfl, rfl⟩
  | cons line others induction =>
      obtain ⟨content, sets⟩ := apart line List.mem_cons_self
      have apart := fun line member =>
        apart line (List.mem_cons_of_mem _ member)
      rw [List.cons_append, readHTTPHeaders]
      simp only [if_neg content]
      cases read : headerLine (trimLineEnd line) with
      | none => exact induction apart
      | some entry =>
          obtain ⟨k', v⟩ := entry
          obtain ⟨headers', same, reads⟩ := @induction
            (Function.update headers k' v) apart
          refine ⟨headers', same.trans ?_, reads⟩
          apply Function.update_of_ne
          rw [other]
          exact (sets k' v read).symm

theorem mem_trimPrefixes {prefixes : List GoString} {b : UInt8} (fuel : Nat) :
    ∀ {s : GoString}, b ∈ trimPrefixes prefixes fuel s → b ∈ s := by
  induction fuel with
  | zero => exact id
  | succ fuel induction =>
      intro s member
      rw [trimPrefixes] at member
      split at member
      · exact member
      · exact List.mem_of_mem_drop (induction member)

/-- The header line that the front end sets. -/
theorem headerLine_forwarded (value : GoString) (remote : RealAddress) :
    headerLine (trimLineEnd (xForwardedFor ++ ascii ": " ++
        (value ++ remote.text) ++ ascii "\r\n")) =
      some (xForwardedFor, trimLeft value ++ remote.text) := by
  have ends : trimLineEnd (xForwardedFor ++ ascii ": " ++
      (value ++ remote.text) ++ ascii "\r\n") =
        xForwardedFor ++ 0x3A :: (0x20 :: (value ++ remote.text)) := by
    obtain ⟨init, last, same, printable⟩ := remote.ends
    have text : (last == 0x0D || last == 0x0A) = false := by
      by_contra lineEnd
      rw [Bool.not_eq_false, Bool.or_eq_true, beq_iff_eq, beq_iff_eq]
        at lineEnd
      rcases lineEnd with rfl | rfl <;> cases printable
    have line : ascii "\r\n" = [0x0D] ++ [0x0A] := rfl
    unfold trimLineEnd
    rw [same, line, ← List.append_assoc, List.rdropWhile_concat_pos _ _ _ rfl,
      List.rdropWhile_concat_pos _ _ _ rfl, ← List.append_assoc,
      ← List.append_assoc, List.rdropWhile_concat_neg _ _ _ (by simp [text])]
    simp [ascii]
  have key : canonicalHeaderKey (trimSpace xForwardedFor) = xForwardedFor := by
    decide
  have colon : (0x3A : UInt8) ∉ xForwardedFor := by
    decide
  have trimmed : trimSpace (0x20 :: (value ++ remote.text)) =
      trimLeft value ++ remote.text := by
    unfold trimSpace
    rw [trimLeft_cons_space, trimLeft_address, trimRight_address]
  unfold headerLine
  rw [ends, splitOnce_append _ colon]
  simp only [Option.map_some, key, trimmed]

/-- The first entry of a value that a comma follows. -/
theorem exists_first_entry (value rest : GoString) :
    ∃ rest', value ++ 0x2C :: rest =
      (value.takeWhile fun b => b != 0x2C) ++ 0x2C :: rest' := by
  have whole := @List.takeWhile_append_dropWhile _ (fun b => b != 0x2C) value
  cases dropped : value.dropWhile fun b => b != 0x2C with
  | nil =>
      rw [dropped, List.append_nil] at whole
      exact ⟨rest, by rw [whole]⟩
  | cons b dropWhile =>
      have comma := List.head?_dropWhile_not (fun b => b != 0x2C) value
      rw [dropped] at comma whole
      have comma : b = 0x2C := by
        simpa using comma
      refine ⟨dropWhile ++ 0x2C :: rest, ?_⟩
      conv_lhs => rw [← whole, comma]
      simp

namespace ProxiedRequest

/-- What the front end appends the address to. -/
def leading (request : ProxiedRequest) : GoString :=
  match request.chosen with
  | none => []
  | some value => value ++ ascii ", "

/-- The relay reads the header of the front end. -/
theorem headers_read (request : ProxiedRequest) :
    ∃ headers, readHTTPHeaders (fun _ => []) request.lines = some headers ∧
      headerGet headers xForwardedFor =
        trimLeft request.leading ++ request.remote.text := by
  have value : proxyAddXForwardedFor request.chosen request.remote =
      request.leading ++ request.remote.text := by
    unfold proxyAddXForwardedFor leading
    cases request.chosen <;> rfl
  have read := headerLine_forwarded request.leading request.remote
  rw [← value] at read
  have content : trimLineEnd (xForwardedFor ++ ascii ": " ++
      proxyAddXForwardedFor request.chosen request.remote ++
        ascii "\r\n") ≠ [] := by
    intro empty
    rw [empty] at read
    cases read
  obtain ⟨before, -, first⟩ := @readHTTPHeaders_others _ (fun _ => [])
    request.before ((xForwardedFor ++ ascii ": " ++
      proxyAddXForwardedFor request.chosen request.remote ++ ascii "\r\n") ::
        (request.behind ++ [ascii "\r\n"]))
    (fun line member => request.others line (List.mem_append_left _ member))
    rfl
  obtain ⟨headers, kept, last⟩ := @readHTTPHeaders_others _
    (Function.update before xForwardedFor
      (trimLeft request.leading ++ request.remote.text)) request.behind
    [ascii "\r\n"]
    (fun line member => request.others line (List.mem_append_right _ member))
    rfl
  refine ⟨headers, ?_, ?_⟩
  · unfold lines
    rw [first, readHTTPHeaders]
    simp only [if_neg content, read]
    rw [last, readHTTPHeaders]
    rfl
  · have key : canonicalHeaderKey xForwardedFor = xForwardedFor := by
      decide
    unfold headerGet
    rw [key, kept, Function.update_self]

/-- The relay takes what the client claims for its address. -/
theorem ip_eq_claimed (request : ProxiedRequest) :
    request.ip = some request.claimed := by
  obtain ⟨headers, read, forwarded⟩ := request.headers_read
  have found : trimLeft request.leading ++ request.remote.text ≠ [] := by
    intro empty
    exact request.remote.nonempty (List.append_eq_nil_iff.mp empty).2
  have entry : trimSpace (((trimLeft request.leading ++
      request.remote.text).splitOn 0x2C).headD []) = request.claimed := by
    unfold leading claimed
    cases request.chosen with
    | none =>
        have alone := trimLeft_address [] request.remote
        rw [List.nil_append] at alone
        show trimSpace ((request.remote.text.splitOn 0x2C).headD []) = _
        rw [List.splitOn_eq_singleton request.remote.comma_notMem]
        show trimRight (trimLeft request.remote.text) = _
        rw [alone]
        exact trimRight_address [] request.remote
    | some value =>
        obtain ⟨rest, split⟩ : ∃ rest, value ++ ascii ", " ++
            request.remote.text =
              (value.takeWhile fun b => b != 0x2C) ++ 0x2C :: rest := by
          rw [List.append_assoc]
          exact exists_first_entry value (0x20 :: request.remote.text)
        dsimp only
        rw [← trimLeft_address, split, trimLeft_append comma_notMem_space,
          List.splitOn_append_cons_self_of_not_mem ?_]
        · show trimRight (trimLeft (trimLeft _)) = _
          rw [trimLeft_trimLeft]
          rfl
        · intro member
          have inside := List.mem_takeWhile_imp (mem_trimPrefixes _ member)
          simp at inside
  unfold ip
  rw [read, Option.map_some]
  unfold clientIP
  have named : ascii "X-Forwarded-For" = xForwardedFor := rfl
  rw [named, forwarded]
  simp only [ne_eq, found, not_false_eq_true, if_true]
  rw [entry]

end ProxiedRequest

/-! ## Quotas -/

/-- The address as a key of the limiter's maps, one character a byte. -/
def limiterKey (ip : GoString) : String :=
  String.ofList (ip.map fun b => Char.ofNat b.toNat)

/-- What the quotas say to an upgrade request. -/
inductive Admission where
  | admitted
  | rateLimited
  | tooManyBuckets
deriving DecidableEq

/-- The quotas that `handleConn` checks. -/
def Limiter.admit (limit : Limiter) (now : Time) (exists_ : Bool)
    (ip : String) : Limiter × Admission :=
  if exists_ then (limit, .admitted)
  else
    match limit.allowCreate now ip with
    | (limit, false) => (limit, .rateLimited)
    | (limit, true) =>
        match limit.tryAcquireBucket ip with
        | (limit, false) => (limit, .tooManyBuckets)
        | (limit, true) => (limit, .admitted)

/-- A request, or the end of a bucket that a request has created. -/
inductive QuotaEvent where
  | upgrade (now : Time) (exists_ : Bool) (request : ProxiedRequest)
  | release (creator : ProxiedRequest)

/-- The key that a request is counted under.  A request whose headers do not
end is not counted. -/
def ProxiedRequest.key (request : ProxiedRequest) : Option String :=
  request.ip.map limiterKey

/-- What the quotas say to a sequence of requests. -/
def Limiter.admissions (limit : Limiter) : List QuotaEvent → List Admission
  | [] => []
  | .upgrade now exists_ request :: events =>
      match request.key with
      | none => limit.admissions events
      | some ip =>
          let (limit, admission) := limit.admit now exists_ ip
          admission :: limit.admissions events
  | .release creator :: events =>
      match creator.key with
      | none => limit.admissions events
      | some ip => (limit.releaseBucket ip).admissions events

/-- The requests differ in the text that the client chose, and claim the same
address. -/
def QuotaEvent.Alike : QuotaEvent → QuotaEvent → Prop
  | .upgrade now exists_ request, event =>
      ∃ chosen, event =
          .upgrade now exists_ { request with chosen := chosen } ∧
        { request with chosen := chosen }.claimed = request.claimed
  | .release creator, event =>
      ∃ chosen, event = .release { creator with chosen := chosen } ∧
        { creator with chosen := chosen }.claimed = creator.claimed

theorem ip_eq_iff (request : ProxiedRequest) (chosen : Option GoString) :
    { request with chosen := chosen }.ip = request.ip ↔
      { request with chosen := chosen }.claimed = request.claimed := by
  rw [ProxiedRequest.ip_eq_claimed, ProxiedRequest.ip_eq_claimed,
    Option.some.injEq]

/-- The key of a request does not depend on the text that the client chose
exactly where the text claims the same address, and then no quota does. -/
theorem quotas_follow_claims (request : ProxiedRequest)
    (chosen : Option GoString) (limit : Limiter)
    (events events' : List QuotaEvent) :
    ({ request with chosen := chosen }.ip = request.ip ↔
      { request with chosen := chosen }.claimed = request.claimed) ∧
    (List.Forall₂ QuotaEvent.Alike events events' →
      limit.admissions events' = limit.admissions events) := by
  refine ⟨ip_eq_iff request chosen, ?_⟩
  intro alike
  induction alike generalizing limit with
  | nil => rfl
  | @cons event event' events events' first rest induction =>
      cases event with
      | upgrade now exists_ request =>
          obtain ⟨chosen, rfl, same⟩ := first
          have key : { request with chosen := chosen }.key = request.key :=
            congrArg (Option.map limiterKey) ((ip_eq_iff request chosen).mpr same)
          simp only [Limiter.admissions, key]
          cases request.key with
          | none => exact induction limit
          | some ip => simp only [induction]
      | release creator =>
          obtain ⟨chosen, rfl, same⟩ := first
          have key : { creator with chosen := chosen }.key = creator.key :=
            congrArg (Option.map limiterKey) ((ip_eq_iff creator chosen).mpr same)
          simp only [Limiter.admissions, key]
          cases creator.key with
          | none => exact induction limit
          | some ip => simp only [induction]

/-- A client that sends no header of its own, or one. -/
def clientAt (chosen : Option GoString) : ProxiedRequest where
  remote := ⟨ascii "203.0.113.7", by decide, by decide +kernel⟩
  chosen := chosen
  remoteAddr := ascii "127.0.0.1:52814"
  before := []
  behind := []
  others := by simp

/-- Eleven requests within a minute, for buckets that do not exist. -/
def createEleven (chosen : Nat → Option GoString) : List QuotaEvent :=
  (List.range 11).map fun i => .upgrade 0 false (clientAt (chosen i))

/-- Headers that start with the real address change nothing, whatever stands
behind it. -/
theorem quotas_follow_own_address :
    (clientAt (some (ascii "203.0.113.7 , 198.51.100.1"))).ip =
      (clientAt none).ip ∧
    (Limiter.new 10 32).admissions (createEleven fun i =>
        some (ascii "203.0.113.7 , " ++ ascii (toString i))) =
      (Limiter.new 10 32).admissions (createEleven fun _ => none) := by
  have claims : ∀ i ∈ List.range 11,
      (clientAt (some (ascii "203.0.113.7 , " ++
        ascii (toString i)))).claimed = (clientAt none).claimed := by
    decide +kernel
  have alike : List.Forall₂ QuotaEvent.Alike (createEleven fun _ => none)
      (createEleven fun i =>
        some (ascii "203.0.113.7 , " ++ ascii (toString i))) := by
    rw [createEleven, createEleven, List.forall₂_map_left_iff,
      List.forall₂_map_right_iff, List.forall₂_same]
    exact fun i member => ⟨_, rfl, claims i member⟩
  obtain ⟨follows, admits⟩ := quotas_follow_claims (clientAt none)
    (some (ascii "203.0.113.7 , 198.51.100.1")) (.new 10 32) _ _
  exact ⟨follows.mpr (by decide +kernel), admits alike⟩

/-- The eleventh request of a minute is refused, unless each request claims
an address of its own. -/
theorem header_evades_quota :
    ∃ (request : ProxiedRequest) (chosen : Option GoString)
      (events events' : List QuotaEvent),
      { request with chosen := chosen }.ip ≠ request.ip ∧
      events = createEleven (fun _ => none) ∧
      events' = createEleven (fun i => some (ascii (toString i))) ∧
      (Limiter.new 10 32).admissions events =
        List.replicate 10 .admitted ++ [.rateLimited] ∧
      (Limiter.new 10 32).admissions events' =
        List.replicate 11 .admitted := by
  refine ⟨clientAt none, some (ascii "1"), _, _, ?_, rfl, rfl, ?_, ?_⟩
  · decide +kernel
  · decide +kernel
  · decide +kernel

end Byteln.Server

import Mathlib.Data.Finset.Card
import Mathlib.Data.List.TakeWhile
import Byteln.Server.GoStrings

/-!
# The list of permitted web origins

Origins that are built in, those of a directory that is fetched again and
again, and those of the configuration.  A fetch that fails leaves the list as
it was.
-/

namespace Byteln.Server

/-! ## URLs -/

/-- A parsed URL.  The scheme ends before the first colon. -/
structure Url where
  scheme : GoString
  host : GoString
  plain : ∀ b ∈ scheme, b.toNat < 0x80 ∧ b ≠ 0x3A

def isPortDigit (b : UInt8) : Bool :=
  0x30 ≤ b && b ≤ 0x39

namespace Url

/-- The host without brackets, and the digits behind its last colon. -/
def splitHostPort (hostPort : GoString) : GoString × GoString :=
  let parts :=
    match splitOnce hostPort.reverse 0x3A with
    | none => (hostPort, [])
    | some (port, host) =>
        if port.all isPortDigit then (host.reverse, port.reverse)
        else (hostPort, [])
  if parts.1.head? = some 0x5B ∧ parts.1.getLast? = some 0x5D then
    (parts.1.tail.dropLast, parts.2)
  else parts

def hostname (u : Url) : GoString :=
  (splitHostPort u.host).1

def port (u : Url) : GoString :=
  (splitHostPort u.host).2

end Url

structure DirectoryEntry where
  url : GoString
  clients : List GoString

/-- What is used of the standard library: `url.Parse`, `strings.ToLower` of
texts that are not ASCII, `net.ParseIP` and `json.Unmarshal`. -/
structure GoLib where
  parse : GoString → Option Url
  lowerUnicode : GoString → GoString
  isIP : GoString → Bool
  unmarshal : GoString → Except GoString (List DirectoryEntry)

def lowerByte (b : UInt8) : UInt8 :=
  if 0x41 ≤ b && b ≤ 0x5A then b + 0x20 else b

/-- `strings.ToLower`. -/
def toLower (lib : GoLib) (s : GoString) : GoString :=
  if s.all (fun b => b < 0x80) then s.map lowerByte else lib.lowerUnicode s

/-! ## The list -/

def embeddedOrigins : List GoString :=
  [ascii "https://byteln.com", ascii "https://www.byteln.com",
    ascii "http://localhost", ascii "http://127.0.0.1", ascii "http://[::1]"]

def defaultPort (scheme : GoString) : GoString :=
  if scheme = ascii "https" then ascii "443" else ascii "80"

def isLoopback (host : GoString) : Bool :=
  host = ascii "localhost" || host = ascii "127.0.0.1" || host = ascii "::1"

/-- The bytes that no host has: blanks, slashes, angle brackets, quotes. -/
def strayHostBytes : List UInt8 :=
  [0x20, 0x2F, 0x5C, 0x3C, 0x3E, 0x22, 0x27]

def validHost (lib : GoLib) (host : GoString) : Bool :=
  if isLoopback host then true
  else if host.any (fun b => b ∈ strayHostBytes) then false
  else if lib.isIP host then true
  else if 0x2E ∉ host then false
  else (host.splitOn 0x2E).all fun p => p ≠ [] && p.length ≤ 63

/-- The text under which an origin is listed. -/
def originText (scheme host port : GoString) : GoString :=
  let origin := scheme ++ (ascii "://" ++ host)
  if port ≠ [] ∧ port ≠ defaultPort scheme then origin ++ 0x3A :: port
  else origin

/-- Full origins, and hosts that are allowed with any port. -/
structure OriginSets where
  exact : Finset GoString
  hosts : Finset GoString

def addOriginLocked (lib : GoLib) (a : OriginSets) (raw : GoString) :
    OriginSets :=
  let raw := trimSpace raw
  if raw = [] then a
  else
    match lib.parse raw with
    | none => a
    | some u =>
        if u.scheme = [] ∨ u.host = [] then a
        else
          let scheme := toLower lib u.scheme
          if scheme ≠ ascii "http" ∧ scheme ≠ ascii "https" then a
          else
            let host := toLower lib u.hostname
            if host = [] ∨ validHost lib host = false then a
            else if isLoopback host then
              { a with hosts := insert host a.hosts }
            else
              { a with exact := insert (originText scheme host u.port) a.exact }

/-- `wss` becomes `https`, `ws` becomes `http` for loopback only. -/
def originsFromRelayURL (lib : GoLib) (relay : GoString) : List GoString :=
  let relay := trimSpace relay
  if relay = [] then []
  else
    match lib.parse relay with
    | none => []
    | some u =>
        if u.host = [] then []
        else
          let host := toLower lib u.hostname
          if validHost lib host = false then []
          else
            let scheme := toLower lib u.scheme
            if scheme = ascii "wss" ∨ scheme = ascii "https" then
              [ascii "https://" ++ host]
            else if scheme = ascii "ws" ∨ scheme = ascii "http" then
              if isLoopback host then [ascii "http://" ++ host]
              else [ascii "https://" ++ host]
            else []

structure Allowlist extends OriginSets where
  extra : List GoString
  dirURL : GoString
  lastErr : GoString
  count : ℕ

def defaultDirectoryURL : GoString :=
  ascii ("https://raw.githubusercontent.com/byteln/byteln/main/" ++
    "directory/servers.json")

def maxDirectoryBytes : ℕ :=
  262144

def maxEntries : ℕ :=
  500

def OriginSets.addAll (lib : GoLib) (a : OriginSets) (raws : List GoString) :
    OriginSets :=
  raws.foldl (addOriginLocked lib) a

namespace Allowlist

def resetToEmbedded (lib : GoLib) (a : Allowlist) : Allowlist :=
  let sets := OriginSets.addAll lib ⟨∅, ∅⟩ embeddedOrigins
  { a with
    toOriginSets := sets
    count := sets.exact.card + sets.hosts.card }

def applyExtras (lib : GoLib) (a : Allowlist) : Allowlist :=
  let sets := OriginSets.addAll lib a.toOriginSets (a.extra.map trimSpace)
  { a with
    toOriginSets := sets
    count := sets.exact.card + sets.hosts.card }

def new (lib : GoLib) (dirURL : GoString) (extraOrigins : List GoString) :
    Allowlist :=
  applyExtras lib <| resetToEmbedded lib
    { exact := ∅
      hosts := ∅
      extra := extraOrigins
      dirURL := if dirURL = [] then defaultDirectoryURL else dirURL
      lastErr := []
      count := 0 }

/-- What comes of a request: none at all, or an answer, the body of which may
end in an error. -/
inductive Response where
  | failed (err : GoString)
  | answered (status : ℕ) (body : GoString) (cut : Option GoString)

def fetchDirectory (lib : GoLib) (dirURL : GoString) (response : Response) :
    Except GoString (List DirectoryEntry) :=
  match lib.parse dirURL with
  | none => .error (ascii "invalid directory url")
  | some u =>
      if u.scheme ≠ ascii "https" ∧ u.scheme ≠ ascii "http" then
        .error (ascii "invalid directory url")
      else if u.hostname ≠ ascii "localhost" ∧
          u.hostname ≠ ascii "127.0.0.1" ∧ u.scheme ≠ ascii "https" then
        .error (ascii "directory url must be https")
      else
        match response with
        | .failed err => .error err
        | .answered status body cut =>
            if status ≠ 200 then
              .error (ascii "directory http " ++ ascii (toString status))
            else if cut ≠ none ∧ body.length ≤ maxDirectoryBytes then
              .error (cut.getD [])
            else
              -- One byte more than is allowed is read, to tell that it is there.
              let raw := body.take (maxDirectoryBytes + 1)
              if maxDirectoryBytes < raw.length then
                .error (ascii "directory too large")
              else
                match lib.unmarshal raw with
                | .error err => .error (ascii "directory json: " ++ err)
                | .ok entries =>
                    if maxEntries < entries.length then
                      .error (ascii "too many directory entries")
                    else .ok entries

/-- The origins of a directory. -/
def directoryOrigins (lib : GoLib) (entries : List DirectoryEntry) :
    List GoString :=
  entries.flatMap fun e => originsFromRelayURL lib e.url ++ e.clients

/-- Rebuilds the list, or keeps it and returns an error. -/
def refresh (lib : GoLib) (a : Allowlist) (response : Response) :
    Allowlist × Option GoString :=
  match fetchDirectory lib a.dirURL response with
  | .error err => ({ a with lastErr := err }, some err)
  | .ok entries =>
      let tmp := OriginSets.addAll lib (OriginSets.addAll lib
        (OriginSets.addAll lib ⟨∅, ∅⟩ embeddedOrigins)
        (directoryOrigins lib entries)) (a.extra.map trimSpace)
      ({ a with
        toOriginSets := tmp
        count := tmp.exact.card + tmp.hosts.card
        lastErr := [] }, none)

/-- Is a request with such an origin permitted?  One without an origin is. -/
def allow (lib : GoLib) (a : Allowlist) (origin : GoString) : Bool :=
  let origin := trimSpace origin
  if origin = [] then true
  else
    match lib.parse origin with
    | none => false
    | some u =>
        let host := toLower lib u.hostname
        let scheme := toLower lib u.scheme
        if host ∈ a.hosts ∧ (scheme = ascii "http" ∨ scheme = ascii "https")
        then true
        else decide (originText scheme host u.port ∈ a.exact)

/-- The origin to echo, or nothing if it is not allowed. -/
def corsOrigin (lib : GoLib) (a : Allowlist) (origin : GoString) : GoString :=
  if origin = [] ∨ allow lib a origin = false then [] else origin

def stats (a : Allowlist) : ℕ × GoString :=
  (a.count, a.lastErr)

end Allowlist

/-! ## What is listed -/

/-- An origin, its port left out where it is the default. -/
structure WebOrigin where
  scheme : GoString
  host : GoString
  port : GoString

namespace WebOrigin

def ofUrl (lib : GoLib) (u : Url) : WebOrigin where
  scheme := toLower lib u.scheme
  host := toLower lib u.hostname
  port := if u.port = defaultPort (toLower lib u.scheme) then [] else u.port

def IsHttp (e : WebOrigin) : Prop :=
  e.scheme = ascii "http" ∨ e.scheme = ascii "https"

def text (e : WebOrigin) : GoString :=
  e.scheme ++ (ascii "://" ++ e.host) ++
    if e.port = [] then [] else 0x3A :: e.port

theorem text_ofUrl (lib : GoLib) (u : Url) :
    (ofUrl lib u).text =
      originText (toLower lib u.scheme) (toLower lib u.hostname) u.port := by
  unfold text originText ofUrl
  by_cases absent : u.port = []
  · simp [absent]
  · by_cases standard : u.port = defaultPort (toLower lib u.scheme)
    · simp [standard]
    · simp [absent, standard]

end WebOrigin

/-- A text is listed as an origin. -/
structure Lists (lib : GoLib) (raw : GoString) (e : WebOrigin) : Prop where
  some_ : trimSpace raw ≠ []
  parsed : ∃ u, lib.parse (trimSpace raw) = some u ∧ u.scheme ≠ [] ∧
    u.host ≠ [] ∧ e = .ofUrl lib u
  http : e.IsHttp
  host : e.host ≠ []
  valid : validHost lib e.host = true

theorem Lists.unique {lib : GoLib} {raw : GoString} {e e' : WebOrigin}
    (lists : Lists lib raw e) (lists' : Lists lib raw e') : e = e' := by
  obtain ⟨u, parsed, -, -, rfl⟩ := lists.parsed
  obtain ⟨u', parsed', -, -, rfl⟩ := lists'.parsed
  rw [parsed] at parsed'
  obtain rfl := Option.some.inj parsed'
  rfl

/-- A text that lists nothing changes nothing. -/
theorem addOriginLocked_of_not_lists {lib : GoLib} {raw : GoString}
    (unlisted : ∀ e, ¬ Lists lib raw e) (a : OriginSets) :
    addOriginLocked lib a raw = a := by
  unfold addOriginLocked
  dsimp only
  split
  · rfl
  rename_i some_
  split
  · rfl
  rename_i u parsed
  split
  · rfl
  rename_i parts
  rw [not_or] at parts
  split
  · rfl
  rename_i http
  split
  · rfl
  rename_i host
  rw [not_or, Bool.not_eq_false] at host
  refine absurd ?_ (unlisted (.ofUrl lib u))
  exact
    { some_ := some_
      parsed := ⟨u, parsed, parts.1, parts.2, rfl⟩
      http := by
        by_contra other
        unfold WebOrigin.IsHttp at other
        rw [not_or] at other
        exact http other
      host := host.1
      valid := host.2 }

theorem addOriginLocked_of_lists {lib : GoLib} {raw : GoString}
    {e : WebOrigin} (lists : Lists lib raw e) (a : OriginSets) :
    addOriginLocked lib a raw =
      if isLoopback e.host then { a with hosts := insert e.host a.hosts }
      else { a with exact := insert e.text a.exact } := by
  obtain ⟨some_, ⟨u, parsed, scheme, host, rfl⟩, http, name, valid⟩ := lists
  have web : ¬ (toLower lib u.scheme ≠ ascii "http" ∧
      toLower lib u.scheme ≠ ascii "https") := by
    intro other
    exact http.elim other.1 other.2
  have named : ¬ (toLower lib u.hostname = [] ∨
      validHost lib (toLower lib u.hostname) = false) := by
    rw [not_or, Bool.not_eq_false]
    exact ⟨name, valid⟩
  rw [WebOrigin.text_ofUrl]
  unfold addOriginLocked
  dsimp only
  rw [if_neg some_, parsed]
  dsimp only
  rw [if_neg (by simp [scheme, host]), if_neg web, if_neg named]
  rfl

/-- The sets hold what some texts list, and nothing else. -/
structure OriginSets.Holds (lib : GoLib) (a : OriginSets)
    (raws : List GoString) : Prop where
  exact : ∀ text, text ∈ a.exact ↔ ∃ raw ∈ raws, ∃ e, Lists lib raw e ∧
    isLoopback e.host = false ∧ e.text = text
  hosts : ∀ host, host ∈ a.hosts ↔ ∃ raw ∈ raws, ∃ e, Lists lib raw e ∧
    isLoopback e.host = true ∧ e.host = host

theorem OriginSets.holds_empty (lib : GoLib) :
    OriginSets.Holds lib ⟨∅, ∅⟩ [] := by
  constructor
  · intro text
    simp
  · intro host
    simp

theorem OriginSets.Holds.add {lib : GoLib} {a : OriginSets}
    {raws : List GoString} (holds : a.Holds lib raws) (raw : GoString) :
    (addOriginLocked lib a raw).Holds lib (raws ++ [raw]) := by
  by_cases listed : ∃ e, Lists lib raw e
  · obtain ⟨e, lists⟩ := listed
    rw [addOriginLocked_of_lists lists]
    have only : ∀ {P : WebOrigin → Prop},
        (∃ e', Lists lib raw e' ∧ P e') ↔ P e := by
      intro P
      constructor
      · rintro ⟨e', lists', holds⟩
        rwa [lists.unique lists']
      · exact fun holds => ⟨e, lists, holds⟩
    cases loopback : isLoopback e.host with
    | true =>
        rw [if_pos rfl]
        constructor
        · intro text
          simp only [holds.exact, List.mem_append, List.mem_singleton,
            or_and_right, exists_or, exists_eq_left, only, loopback,
            Bool.true_eq_false, false_and, or_false]
        · intro host
          simp only [Finset.mem_insert, holds.hosts, List.mem_append,
            List.mem_singleton, or_and_right, exists_or, exists_eq_left,
            only, loopback, true_and]
          rw [or_comm, eq_comm]
    | false =>
        rw [if_neg Bool.false_ne_true]
        constructor
        · intro text
          simp only [Finset.mem_insert, holds.exact, List.mem_append,
            List.mem_singleton, or_and_right, exists_or, exists_eq_left,
            only, loopback, true_and]
          rw [or_comm, eq_comm]
        · intro host
          simp only [holds.hosts, List.mem_append, List.mem_singleton,
            or_and_right, exists_or, exists_eq_left, only, loopback,
            Bool.false_eq_true, false_and, or_false]
  · rw [not_exists] at listed
    rw [addOriginLocked_of_not_lists listed]
    constructor
    · intro text
      simp [holds.exact, or_and_right, exists_or, listed]
    · intro host
      simp [holds.hosts, or_and_right, exists_or, listed]

theorem OriginSets.Holds.addAll {lib : GoLib} {a : OriginSets}
    {raws : List GoString} (holds : a.Holds lib raws)
    (more : List GoString) :
    (a.addAll lib more).Holds lib (raws ++ more) := by
  unfold OriginSets.addAll
  induction more generalizing a raws with
  | nil =>
      rw [List.append_nil]
      exact holds
  | cons raw more induction =>
      have rest := induction (holds.add raw)
      rwa [List.append_assoc, List.singleton_append] at rest

theorem lists_trimSpace {lib : GoLib} {raw : GoString} {e : WebOrigin} :
    Lists lib (trimSpace raw) e ↔ Lists lib raw e := by
  constructor
  · rintro ⟨some_, parsed, http, host, valid⟩
    rw [trimSpace_trimSpace] at some_ parsed
    exact ⟨some_, parsed, http, host, valid⟩
  · rintro ⟨some_, parsed, http, host, valid⟩
    refine ⟨?_, ?_, http, host, valid⟩ <;> rwa [trimSpace_trimSpace]

theorem exists_mem_trimmed {P : WebOrigin → Prop} {lib : GoLib}
    {raws extras : List GoString} :
    (∃ raw ∈ raws ++ extras.map trimSpace, ∃ e, Lists lib raw e ∧ P e) ↔
      ∃ raw ∈ raws ++ extras, ∃ e, Lists lib raw e ∧ P e := by
  simp only [List.mem_append, or_and_right, exists_or, List.mem_map,
    exists_exists_and_eq_and, lists_trimSpace]

theorem OriginSets.Holds.untrimmed {lib : GoLib} {a : OriginSets}
    {raws extras : List GoString}
    (holds : a.Holds lib (raws ++ extras.map trimSpace)) :
    a.Holds lib (raws ++ extras) := by
  constructor
  · intro text
    rw [holds.exact, exists_mem_trimmed]
  · intro host
    rw [holds.hosts, exists_mem_trimmed]

/-! ## What is allowed -/

namespace Allowlist

variable {lib : GoLib} {a : Allowlist} {raws : List GoString}

/-- An origin is allowed by its text, or by its host alone. -/
theorem allow_iff (holds : a.Holds lib raws) {origin : GoString}
    (some_ : trimSpace origin ≠ []) {u : Url}
    (parsed : lib.parse (trimSpace origin) = some u) :
    allow lib a origin = true ↔
      (∃ raw ∈ raws, ∃ e, Lists lib raw e ∧ isLoopback e.host = true ∧
          e.host = toLower lib u.hostname) ∧ (WebOrigin.ofUrl lib u).IsHttp ∨
        ∃ raw ∈ raws, ∃ e, Lists lib raw e ∧ isLoopback e.host = false ∧
          e.text = (WebOrigin.ofUrl lib u).text := by
  unfold allow
  dsimp only
  rw [if_neg some_, parsed, WebOrigin.text_ofUrl]
  dsimp only
  rw [← holds.hosts, ← holds.exact]
  split
  · rename_i host
    exact iff_of_true rfl (Or.inl host)
  · rename_i host
    rw [decide_eq_true_eq]
    exact ⟨Or.inr, fun either => either.resolve_left host⟩

/-- Whatever lists an origin is allowed. -/
theorem allow_of_lists (holds : a.Holds lib raws) {raw : GoString}
    (member : raw ∈ raws) {e : WebOrigin} (lists : Lists lib raw e) :
    allow lib a raw = true := by
  obtain ⟨u, parsed, -, -, rfl⟩ := lists.parsed
  rw [allow_iff holds lists.some_ parsed]
  cases loopback : isLoopback (WebOrigin.ofUrl lib u).host with
  | true => exact Or.inl ⟨⟨raw, member, _, lists, loopback, rfl⟩, lists.http⟩
  | false => exact Or.inr ⟨raw, member, _, lists, loopback, rfl⟩

/-! ## Runs -/

/-- The list after some fetches. -/
def after (lib : GoLib) (a : Allowlist) (responses : List Response) :
    Allowlist :=
  responses.foldl (fun a response => (refresh lib a response).1) a

/-- The directory that is known after a fetch. -/
def directoryOr (entries : List DirectoryEntry) :
    Except GoString (List DirectoryEntry) → List DirectoryEntry
  | .error _ => entries
  | .ok entries => entries

/-- The directory that was fetched last. -/
def lastDirectory (lib : GoLib) (dirURL : GoString)
    (responses : List Response) : List DirectoryEntry :=
  responses.foldl (fun entries response =>
    directoryOr entries (fetchDirectory lib dirURL response)) []

/-- The texts that a list is built of. -/
def sources (lib : GoLib) (extra : List GoString)
    (entries : List DirectoryEntry) : List GoString :=
  embeddedOrigins ++ directoryOrigins lib entries ++ extra

/-- A list holds what its directory and its configuration list, and counts
it. -/
structure IsBuilt (lib : GoLib) (dirURL : GoString) (extra : List GoString)
    (entries : List DirectoryEntry) (a : Allowlist) : Prop where
  fetched : a.dirURL = dirURL
  configured : a.extra = extra
  holds : a.Holds lib (sources lib extra entries)
  count : a.count = a.exact.card + a.hosts.card

theorem isBuilt_new (lib : GoLib) (dirURL : GoString)
    (extra : List GoString) :
    IsBuilt lib (if dirURL = [] then defaultDirectoryURL else dirURL) extra []
      (new lib dirURL extra) where
  fetched := rfl
  configured := rfl
  holds := by
    have holds := ((OriginSets.holds_empty lib).addAll embeddedOrigins).addAll
      (extra.map trimSpace)
    have whole := holds.untrimmed
    rw [List.nil_append] at whole
    unfold sources directoryOrigins
    rw [List.flatMap_nil, List.append_nil]
    exact whole
  count := rfl

/-- A directory comes whole, over a permitted URL, and is not too long. -/
structure Fetched (lib : GoLib) (dirURL : GoString) (response : Response)
    (entries : List DirectoryEntry) : Prop where
  url : ∃ u, lib.parse dirURL = some u ∧
    (u.scheme = ascii "https" ∨ u.scheme = ascii "http" ∧
      (u.hostname = ascii "localhost" ∨ u.hostname = ascii "127.0.0.1"))
  answer : ∃ body, response = .answered 200 body none ∧
    body.length ≤ maxDirectoryBytes ∧ lib.unmarshal body = .ok entries
  few : entries.length ≤ maxEntries

theorem fetchDirectory_of_fetched {dirURL : GoString} {response : Response}
    {entries : List DirectoryEntry}
    (fetched : Fetched lib dirURL response entries) :
    fetchDirectory lib dirURL response = .ok entries := by
  obtain ⟨⟨u, parsed, permitted⟩, ⟨body, rfl, short, decoded⟩, few⟩ := fetched
  have whole : body.take (maxDirectoryBytes + 1) = body :=
    List.take_of_length_le (by omega)
  have web : ¬ (u.scheme ≠ ascii "https" ∧ u.scheme ≠ ascii "http") := by
    rintro ⟨notHttps, notHttp⟩
    exact permitted.elim notHttps fun plain => notHttp plain.1
  have safe : ¬ (u.hostname ≠ ascii "localhost" ∧
      u.hostname ≠ ascii "127.0.0.1" ∧ u.scheme ≠ ascii "https") := by
    rintro ⟨named, addressed, notHttps⟩
    rcases permitted with https | ⟨-, loopback⟩
    · exact notHttps https
    · exact loopback.elim named addressed
  unfold fetchDirectory
  rw [parsed]
  dsimp only
  rw [if_neg web, if_neg safe, if_neg (not_not.mpr rfl),
    if_neg (fun cut => cut.1 rfl), whole, if_neg (not_lt.mpr short), decoded]
  exact if_neg (not_lt.mpr few)

theorem fetched_of_fetchDirectory {dirURL : GoString} {response : Response}
    {entries : List DirectoryEntry}
    (result : fetchDirectory lib dirURL response = .ok entries) :
    Fetched lib dirURL response entries := by
  unfold fetchDirectory at result
  split at result
  · cases result
  rename_i u parsed
  split at result
  · cases result
  rename_i web
  split at result
  · cases result
  rename_i safe
  split at result
  · cases result
  rename_i status body cut
  split at result
  · cases result
  rename_i found
  split at result
  · cases result
  rename_i complete
  dsimp only at result
  split at result
  · cases result
  rename_i short
  split at result
  · cases result
  rename_i entries' decoded
  split at result
  · cases result
  rename_i few
  obtain rfl := Except.ok.inj result
  rw [List.length_take] at short
  have short : body.length ≤ maxDirectoryBytes := by omega
  have whole : body.take (maxDirectoryBytes + 1) = body :=
    List.take_of_length_le (by omega)
  rw [whole] at decoded
  obtain rfl : cut = none := by
    by_contra isCut
    exact complete ⟨isCut, short⟩
  rw [not_not] at found
  subst found
  refine ⟨⟨u, parsed, ?_⟩, ⟨body, rfl, short, decoded⟩, not_lt.mp few⟩
  by_contra forbidden
  rw [not_or] at forbidden
  obtain ⟨notHttps, notLoopback⟩ := forbidden
  have http : u.scheme = ascii "http" := by
    by_contra notHttp
    exact web ⟨notHttps, notHttp⟩
  refine safe ⟨fun named => ?_, fun addressed => ?_, notHttps⟩
  · exact notLoopback ⟨http, .inl named⟩
  · exact notLoopback ⟨http, .inr addressed⟩

theorem refresh_of_error {response : Response} {err : GoString}
    (fetched : fetchDirectory lib a.dirURL response = .error err) :
    refresh lib a response = ({ a with lastErr := err }, some err) := by
  unfold refresh
  rw [fetched]

theorem refresh_of_ok {response : Response} {entries : List DirectoryEntry}
    (fetched : fetchDirectory lib a.dirURL response = .ok entries) :
    (refresh lib a response).2 = none ∧
      IsBuilt lib a.dirURL a.extra entries (refresh lib a response).1 := by
  have holds := (((OriginSets.holds_empty lib).addAll embeddedOrigins).addAll
    (directoryOrigins lib entries)).addAll (a.extra.map trimSpace)
  have whole := holds.untrimmed
  rw [List.nil_append] at whole
  unfold refresh
  rw [fetched]
  exact ⟨rfl, rfl, rfl, whole, rfl⟩

/-- One fetch keeps the directory or replaces it. -/
theorem IsBuilt.refresh {dirURL : GoString} {extra : List GoString}
    {entries : List DirectoryEntry}
    (built : IsBuilt lib dirURL extra entries a) (response : Response) :
    IsBuilt lib dirURL extra
      (directoryOr entries (fetchDirectory lib dirURL response))
      (Allowlist.refresh lib a response).1 := by
  cases fetched : fetchDirectory lib dirURL response with
  | error err =>
      rw [← built.fetched] at fetched
      rw [refresh_of_error fetched]
      exact ⟨built.fetched, built.configured, built.holds, built.count⟩
  | ok entries' =>
      rw [← built.fetched] at fetched
      have rebuilt := (refresh_of_ok fetched).2
      rwa [built.fetched, built.configured] at rebuilt

theorem IsBuilt.after {dirURL : GoString} {extra : List GoString}
    (built : IsBuilt lib dirURL extra [] a) (responses : List Response) :
    IsBuilt lib dirURL extra (lastDirectory lib dirURL responses)
      (after lib a responses) := by
  unfold Allowlist.after lastDirectory
  generalize ([] : List DirectoryEntry) = entries at built ⊢
  induction responses generalizing a entries with
  | nil => exact built
  | cons response responses induction =>
      exact induction _ (built.refresh response)

end Allowlist

/-! ## Embedded origins -/

/-- The schemes and hosts of the embedded origins. -/
def embeddedParts : List (GoString × GoString) :=
  [(ascii "https", ascii "byteln.com"), (ascii "https", ascii "www.byteln.com"),
    (ascii "http", ascii "localhost"), (ascii "http", ascii "127.0.0.1"),
    (ascii "http", ascii "[::1]")]

/-- URLs of a scheme and a host are parsed into these. -/
def ParsesEmbedded (lib : GoLib) : Prop :=
  ∀ part ∈ embeddedParts, ∃ u,
    lib.parse (part.1 ++ (ascii "://" ++ part.2)) = some u ∧
      u.scheme = part.1 ∧ u.host = part.2

theorem toLower_ascii (lib : GoLib) {s : GoString}
    (small : s.all (fun b => b < 0x80) = true) :
    toLower lib s = s.map lowerByte :=
  if_pos small

theorem validHost_embedded (lib : GoLib) :
    ∀ part ∈ embeddedParts, validHost lib
      ((Url.splitHostPort part.2).1.map lowerByte) = true := by
  have each : ∀ part ∈ embeddedParts,
      isLoopback ((Url.splitHostPort part.2).1.map lowerByte) = true ∨
      (((Url.splitHostPort part.2).1.map lowerByte).any
          (fun b => b ∈ strayHostBytes) = false ∧
        0x2E ∈ (Url.splitHostPort part.2).1.map lowerByte ∧
        (((Url.splitHostPort part.2).1.map lowerByte).splitOn 0x2E).all
          (fun p => p ≠ [] && p.length ≤ 63) = true) := by
    decide
  intro part member
  unfold validHost
  rcases each part member with loopback | ⟨plain, dotted, labels⟩
  · rw [if_pos loopback]
  · rw [plain, if_neg Bool.false_ne_true, if_neg (not_not.mpr dotted), labels]
    split_ifs <;> rfl

theorem lists_embedded {lib : GoLib} (parses : ParsesEmbedded lib) :
    ∀ raw ∈ embeddedOrigins, ∃ e, Lists lib raw e := by
  have parts : embeddedOrigins = embeddedParts.map fun part =>
      part.1 ++ (ascii "://" ++ part.2) :=
    rfl
  have each : ∀ part ∈ embeddedParts,
      trimSpace (part.1 ++ (ascii "://" ++ part.2)) =
          part.1 ++ (ascii "://" ++ part.2) ∧
        part.1 ++ (ascii "://" ++ part.2) ≠ [] ∧ part.1 ≠ [] ∧
        part.2 ≠ [] ∧ part.1.all (fun b => b < 0x80) = true ∧
        (Url.splitHostPort part.2).1.all (fun b => b < 0x80) = true ∧
        (part.1.map lowerByte = ascii "http" ∨
          part.1.map lowerByte = ascii "https") ∧
        (Url.splitHostPort part.2).1.map lowerByte ≠ [] := by
    decide
  intro raw member
  rw [parts] at member
  obtain ⟨part, inside, rfl⟩ := List.mem_map.mp member
  obtain ⟨u, parsed, scheme, host⟩ := parses part inside
  obtain ⟨trimmed, some_, named, hosted, plain, plain', web, name⟩ :=
    each part inside
  have lowered : toLower lib u.hostname =
      (Url.splitHostPort part.2).1.map lowerByte := by
    unfold Url.hostname
    rw [host]
    exact toLower_ascii lib plain'
  refine ⟨.ofUrl lib u, ?_⟩
  exact
    { some_ := by rwa [trimmed]
      parsed := ⟨u, by rwa [trimmed], by rwa [scheme], by rwa [host], rfl⟩
      http := by
        show toLower lib u.scheme = _ ∨ toLower lib u.scheme = _
        rw [scheme, toLower_ascii lib plain]
        exact web
      host := by
        show toLower lib u.hostname ≠ []
        rwa [lowered]
      valid := by
        show validHost lib (toLower lib u.hostname) = true
        rw [lowered]
        exact validHost_embedded lib part inside }

/-- A fetch that fails returns an error and changes no answer; one that
succeeds returns none and leaves the embedded origins, those of its directory
and those of the configuration; the embedded and the configured origins are
always allowed. -/
theorem allowlist_survives_refreshes {lib : GoLib}
    (parses : ParsesEmbedded lib) (dirURL : GoString)
    (extra : List GoString) (responses : List Allowlist.Response) :
    let a := Allowlist.after lib (Allowlist.new lib dirURL extra) responses
    let url := if dirURL = [] then defaultDirectoryURL else dirURL
    (∀ response, (∀ entries, ¬ Allowlist.Fetched lib url response entries) →
        (Allowlist.refresh lib a response).2 ≠ none ∧
        ∀ origin, Allowlist.allow lib (Allowlist.refresh lib a response).1
          origin = Allowlist.allow lib a origin) ∧
      (∀ response entries, Allowlist.Fetched lib url response entries →
        (Allowlist.refresh lib a response).2 = none ∧
        (Allowlist.refresh lib a response).1.Holds lib
          (embeddedOrigins ++ Allowlist.directoryOrigins lib entries ++
            extra)) ∧
      (∀ raw ∈ embeddedOrigins, Allowlist.allow lib a raw = true) ∧
      ∀ raw ∈ extra, (∃ e, Lists lib raw e) →
        Allowlist.allow lib a raw = true := by
  intro a url
  have built := (Allowlist.isBuilt_new lib dirURL extra).after responses
  refine ⟨?_, ?_, ?_, ?_⟩
  · intro response unfetched
    cases fetched : Allowlist.fetchDirectory lib a.dirURL response with
    | error err =>
        rw [Allowlist.refresh_of_error fetched]
        exact ⟨nofun, fun origin => rfl⟩
    | ok entries =>
        rw [built.fetched] at fetched
        exact absurd (Allowlist.fetched_of_fetchDirectory fetched)
          (unfetched entries)
  · intro response entries fetched
    have result :
        Allowlist.fetchDirectory lib a.dirURL response = .ok entries := by
      rw [built.fetched]
      exact Allowlist.fetchDirectory_of_fetched fetched
    obtain ⟨accepted, rebuilt⟩ := Allowlist.refresh_of_ok result
    rw [built.configured] at rebuilt
    exact ⟨accepted, rebuilt.holds⟩
  · intro raw member
    obtain ⟨e, lists⟩ := lists_embedded parses raw member
    apply Allowlist.allow_of_lists built.holds _ lists
    exact List.mem_append_left _ (List.mem_append_left _ member)
  · rintro raw member ⟨e, lists⟩
    apply Allowlist.allow_of_lists built.holds _ lists
    exact List.mem_append_right _ member

/-! ## Plain URLs -/

def isLowerLetter (b : UInt8) : Bool :=
  0x61 ≤ b && b ≤ 0x7A

theorem plain_of_isLowerLetter (b : UInt8) (letter : isLowerLetter b = true) :
    b.toNat < 0x80 ∧ b ≠ 0x3A := by
  constructor
  · simp only [isLowerLetter, Bool.and_eq_true, decide_eq_true_eq,
      UInt8.le_iff_toNat_le, UInt8.reduceToNat] at letter
    omega
  · rintro rfl
    cases letter

/-- URLs of a scheme in small letters, a host and a path, without escapes. -/
def parsePlain (s : GoString) : Option Url :=
  let scheme := s.takeWhile isLowerLetter
  if scheme ≠ [] ∧ (ascii "://").isPrefixOf (s.drop scheme.length) then
    some
      { scheme := s.takeWhile isLowerLetter
        host := (s.drop (scheme.length + 3)).takeWhile fun b =>
          b ∉ ascii "/?#"
        plain := fun b member =>
          plain_of_isLowerLetter b (List.mem_takeWhile_imp member) }
  else none

/-- Plain URLs, IPv6 addresses told by their colons, and an empty directory. -/
def plainLib : GoLib where
  parse := parsePlain
  lowerUnicode := id
  isIP s := 0x3A ∈ s
  unmarshal _ := .ok []

theorem parsesEmbedded_plainLib : ParsesEmbedded plainLib := by
  have each : ∀ part ∈ embeddedParts,
      ((parsePlain (part.1 ++ (ascii "://" ++ part.2))).map fun u =>
        (u.scheme, u.host)) = some part := by
    decide +kernel
  intro part member
  obtain ⟨u, parsed, same⟩ := Option.map_eq_some_iff.mp (each part member)
  exact ⟨u, parsed, congrArg Prod.fst same, congrArg Prod.snd same⟩

/-- A directory with one relay. -/
private def oneRelayText : GoString :=
  ascii "[\x7b\"url\":\"wss://relay.example\"\x7d]"

private def oneRelayLib : GoLib :=
  { plainLib with
    unmarshal := fun raw =>
      if raw = oneRelayText then .ok [⟨ascii "wss://relay.example", []⟩]
      else .error (ascii "unexpected end of JSON input") }

private def oneRelayURL : GoString :=
  ascii "https://byteln.com/servers.json"

private theorem oneRelay_fetched :
    Allowlist.Fetched oneRelayLib oneRelayURL (.answered 200 oneRelayText none)
      [⟨ascii "wss://relay.example", []⟩] where
  url := by
    have parts : (parsePlain oneRelayURL).map (fun u => u.scheme) =
        some (ascii "https") := by
      decide +kernel
    obtain ⟨u, parsed, https⟩ := Option.map_eq_some_iff.mp parts
    exact ⟨u, parsed, .inl https⟩
  answer := ⟨oneRelayText, rfl, by decide, by simp [oneRelayLib]⟩
  few := by decide

private theorem not_fetched_failed (url err : GoString)
    (entries : List DirectoryEntry) :
    ¬ Allowlist.Fetched oneRelayLib url (.failed err) entries := by
  rintro ⟨-, ⟨_, answered, -⟩, -⟩
  cases answered

/-- Two fetches fail, one succeeds, and another one fails. -/
theorem allowlist_survives_refreshes_relay :
    let a := Allowlist.after oneRelayLib
      (Allowlist.new oneRelayLib oneRelayURL [])
      [.failed [], .answered 404 [] none]
    let fetched := Allowlist.refresh oneRelayLib a
      (.answered 200 oneRelayText none)
    Allowlist.allow oneRelayLib a (ascii "https://byteln.com") = true ∧
      fetched.2 = none ∧
      fetched.1.Holds oneRelayLib
        (embeddedOrigins ++ [ascii "https://relay.example"]) ∧
      (Allowlist.refresh oneRelayLib fetched.1 (.failed [])).2 ≠ none ∧
      ∀ origin, Allowlist.allow oneRelayLib
        (Allowlist.refresh oneRelayLib fetched.1 (.failed [])).1 origin =
          Allowlist.allow oneRelayLib fetched.1 origin := by
  intro a fetched
  have parses : ParsesEmbedded oneRelayLib := parsesEmbedded_plainLib
  obtain ⟨-, succeeds, embedded, -⟩ := allowlist_survives_refreshes parses
    oneRelayURL [] [.failed [], .answered 404 [] none]
  obtain ⟨fails, -⟩ := allowlist_survives_refreshes parses oneRelayURL []
    [.failed [], .answered 404 [] none, .answered 200 oneRelayText none]
  obtain ⟨accepted, holds⟩ := succeeds _ _ oneRelay_fetched
  have origins : Allowlist.directoryOrigins oneRelayLib
      [⟨ascii "wss://relay.example", []⟩] =
        [ascii "https://relay.example"] := by
    decide +kernel
  rw [origins, List.append_nil] at holds
  obtain ⟨refused, kept⟩ := fails (.failed []) (not_fetched_failed _ _)
  exact ⟨embedded _ (by decide +kernel), accepted, holds, refused, kept⟩

end Byteln.Server

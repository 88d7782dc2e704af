import Byteln.Server.FrontDoor

/-!
# The upgrade

`ws.Upgrader` without any options, as `handleConn` uses it: it reads the head
again, through a buffer of its own that is given up afterwards, checks what
makes it a WebSocket handshake, and answers.
-/

namespace Byteln.Server.WebSocket

open Byteln.Library

/-! ## Lines -/

/-- A line without `\n` or `\r\n` at its end. -/
def cutLineEnd (line : GoString) : GoString :=
  let rest := line.dropLast
  if rest.getLast? = some 0x0D then rest.dropLast else rest

/-- A line that does not end is an error. -/
def readLine (br : Buffering UInt8) : Option (GoString × Buffering UInt8) :=
  (br.readString readerSize 0x0A []).map fun (line, br) =>
    (cutLineEnd line, br)

/-- Three parts, or all in the first one. -/
def bsplit3 (bts : GoString) (sep : UInt8) : GoString × GoString × GoString :=
  match splitOnce bts sep with
  | none => (bts, [], [])
  | some (b1, rest) =>
      match splitOnce rest sep with
      | none => (bts, [], [])
      | some (b2, b3) => (b1, b2, b3)

def btrim (bts : GoString) : GoString :=
  let blank := fun b : UInt8 => b == 0x20 || b == 0x09
  (bts.dropWhile blank).rdropWhile blank

/-- The sum of the digits, each times its power of ten. -/
def asciiSum : GoString → Int64
  | [] => 0
  | b :: bts =>
      Int64.ofNat (b &&& 0x0f).toNat * 10 ^ bts.length + asciiSum bts

/-- Every byte from `0x30` to `0x3f` counts as a digit. -/
def asciiToInt (bts : GoString) : Option Int64 :=
  if bts = [] ∨ bts.any (fun b => b &&& 0xf0 != 0x30) then none
  else some (asciiSum bts)

/-- Major and minor version. -/
def httpParseVersion (bts : GoString) : Option (Int64 × Int64) :=
  if bts = ascii "HTTP/1.0" then some (1, 0)
  else if bts = ascii "HTTP/1.1" then some (1, 1)
  else if bts.length < 8 then none
  else if bts.take 5 ≠ ascii "HTTP/" then none
  else
    match splitOnce (bts.drop 5) 0x2E with
    | none => none
    | some (major, minor) => do
        let major ← asciiToInt major
        let minor ← asciiToInt minor
        pure (major, minor)

/-- The key is made canonical whatever bytes it has. -/
def httpParseHeaderLine (line : GoString) : Option (GoString × GoString) :=
  (splitOnce line 0x3A).map fun (k, v) =>
    (canonicalBytes true (btrim k), btrim v)

/-! ## Tokens -/

/-- The spellings of a small letter under Unicode's simple case folding: of
`k` there is also the Kelvin sign, and of `s` the long one. -/
def foldings (letter : UInt8) : List GoString :=
  [[letter], [letter - 0x20]] ++
    (if letter = 0x6B then [[0xE2, 0x84, 0xAA]] else []) ++
    if letter = 0x73 then [[0xC5, 0xBF]] else []

/-- `bytes.EqualFold` with a text of small letters. -/
def equalFold (s : GoString) : GoString → Bool
  | [] => s = []
  | letter :: text =>
      (foldings letter).any fun folded =>
        folded.isPrefixOf s && equalFold (s.drop folded.length) text

/-- An octet of a token: visible, and no separator. -/
def isTokenOctet (b : UInt8) : Bool :=
  0x21 ≤ b && b ≤ 0x7E && b ∉ ascii "()<>@,;:\"/[]?=\x7b\x7d\\"

/-- Spaces, also behind a line end.  A tab is none: the table of octets begins
with the space. -/
def skipSpace : GoString → GoString
  | [] => []
  | b :: bts =>
      if b = 0x20 then skipSpace bts
      else
        match b, bts with
        | 0x0D, 0x0A :: 0x20 :: bts => skipSpace bts
        | _, _ => b :: bts

/-- The tokens up to the first octet that belongs to no list of tokens.  Every
round takes a token or a comma. -/
def scanTokensFrom : ℕ → GoString → List GoString
  | 0, _ => []
  | rounds + 1, bts =>
      match skipSpace bts with
      | [] => []
      | b :: bts =>
          if isTokenOctet b then
            (b :: bts.takeWhile isTokenOctet) ::
              scanTokensFrom rounds (bts.dropWhile isTokenOctet)
          else if b = 0x2C then scanTokensFrom rounds bts
          else []

def scanTokens (bts : GoString) : List GoString :=
  scanTokensFrom bts.length bts

def btsHasToken (header token : GoString) : Bool :=
  (scanTokens header).any fun v => equalFold v token

/-! ## Answers -/

inductive HandshakeError where
  | badProtocol
  | badMethod
  | badHost
  | badUpgrade
  | badConnection
  | badSecKey
  | badSecVersion
  /-- A version that is not 13. -/
  | upgradeRequired
  | malformedRequest
  deriving DecidableEq

namespace HandshakeError

def code : HandshakeError → ℕ
  | badProtocol => 505
  | badMethod => 405
  | upgradeRequired => 426
  | _ => 400

/-- `http.StatusText` of these codes. -/
def status : HandshakeError → GoString
  | badProtocol => ascii "HTTP Version Not Supported"
  | badMethod => ascii "Method Not Allowed"
  | upgradeRequired => ascii "Upgrade Required"
  | _ => ascii "Bad Request"

def badHeader (name : String) : GoString :=
  ascii "handshake error: bad \"" ++ ascii name ++ ascii "\" header"

def reason : HandshakeError → GoString
  | badProtocol => ascii "handshake error: bad HTTP protocol version"
  | badMethod => ascii "handshake error: bad HTTP request method"
  | badHost => badHeader "Host"
  | badUpgrade => badHeader "Upgrade"
  | badConnection => badHeader "Connection"
  | badSecKey => badHeader "Sec-WebSocket-Key"
  | badSecVersion | upgradeRequired => badHeader "Sec-WebSocket-Version"
  | malformedRequest => ascii "malformed HTTP request"

/-- The headers that an error brings. -/
def header : HandshakeError → GoString
  | upgradeRequired => ascii "Sec-WebSocket-Version: 13\r\n"
  | _ => []

/-- `httpWriteResponseError`. -/
def response (e : HandshakeError) : GoString :=
  ascii "HTTP/1.1 " ++ decimalText e.code ++ ascii " " ++ e.status ++
    ascii "\r\nContent-Type: text/plain; charset=utf-8\r\n" ++ e.header ++
    ascii "Content-Length: " ++ decimalText e.reason.length ++
    ascii "\r\n\r\n" ++ e.reason

end HandshakeError

/-- `base64.StdEncoding`. -/
def stdEncoding : Alphabet UInt8 where
  chars := ascii
    "ABCDEFGHIJKLMNOPQRSTUVWXYZabcdefghijklmnopqrstuvwxyz0123456789+/"
  length := by decide
  distinct := by decide +kernel

def stdEncode (bytes : List UInt8) : GoString :=
  stdEncoding.encode bytes ++ List.replicate ((3 - bytes.length % 3) % 3) 0x3D

def nonceSize : ℕ := 24

def initAcceptFromNonce (sha1 : List UInt8 → List UInt8) (nonce : GoString) :
    GoString :=
  stdEncode (sha1 (nonce ++ ascii "258EAFA5-E914-47DA-95CA-C5AB0DC85B11"))

def httpWriteResponseUpgrade (sha1 : List UInt8 → List UInt8)
    (nonce : GoString) : GoString :=
  ascii "HTTP/1.1 101 Switching Protocols\r\n" ++
    ascii "Upgrade: websocket\r\nConnection: Upgrade\r\n" ++
    ascii "Sec-WebSocket-Accept: " ++ initAcceptFromNonce sha1 nonce ++
    ascii "\r\n\r\n"

/-! ## The handshake -/

/-- Which headers have been seen, and the key. -/
structure Seen where
  host : Bool
  upgrade : Bool
  connection : Bool
  secVersion : Bool
  secKey : Bool
  nonce : GoString

def Seen.none : Seen where
  host := false
  upgrade := false
  connection := false
  secVersion := false
  secKey := false
  nonce := List.replicate nonceSize 0

/-- What a header adds, or what is wrong with it. -/
def Seen.next (seen : Seen) (k v : GoString) : Except HandshakeError Seen :=
  if k = ascii "Host" then .ok { seen with host := true }
  else if k = ascii "Upgrade" then
    if v = ascii "websocket" ∨ equalFold v (ascii "websocket") then
      .ok { seen with upgrade := true }
    else .error .badUpgrade
  else if k = ascii "Connection" then
    if v = ascii "Upgrade" ∨ btsHasToken v (ascii "upgrade") then
      .ok { seen with connection := true }
    else .error .badConnection
  else if k = ascii "Sec-Websocket-Version" then
    if v = ascii "13" then .ok { seen with secVersion := true }
    else .error .upgradeRequired
  else if k = ascii "Sec-Websocket-Key" then
    if v.length = nonceSize then
      .ok { seen with secKey := true, nonce := v }
    else .error .badSecKey
  else .ok seen

/-- What is missing at the end of the headers. -/
def Seen.missing (seen : Seen) : Option HandshakeError :=
  if !seen.host then some .badHost
  else if !seen.upgrade then some .badUpgrade
  else if !seen.connection then some .badConnection
  else if !seen.secVersion then some .badSecVersion
  else if !seen.secKey then some .badSecKey
  else Option.none

/-- A line of the head, which is not the blank one. -/
def Seen.line (seen : Seen) (line : GoString) : Except HandshakeError Seen :=
  match httpParseHeaderLine line with
  | Option.none => .error .malformedRequest
  | some (k, v) => seen.next k v

/-- The headers up to the blank line or the first error. -/
def readHeaders (seen : Seen) (br : Buffering UInt8) :
    Option (Except HandshakeError Seen × Buffering UInt8) :=
  match _ : br.readString readerSize 0x0A [] with
  | Option.none => Option.none
  | some (line, br') =>
      if cutLineEnd line = [] then some (.ok seen, br')
      else
        match seen.line (cutLineEnd line) with
        | .error e => some (.error e, br')
        | .ok seen => readHeaders seen br'
termination_by br.content.length
decreasing_by
  obtain ⟨before, -, -, whole⟩ := Buffering.content_of_readString
    (by assumption : br.readString readerSize 0x0A [] = some (line, br'))
  rw [whole, List.length_append, List.length_cons]
  omega

/-- The request line: a version that cannot be read ends the upgrade without
an answer. -/
def checkRequestLine (line : GoString) :
    Option (Except HandshakeError Unit) :=
  let (method, _, proto) := bsplit3 line 0x20
  (httpParseVersion proto).map fun (major, minor) =>
    if major ≠ 1 ∨ minor < 1 then .error .badProtocol
    else if method ≠ ascii "GET" then .error .badMethod
    else .ok ()

inductive Outcome where
  /-- The connection is closed without an answer. -/
  | failed
  | rejected (e : HandshakeError)
  | accepted (nonce : GoString)

def finish : Except HandshakeError Seen → Outcome
  | .error e => .rejected e
  | .ok seen =>
      match seen.missing with
      | some e => .rejected e
      | Option.none => .accepted seen.nonce

/-- `Upgrader.Upgrade` on a reader. -/
def upgradeFrom (br : Buffering UInt8) : Outcome × Buffering UInt8 :=
  match readLine br with
  | Option.none => (.failed, br)
  | some (rl, br) =>
      match checkRequestLine rl with
      | Option.none => (.failed, br)
      | some (.error e) => (.rejected e, br)
      | some (.ok ()) =>
          match readHeaders Seen.none br with
          | Option.none => (.failed, br)
          | some (read, br) => (finish read, br)

/-- What the reader of the upgrade has read ahead goes with it. -/
def upgrade (c : BufConn) : Outcome × BufConn :=
  let (outcome, br) := upgradeFrom ⟨[], c.r, c.conn⟩
  (outcome, ⟨br.wire, br.source⟩)

/-- What is written to the connection. -/
def Outcome.response (sha1 : List UInt8 → List UInt8) : Outcome → GoString
  | failed => []
  | rejected e => e.response
  | accepted nonce => httpWriteResponseUpgrade sha1 nonce

/-! ## What a handshake takes -/

/-- A header that is as a handshake has it. -/
structure Fits (k v : GoString) : Prop where
  upgrade : k = ascii "Upgrade" →
    v = ascii "websocket" ∨ equalFold v (ascii "websocket") = true
  connection : k = ascii "Connection" →
    v = ascii "Upgrade" ∨ btsHasToken v (ascii "upgrade") = true
  secVersion : k = ascii "Sec-Websocket-Version" → v = ascii "13"
  secKey : k = ascii "Sec-Websocket-Key" → v.length = nonceSize

/-- The header is taken down. -/
def Seen.note (seen : Seen) (k v : GoString) : Seen where
  host := seen.host || k = ascii "Host"
  upgrade := seen.upgrade || k = ascii "Upgrade"
  connection := seen.connection || k = ascii "Connection"
  secVersion := seen.secVersion || k = ascii "Sec-Websocket-Version"
  secKey := seen.secKey || k = ascii "Sec-Websocket-Key"
  nonce := if k = ascii "Sec-Websocket-Key" then v else seen.nonce

/-- The five names differ. -/
theorem keys_apart :
    (ascii "Host" ≠ ascii "Upgrade" ∧ ascii "Host" ≠ ascii "Connection" ∧
      ascii "Host" ≠ ascii "Sec-Websocket-Version" ∧
      ascii "Host" ≠ ascii "Sec-Websocket-Key") ∧
    (ascii "Upgrade" ≠ ascii "Connection" ∧
      ascii "Upgrade" ≠ ascii "Sec-Websocket-Version" ∧
      ascii "Upgrade" ≠ ascii "Sec-Websocket-Key") ∧
    (ascii "Connection" ≠ ascii "Sec-Websocket-Version" ∧
      ascii "Connection" ≠ ascii "Sec-Websocket-Key") ∧
    ascii "Sec-Websocket-Version" ≠ ascii "Sec-Websocket-Key" := by
  decide

theorem Seen.next_of_fits
    {k v : GoString}
    (fits : Fits k v)
    (seen : Seen) :
    seen.next k v = .ok (seen.note k v) := by
  obtain ⟨upgrade, connection, secVersion, secKey⟩ := fits
  obtain ⟨⟨hu, hc, hv, hk⟩, ⟨uc, uv, uk⟩, ⟨cv, ck⟩, vk⟩ := keys_apart
  unfold next note
  generalize ascii "Host" = hostKey at *
  generalize ascii "Upgrade" = upgradeKey at *
  generalize ascii "Connection" = connectionKey at *
  generalize ascii "Sec-Websocket-Version" = versionKey at *
  generalize ascii "Sec-Websocket-Key" = nonceKey at *
  by_cases isHost : k = hostKey
  · simp [isHost, hu, hc, hv, hk]
  by_cases isUpgrade : k = upgradeKey
  · simp only [isUpgrade, hu.symm, uc, uv, uk, if_true, if_false,
      if_pos (upgrade isUpgrade), decide_true, decide_false, Bool.or_true,
      Bool.or_false]
  by_cases isConnection : k = connectionKey
  · simp only [isConnection, hc.symm, uc.symm, cv, ck, if_true, if_false,
      if_pos (connection isConnection), decide_true, decide_false,
      Bool.or_true, Bool.or_false]
  by_cases isVersion : k = versionKey
  · simp only [isVersion, hv.symm, uv.symm, cv.symm, vk, if_true, if_false,
      if_pos (secVersion isVersion), decide_true, decide_false, Bool.or_true,
      Bool.or_false]
  by_cases isKey : k = nonceKey
  · simp only [isKey, hk.symm, uk.symm, ck.symm, vk.symm, if_true, if_false,
      if_pos (secKey isKey), decide_true, decide_false, Bool.or_true,
      Bool.or_false]
  simp only [isHost, isUpgrade, isConnection, isVersion, isKey, if_false,
    decide_false, Bool.or_false]

theorem Seen.fits_of_next
    {seen seen' : Seen}
    {k v : GoString}
    (next : seen.next k v = .ok seen') :
    Fits k v := by
  obtain ⟨⟨hu, hc, hv, hk⟩, ⟨uc, uv, uk⟩, ⟨cv, ck⟩, vk⟩ := keys_apart
  unfold Seen.next at next
  constructor
  · rintro rfl
    rw [if_neg hu.symm, if_pos rfl] at next
    by_contra misfit
    rw [if_neg misfit] at next
    cases next
  · rintro rfl
    rw [if_neg hc.symm, if_neg uc.symm, if_pos rfl] at next
    by_contra misfit
    rw [if_neg misfit] at next
    cases next
  · rintro rfl
    rw [if_neg hv.symm, if_neg uv.symm, if_neg cv.symm, if_pos rfl] at next
    by_contra misfit
    rw [if_neg misfit] at next
    cases next
  · rintro rfl
    rw [if_neg hk.symm, if_neg uk.symm, if_neg ck.symm, if_neg vk.symm,
      if_pos rfl] at next
    by_contra misfit
    rw [if_neg misfit] at next
    cases next

/-! ## Reading behind the relay -/

/-- What the lines of headers come to, and the one behind them. -/
def Seen.block (seen : Seen) (lines : List GoString) (last : GoString) :
    Except HandshakeError Seen := do
  let seen ← lines.foldlM (fun seen line => seen.line (cutLineEnd line)) seen
  if cutLineEnd last = [] then pure seen else throw .malformedRequest

theorem readHeaders_of_readString {seen : Seen} {line : GoString}
    {br br' : Buffering UInt8}
    (read : br.readString readerSize 0x0A [] = some (line, br')) :
    readHeaders seen br =
      if cutLineEnd line = [] then some (.ok seen, br')
      else
        match seen.line (cutLineEnd line) with
        | .error e => some (.error e, br')
        | .ok seen => readHeaders seen br' := by
  rw [readHeaders]
  split
  · rename_i none_
    rw [none_] at read
    cases read
  · rename_i line' br'' same
    rw [same, Option.some.injEq, Prod.mk.injEq] at read
    obtain ⟨rfl, rfl⟩ := read
    rfl

/-- A line of the head that is replayed. -/
theorem readString_replayed {line : GoString} (left : GoString)
    (ended : IsLine line) {br : Buffering UInt8} {first : GoString}
    {source : Source UInt8}
    (multi : br.source = .multi first source)
    (whole : br.buffered ++ first = line ++ left) :
    ∃ buffered first', br.readString readerSize 0x0A [] =
        some (line, ⟨buffered, .multi first' source, br.wire⟩) ∧
      buffered ++ first' = left := by
  obtain ⟨body, apart, rfl⟩ := ended
  rw [List.append_assoc, List.singleton_append] at whole
  exact Buffering.readString_multi multi apart whole

/-- Line ends alone are no header. -/
theorem httpParseHeaderLine_blank {last : GoString}
    (empty : trimLineEnd last = []) :
    httpParseHeaderLine (cutLineEnd last) = none := by
  unfold trimLineEnd at empty
  rw [List.rdropWhile_eq_nil_iff] at empty
  have colon : (0x3A : UInt8) ∉ cutLineEnd last := by
    intro member
    have inside : (0x3A : UInt8) ∈ last := by
      unfold cutLineEnd at member
      dsimp only at member
      split at member
      · exact List.mem_of_mem_dropLast (List.mem_of_mem_dropLast member)
      · exact List.mem_of_mem_dropLast member
    exact absurd (empty _ inside) (by decide)
  unfold httpParseHeaderLine
  rw [Option.map_eq_none_iff, Option.eq_none_iff_forall_ne_some]
  intro parts split
  obtain ⟨whole, -⟩ := splitOnce_inv split
  rw [whole] at colon
  exact colon (by simp)

/-- The block is read as its lines come, and nothing of the reader behind it
is read. -/
theorem readHeaders_block
    {lines : List GoString}
    {last : GoString}
    (lastEnded : IsLine last)
    (ended : ∀ line ∈ lines, IsLine line)
    (full : ∀ line ∈ lines, cutLineEnd line ≠ [])
    (empty : trimLineEnd last = [])
    (seen : Seen)
    {br : Buffering UInt8}
    {first : GoString}
    {source : Source UInt8}
    (multi : br.source = .multi first source)
    (whole : br.buffered ++ first = lines.flatten ++ last) :
    ∃ br', readHeaders seen br = some (seen.block lines last, br') ∧
      ((seen.block lines last).isOk = true →
        br' = ⟨[], .multi [] source, br.wire⟩) := by
  induction lines generalizing seen br first with
  | nil =>
      obtain ⟨buffered, first', read, left⟩ := readString_replayed []
        lastEnded multi (by simpa using whole)
      rw [readHeaders_of_readString read]
      obtain ⟨rfl, rfl⟩ := List.append_eq_nil_iff.mp left
      by_cases blank : cutLineEnd last = []
      · refine ⟨_, ?_, fun _ => rfl⟩
        simp [Seen.block, blank]
        rfl
      · have bad : seen.line (cutLineEnd last) =
            .error .malformedRequest := by
          unfold Seen.line
          rw [httpParseHeaderLine_blank empty]
        have block : seen.block [] last = .error .malformedRequest := by
          unfold Seen.block
          rw [List.foldlM_nil, pure_bind, if_neg blank]
          rfl
        rw [if_neg blank, bad, block]
        exact ⟨_, rfl, fun ok => by cases ok⟩
  | cons line lines induction =>
      obtain ⟨lineEnded, ended⟩ := List.forall_mem_cons.mp ended
      obtain ⟨content, full⟩ := List.forall_mem_cons.mp full
      rw [List.flatten_cons, List.append_assoc] at whole
      obtain ⟨buffered, first', read, left⟩ :=
        readString_replayed _ lineEnded multi whole
      rw [readHeaders_of_readString read, if_neg content]
      have step : seen.block (line :: lines) last =
          (seen.line (cutLineEnd line)) >>= fun seen =>
            seen.block lines last := by
        unfold Seen.block
        rw [List.foldlM_cons, bind_assoc]
      rw [step]
      cases seen.line (cutLineEnd line) with
      | error e => exact ⟨_, rfl, fun ok => by cases ok⟩
      | ok seen => exact induction ended full seen rfl left

/-! ## What has been seen -/

/-- The headers of a list of lines. -/
def parseFields (lines : List GoString) :
    Option (List (GoString × GoString)) :=
  lines.mapM fun line => httpParseHeaderLine (cutLineEnd line)

def Seen.notes (seen : Seen) (fields : List (GoString × GoString)) : Seen :=
  fields.foldl (fun seen field => seen.note field.1 field.2) seen

/-- A block is taken down if all of it is as a handshake has it. -/
theorem Seen.block_eq_ok {lines : List GoString} {last : GoString}
    {seen seen' : Seen} :
    seen.block lines last = .ok seen' ↔
      cutLineEnd last = [] ∧ ∃ fields, parseFields lines = some fields ∧
        (∀ field ∈ fields, Fits field.1 field.2) ∧
        seen' = seen.notes fields := by
  induction lines generalizing seen with
  | nil =>
      unfold block
      rw [List.foldlM_nil, pure_bind]
      by_cases blank : cutLineEnd last = []
      · rw [if_pos blank]
        constructor
        · intro same
          exact ⟨blank, [], rfl, by simp, (Except.ok.inj same).symm⟩
        · rintro ⟨-, fields, parsed, -, rfl⟩
          obtain rfl := Option.some.inj parsed
          rfl
      · rw [if_neg blank]
        constructor
        · intro same
          cases same
        · rintro ⟨ended, -⟩
          exact absurd ended blank
  | cons line lines induction =>
      have step : seen.block (line :: lines) last =
          (seen.line (cutLineEnd line)) >>= fun seen =>
            seen.block lines last := by
        unfold block
        rw [List.foldlM_cons, bind_assoc]
      have parse : parseFields (line :: lines) =
          (httpParseHeaderLine (cutLineEnd line)).bind fun field =>
            (parseFields lines).map (field :: ·) := by
        unfold parseFields
        rw [List.mapM_cons]
        cases httpParseHeaderLine (cutLineEnd line) with
        | none => rfl
        | some field =>
            cases lines.mapM fun line =>
                httpParseHeaderLine (cutLineEnd line) with
            | none => rfl
            | some fields => rfl
      rw [step, parse]
      unfold Seen.line
      cases httpParseHeaderLine (cutLineEnd line) with
      | none =>
          constructor
          · intro same
            cases same
          · rintro ⟨-, fields, parsed, -⟩
            cases parsed
      | some field =>
          obtain ⟨k, v⟩ := field
          dsimp only [Option.bind_some]
          constructor
          · intro same
            cases next : seen.next k v with
            | error e =>
                rw [next] at same
                cases same
            | ok noted =>
                have fits := Seen.fits_of_next next
                rw [Seen.next_of_fits fits] at same
                obtain ⟨blank, fields, parsed, allFit, rfl⟩ :=
                  induction.mp same
                refine ⟨blank, (k, v) :: fields, ?_, ?_, rfl⟩
                · rw [parsed]
                  rfl
                · exact List.forall_mem_cons.mpr ⟨fits, allFit⟩
          · rintro ⟨blank, all, parsed, allFit, rfl⟩
            obtain ⟨fields, later, rfl⟩ := Option.map_eq_some_iff.mp parsed
            obtain ⟨fits, allFit⟩ := List.forall_mem_cons.mp allFit
            rw [Seen.next_of_fits fits]
            exact induction.mpr ⟨blank, fields, later, allFit, rfl⟩

/-- There is a header with the name. -/
def Has (fields : List (GoString × GoString)) (key : GoString) : Prop :=
  key ∈ fields.map Prod.fst

/-- The value of the last header with the name. -/
def lastValue (fields : List (GoString × GoString)) (key : GoString) :
    Option GoString :=
  (fields.filter fun field => field.1 = key).getLast?.map Prod.snd

/-- A flag that each header with a name sets. -/
theorem Seen.notes_flag
    {flag : Seen → Bool}
    {key : GoString}
    (sets : ∀ (seen : Seen) k v,
      flag (seen.note k v) = (flag seen || decide (k = key)))
    (fields : List (GoString × GoString))
    (seen : Seen) :
    flag (seen.notes fields) = true ↔ flag seen = true ∨ Has fields key := by
  unfold Has
  induction fields generalizing seen with
  | nil => simp [notes]
  | cons field fields induction =>
      have next : seen.notes (field :: fields) =
          (seen.note field.1 field.2).notes fields := rfl
      rw [next, induction, sets, Bool.or_eq_true, decide_eq_true_eq,
        List.map_cons, List.mem_cons, or_assoc, eq_comm (a := field.1)]

theorem Seen.notes_nonce (fields : List (GoString × GoString)) (seen : Seen) :
    (seen.notes fields).nonce =
      (lastValue fields (ascii "Sec-Websocket-Key")).getD seen.nonce := by
  induction fields using List.reverseRecOn with
  | nil => rfl
  | append_singleton fields field induction =>
      have next : seen.notes (fields ++ [field]) =
          (seen.notes fields).note field.1 field.2 := by
        unfold notes
        rw [List.foldl_append]
        rfl
      rw [next]
      unfold note lastValue
      unfold lastValue at induction
      dsimp only
      rw [induction, List.filter_append]
      by_cases isKey : field.1 = ascii "Sec-Websocket-Key"
      · simp only [if_pos isKey, List.filter_cons, List.filter_nil]
        simp [isKey]
      · simp only [if_neg isKey, List.filter_cons, List.filter_nil]
        simp [isKey]

/-- The headers that a handshake has. -/
def handshakeKeys : List GoString :=
  [ascii "Host", ascii "Upgrade", ascii "Connection",
    ascii "Sec-Websocket-Version", ascii "Sec-Websocket-Key"]

theorem Seen.missing_eq_none (seen : Seen) :
    seen.missing = Option.none ↔
      seen.host = true ∧ seen.upgrade = true ∧ seen.connection = true ∧
        seen.secVersion = true ∧ seen.secKey = true := by
  obtain ⟨host, upgrade, connection, secVersion, secKey, nonce⟩ := seen
  cases host <;> cases upgrade <;> cases connection <;> cases secVersion <;>
    cases secKey <;> simp [missing]

theorem Seen.missing_notes (fields : List (GoString × GoString)) :
    (none.notes fields).missing = Option.none ↔
      ∀ key ∈ handshakeKeys, Has fields key := by
  have noted : ∀ (flag : Seen → Bool) {key : GoString},
      (∀ (seen : Seen) k v,
        flag (seen.note k v) = (flag seen || decide (k = key))) →
      flag none = false →
      (flag (none.notes fields) = true ↔ Has fields key) := by
    intro flag key sets unset
    rw [notes_flag sets, unset]
    simp
  rw [missing_eq_none, noted host (fun _ _ _ => rfl) rfl,
    noted upgrade (fun _ _ _ => rfl) rfl,
    noted connection (fun _ _ _ => rfl) rfl,
    noted secVersion (fun _ _ _ => rfl) rfl,
    noted secKey (fun _ _ _ => rfl) rfl]
  simp only [handshakeKeys, List.forall_mem_cons, List.not_mem_nil,
    false_imp_iff, implies_true, and_true]

/-! ## The handshake that is taken -/

/-- What makes the head of a request a handshake, and its nonce. -/
structure IsHandshake (head : HeadLines) (nonce : GoString) : Prop where
  request : ∃ uri proto minor,
    bsplit3 (cutLineEnd head.reqLine) 0x20 = (ascii "GET", uri, proto) ∧
    httpParseVersion proto = some (1, minor) ∧ 1 ≤ minor
  headers : ∃ fields, parseFields head.lines = some fields ∧
    (∀ field ∈ fields, Fits field.1 field.2) ∧
    (∀ key ∈ handshakeKeys, Has fields key) ∧
    lastValue fields (ascii "Sec-Websocket-Key") = some nonce
  blank : cutLineEnd head.last = []

theorem checkRequestLine_eq_ok {line : GoString} :
    checkRequestLine line = some (.ok ()) ↔
      ∃ uri proto minor,
        bsplit3 line 0x20 = (ascii "GET", uri, proto) ∧
        httpParseVersion proto = some (1, minor) ∧ 1 ≤ minor := by
  unfold checkRequestLine
  obtain ⟨method, uri, proto⟩ := bsplit3 line 0x20
  constructor
  · intro good
    obtain ⟨⟨major, minor⟩, version, good⟩ := Option.map_eq_some_iff.mp good
    dsimp only at good
    by_cases bad : major ≠ 1 ∨ minor < 1
    · rw [if_pos bad] at good
      cases good
    · rw [if_neg bad] at good
      by_cases other : method ≠ ascii "GET"
      · rw [if_pos other] at good
        cases good
      · rw [not_or, not_not, Int64.not_lt] at bad
        rw [bad.1] at version
        exact ⟨uri, proto, minor, by rw [not_not.mp other], version, bad.2⟩
  · rintro ⟨uri', proto', minor, same, version, least⟩
    obtain ⟨rfl, others⟩ := Prod.mk.inj same
    obtain ⟨rfl, rfl⟩ := Prod.mk.inj others
    have fine : ¬((1 : Int64) ≠ 1 ∨ minor < 1) := by
      rw [not_or, not_not, Int64.not_lt]
      exact ⟨rfl, least⟩
    dsimp only
    rw [version, Option.map_some]
    dsimp only
    rw [if_neg fine, if_neg (not_not.mpr rfl)]

theorem checkRequestLine_eq_none {line : GoString} :
    checkRequestLine line = none ↔
      httpParseVersion (bsplit3 line 0x20).2.2 = none := by
  unfold checkRequestLine
  exact Option.map_eq_none_iff

/-- The blank line is the first one without content. -/
theorem cutLineEnd_of_trimLineEnd {line : GoString} (ended : IsLine line)
    (content : trimLineEnd line ≠ []) : cutLineEnd line ≠ [] := by
  obtain ⟨body, -, rfl⟩ := ended
  unfold trimLineEnd at content
  rw [List.rdropWhile_concat_pos _ _ _ rfl] at content
  unfold cutLineEnd
  dsimp only
  rw [List.dropLast_concat]
  split
  · rename_i last
    obtain ⟨init, rfl⟩ := List.getLast?_eq_some_iff.mp last
    rw [List.rdropWhile_concat_pos _ _ _ rfl] at content
    rw [List.dropLast_concat]
    rintro rfl
    exact content rfl
  · rintro rfl
    exact content rfl

/-! ## Refusals -/

/-- The fields that an error brings. -/
def HandshakeError.fields : HandshakeError → List (GoString × GoString)
  | upgradeRequired => [(ascii "Sec-WebSocket-Version", ascii "13")]
  | _ => []

theorem HandshakeError.declares (e : HandshakeError) :
    Declares e.response e.reason e.reason.length := by
  have header : e.header = (e.fields.map fieldLine).flatten := by
    cases e <;> rfl
  have first : ascii "\r\nContent-Type: text/plain; charset=utf-8\r\n" =
      ascii "\r\n" ++ fieldLine
        (ascii "Content-Type", ascii "text/plain; charset=utf-8") := rfl
  have length : ascii "Content-Length: " =
      ascii "Content-Length" ++ ascii ": " := rfl
  have last : ascii "\r\n\r\n" = ascii "\r\n" ++ ascii "\r\n" := rfl
  have whole : e.response =
      headBytes (ascii "HTTP/1.1 " ++ decimalText e.code ++ ascii " " ++
          e.status)
        ((ascii "Content-Type", ascii "text/plain; charset=utf-8") ::
          e.fields ++ (ascii "Content-Length", decimalText e.reason.length)
            :: []) ++ e.reason := by
    unfold response headBytes
    rw [header, first, length, last]
    simp [fieldLine]
  rw [whole]
  apply declares_headBytes
  · cases e <;> decide +kernel
  · intro field member
    rcases List.mem_cons.mp member with rfl | own
    · exact ⟨rfl, by decide⟩
    · cases e with
      | upgradeRequired =>
          obtain rfl := List.mem_singleton.mp own
          exact ⟨rfl, by decide⟩
      | _ => cases own
  · intro field member
    cases member

/-! ## What the relay hands over -/

theorem finish_eq_accepted {read : Except HandshakeError Seen}
    {nonce : GoString} :
    finish read = .accepted nonce ↔
      ∃ seen, read = .ok seen ∧ seen.missing = none ∧ seen.nonce = nonce := by
  cases read with
  | error e =>
      constructor
      · intro accepted
        cases accepted
      · rintro ⟨seen, same, -⟩
        cases same
  | ok seen =>
      unfold finish
      dsimp only
      cases missing : seen.missing with
      | some e =>
          constructor
          · intro accepted
            cases accepted
          · rintro ⟨seen', same, none_, -⟩
            obtain rfl := Except.ok.inj same
            rw [missing] at none_
            cases none_
      | none =>
          constructor
          · intro accepted
            exact ⟨seen, rfl, missing, Outcome.accepted.inj accepted⟩
          · rintro ⟨seen', same, -, rfl⟩
            obtain rfl := Except.ok.inj same
            rfl

/-- The block of a head is taken with a nonce if it is the block of a
handshake. -/
theorem finish_block {lines : List GoString} {last nonce : GoString} :
    finish (Seen.none.block lines last) = .accepted nonce ↔
      cutLineEnd last = [] ∧ ∃ fields, parseFields lines = some fields ∧
        (∀ field ∈ fields, Fits field.1 field.2) ∧
        (∀ key ∈ handshakeKeys, Has fields key) ∧
        lastValue fields (ascii "Sec-Websocket-Key") = some nonce := by
  rw [finish_eq_accepted]
  constructor
  · rintro ⟨seen, read, missing, rfl⟩
    obtain ⟨blank, fields, parsed, fit, rfl⟩ := Seen.block_eq_ok.mp read
    have keys := (Seen.missing_notes fields).mp missing
    refine ⟨blank, fields, parsed, fit, keys, ?_⟩
    have has : Has fields (ascii "Sec-Websocket-Key") :=
      keys _ (by simp [handshakeKeys])
    obtain ⟨field, member, key⟩ := List.mem_map.mp has
    have found : (lastValue fields (ascii "Sec-Websocket-Key")).isSome := by
      unfold lastValue
      rw [Option.isSome_map, List.getLast?_isSome]
      exact List.ne_nil_of_mem
        (List.mem_filter.mpr ⟨member, by simpa using key⟩)
    obtain ⟨v, same⟩ := Option.isSome_iff_exists.mp found
    rw [Seen.notes_nonce, same]
    rfl
  · rintro ⟨blank, fields, parsed, fit, keys, nonce⟩
    refine ⟨Seen.none.notes fields,
      Seen.block_eq_ok.mpr ⟨blank, fields, parsed, fit, rfl⟩,
      (Seen.missing_notes fields).mpr keys, ?_⟩
    rw [Seen.notes_nonce, nonce]
    rfl

/-- What the replayed head comes to, and what is left of the connection. -/
theorem upgrade_replayed
    {head : HeadLines}
    {c : BufConn}
    {source : Source UInt8}
    (multi : c.r = .multi head.bytes source) :
    (upgrade c).1 =
        (match checkRequestLine (cutLineEnd head.reqLine) with
          | none => .failed
          | some (.error e) => .rejected e
          | some (.ok ()) => finish (Seen.none.block head.lines head.last)) ∧
      ∀ nonce, (upgrade c).1 = .accepted nonce →
        (upgrade c).2 = ⟨c.conn, .multi [] source⟩ := by
  obtain ⟨reqEnded, ended⟩ := List.forall_mem_cons.mp head.ended
  obtain ⟨lastEnded, ended⟩ := List.forall_mem_cons.mp ended
  have full : ∀ line ∈ head.lines, cutLineEnd line ≠ [] := by
    intro line member
    exact cutLineEnd_of_trimLineEnd (ended line member)
      (head.full line member)
  obtain ⟨buffered, first, read, left⟩ := readString_replayed
    (head.lines.flatten ++ head.last) reqEnded
    (show (⟨[], c.r, c.conn⟩ : Buffering UInt8).source = _ from multi) rfl
  have line : readLine ⟨[], c.r, c.conn⟩ = some (cutLineEnd head.reqLine,
      ⟨buffered, .multi first source, c.conn⟩) := by
    unfold readLine
    rw [read]
    rfl
  obtain ⟨br, headers, kept⟩ := readHeaders_block lastEnded ended full
    head.empty Seen.none
    (show (⟨buffered, .multi first source, c.conn⟩ : Buffering UInt8).source =
      _ from rfl) left
  unfold upgrade upgradeFrom
  rw [line]
  dsimp only
  cases checkRequestLine (cutLineEnd head.reqLine) with
  | none =>
      refine ⟨rfl, fun nonce accepted => ?_⟩
      cases accepted
  | some checked =>
      cases checked with
      | error e =>
          refine ⟨rfl, fun nonce accepted => ?_⟩
          cases accepted
      | ok =>
          dsimp only
          rw [headers]
          refine ⟨rfl, fun nonce accepted => ?_⟩
          obtain ⟨seen, ok, -⟩ := finish_eq_accepted.mp accepted
          have same := kept (by rw [ok]; rfl)
          dsimp only
          rw [same]

theorem replayRequest_multi (c : BufConn) (raw : GoString) :
    ∃ source, c.replayRequest raw = ⟨c.conn, .multi raw source⟩ := by
  unfold BufConn.replayRequest
  split
  · exact ⟨_, rfl⟩
  · exact ⟨_, rfl⟩

/-- Whatever head the relay has read, however it came in pieces, and whatever
has come behind it: the upgrade takes the handshakes and no others, with the
last key there is.  Behind one that is taken the connection still holds all
the bytes that followed the head, in whichever of the three buffers they were;
and what is refused gets an answer that says how long it is, unless the
protocol cannot be read. -/
theorem handshake_hands_over {network : Wire UInt8} {head : HeadLines}
    {rest : GoString} (stream : network.content = head.bytes ++ rest) :
    ∃ parsed c, (BufConn.newBufConn network).readHTTPHeaders =
        some (parsed, c) ∧
      (∀ nonce, (upgrade (c.replayRequest parsed.raw)).1 = .accepted nonce →
        (upgrade (c.replayRequest parsed.raw)).2.content = rest) ∧
      (∀ nonce, (upgrade (c.replayRequest parsed.raw)).1 = .accepted nonce ↔
        IsHandshake head nonce) ∧
      (∀ e, (upgrade (c.replayRequest parsed.raw)).1 = .rejected e →
        Declares e.response e.reason e.reason.length) ∧
      ((upgrade (c.replayRequest parsed.raw)).1 = .failed ↔
        httpParseVersion (bsplit3 (cutLineEnd head.reqLine) 0x20).2.2 =
          none) := by
  obtain ⟨headers, c, read, -, whole⟩ := BufConn.readHTTPHeaders_head stream
  refine ⟨_, c, read, ?_⟩
  dsimp only
  obtain ⟨source, replayed⟩ := replayRequest_multi c head.bytes
  obtain ⟨outcome, left⟩ :=
    upgrade_replayed (c := c.replayRequest head.bytes) (by rw [replayed])
  refine ⟨?_, ?_, fun e _ => e.declares, ?_⟩
  · intro nonce accepted
    rw [replayed] at whole left accepted ⊢
    rw [left nonce accepted]
    have content : head.bytes ++ source.held ++ c.conn.content =
        head.bytes ++ rest := whole
    rw [List.append_assoc] at content
    exact List.append_cancel_left content
  · intro nonce
    rw [outcome]
    constructor
    · intro accepted
      cases checked : checkRequestLine (cutLineEnd head.reqLine) with
      | none =>
          rw [checked] at accepted
          cases accepted
      | some result =>
          rw [checked] at accepted
          cases result with
          | error e => cases accepted
          | ok =>
              obtain ⟨blank, headers⟩ := finish_block.mp accepted
              exact ⟨checkRequestLine_eq_ok.mp checked, headers, blank⟩
    · rintro ⟨request, headers, blank⟩
      rw [checkRequestLine_eq_ok.mpr request]
      exact finish_block.mpr ⟨blank, headers⟩
  · rw [outcome, ← checkRequestLine_eq_none]
    constructor
    · intro failed
      cases checked : checkRequestLine (cutLineEnd head.reqLine) with
      | none => rfl
      | some result =>
          rw [checked] at failed
          cases result with
          | error e => cases failed
          | ok =>
              dsimp only at failed
              unfold finish at failed
              split at failed
              · cases failed
              · split at failed <;> cases failed
    · intro unread
      rw [unread]

theorem trimLineEnd_crlf : trimLineEnd (ascii "\r\n") = [] := by
  decide

/-- A request of a browser. -/
def handshakeHead : HeadLines where
  reqLine := ascii "GET /bucket/abcd HTTP/1.1\r\n"
  lines := [ascii "Host: x\r\n", ascii "Upgrade: websocket\r\n",
    ascii "Connection: Upgrade\r\n", ascii "Sec-WebSocket-Version: 13\r\n",
    ascii "Sec-WebSocket-Key: AAAAAAAAAAAAAAAAAAAAAA==\r\n"]
  last := ascii "\r\n"
  ended := by
    intro line member
    refine ⟨line.dropLast, ?_⟩
    revert line
    decide +kernel
  full := by decide +kernel
  empty := trimLineEnd_crlf

/-- The frame behind the head comes with its end. -/
def handshakeNetwork : Wire UInt8 :=
  [⟨handshakeHead.bytes ++ [0x81], by decide⟩, ⟨[0x80], by decide⟩]

theorem handshake_hands_over_frame :
    ∃ parsed c, (BufConn.newBufConn handshakeNetwork).readHTTPHeaders =
        some (parsed, c) ∧
      (upgrade (c.replayRequest parsed.raw)).1 =
        .accepted (ascii "AAAAAAAAAAAAAAAAAAAAAA==") ∧
      (upgrade (c.replayRequest parsed.raw)).2.content = [0x81, 0x80] := by
  have stream : handshakeNetwork.content =
      handshakeHead.bytes ++ [0x81, 0x80] := by
    decide +kernel
  obtain ⟨parsed, c, read, left, accepts, -, -⟩ := handshake_hands_over stream
  have taken : IsHandshake handshakeHead
      (ascii "AAAAAAAAAAAAAAAAAAAAAA==") := by
    refine ⟨⟨ascii "/bucket/abcd", ascii "HTTP/1.1", 1, by decide +kernel,
      by decide +kernel, by decide⟩, ?_, by decide⟩
    refine ⟨[(ascii "Host", ascii "x"),
      (ascii "Upgrade", ascii "websocket"),
      (ascii "Connection", ascii "Upgrade"),
      (ascii "Sec-Websocket-Version", ascii "13"),
      (ascii "Sec-Websocket-Key", ascii "AAAAAAAAAAAAAAAAAAAAAA==")],
      by decide +kernel, ?_, ?_, by decide +kernel⟩
    · intro field member
      simp only [List.mem_cons, List.not_mem_nil, or_false] at member
      rcases member with rfl | rfl | rfl | rfl | rfl
      all_goals
        exact Seen.fits_of_next (show Seen.none.next _ _ = .ok _ from rfl)
    · unfold Has
      decide +kernel
  have accepted := (accepts _).mpr taken
  exact ⟨parsed, c, read, accepted, left _ accepted⟩

end Byteln.Server.WebSocket

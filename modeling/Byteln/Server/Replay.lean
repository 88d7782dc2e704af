import Byteln.Library.Buffering
import Byteln.Server.ClientIP

/-!
# Replaying a request

The relay reads the head of a request through a buffer, which may then hold
bytes of the stream behind it, and puts the head back in front of this buffer
for the upgrade.
-/

namespace Byteln.Server

open Byteln.Library

/-! ## The wrapped connection -/

/-- The size of every `bufio.Reader`. -/
def readerSize : ℕ :=
  4096

instance : NeZero readerSize :=
  ⟨by decide⟩

/-- A connection with a replaceable reader (for request replay). -/
structure BufConn where
  conn : Wire UInt8
  r : Source UInt8

namespace BufConn

def newBufConn (c : Wire UInt8) : BufConn :=
  ⟨c, .buffer [] .wire⟩

/-- A read of at most so many bytes; nothing is returned at the end. -/
def read (c : BufConn) (limit : ℕ) : Option GoString × BufConn :=
  let next := c.r.read readerSize limit c.conn
  (next.items, ⟨next.wire, next.source⟩)

/-- The bytes of a series of reads. -/
def reads (c : BufConn) (limits : List ℕ) : GoString × BufConn :=
  let all := c.r.readAll readerSize limits c.conn
  (all.items.getD [], ⟨all.wire, all.source⟩)

/-- What is still to be read. -/
def content (c : BufConn) : GoString :=
  c.r.content c.conn

/-- The buffering reader of the connection, made when it has none. -/
def reader (c : BufConn) : Buffering UInt8 :=
  match c.r with
  | .buffer buffered source => ⟨buffered, source, c.conn⟩
  | r => ⟨[], r, c.conn⟩

end BufConn

/-! ## Reading the head -/

/-- The lines up to the first empty one, behind the bytes read before. -/
def readHeaderLines (buf : GoString) (headers : Headers)
    (b : Buffering UInt8) : Option ((GoString × Headers) × Buffering UInt8) :=
  match _ : b.readString readerSize 0x0A [] with
  | none => none
  | some (h, b') =>
      let hTrim := trimLineEnd h
      if hTrim = [] then some ((buf ++ h, headers), b')
      else
        match headerLine hTrim with
        | none => readHeaderLines (buf ++ h) headers b'
        | some (k, v) =>
            readHeaderLines (buf ++ h) (Function.update headers k v) b'
termination_by b.content.length
decreasing_by
  all_goals
    obtain ⟨before, -, -, whole⟩ := Buffering.content_of_readString
      (by assumption : b.readString readerSize 0x0A [] = some (h, b'))
    rw [whole, List.length_append, List.length_cons]
    omega

/-- The head of a request, as it came and as it is understood. -/
structure RequestHead where
  raw : GoString
  reqLine : GoString
  headers : Headers

namespace BufConn

/-- Reads the request line + headers, returning the raw bytes so the caller
can replay them into an upgrader. -/
def readHTTPHeaders (c : BufConn) : Option (RequestHead × BufConn) :=
  match c.reader.readString readerSize 0x0A [] with
  | none => none
  | some (line, b) =>
      match readHeaderLines line (fun _ => []) b with
      | none => none
      | some ((raw, headers), b') =>
          some (⟨raw, trimLineEnd line, headers⟩,
            ⟨b'.wire, .buffer b'.buffered b'.source⟩)

def replayRequest (c : BufConn) (raw : GoString) : BufConn :=
  match c.r with
  | .buffer buffered source =>
      ⟨c.conn, .multi raw (.buffer buffered source)⟩
  | _ => ⟨c.conn, .multi raw .wire⟩

end BufConn

/-! ## The head of a stream -/

/-- A line with its end. -/
def IsLine (line : GoString) : Prop :=
  ∃ body, 0x0A ∉ body ∧ line = body ++ [0x0A]

/-- A request line and a header block that is ended by an empty line. -/
structure HeadLines where
  reqLine : GoString
  lines : List GoString
  last : GoString
  ended : ∀ line ∈ reqLine :: last :: lines, IsLine line
  full : ∀ line ∈ lines, trimLineEnd line ≠ []
  empty : trimLineEnd last = []

def HeadLines.bytes (head : HeadLines) : GoString :=
  head.reqLine ++ (head.lines.flatten ++ head.last)

theorem readString_line {line rest : GoString} (ended : IsLine line)
    {b : Buffering UInt8} (whole : b.content = line ++ rest) :
    ∃ b', b.readString readerSize 0x0A [] = some (line, b') ∧
      b'.content = rest := by
  obtain ⟨body, apart, rfl⟩ := ended
  rw [List.append_assoc, List.singleton_append] at whole
  have arrives : 0x0A ∈ b.content := by
    rw [whole]
    simp
  have found : (b.readString readerSize 0x0A []).isSome = true :=
    Buffering.readString_isSome arrives
  obtain ⟨⟨line, b'⟩, read⟩ := Option.isSome_iff_exists.mp found
  obtain ⟨before, rfl, apart', whole'⟩ :=
    Buffering.content_of_readString read
  have split := splitOnce_append b'.content apart'
  rw [← whole', whole, splitOnce_append rest apart, Option.some.injEq,
    Prod.mk.injEq] at split
  obtain ⟨rfl, rfl⟩ := split
  exact ⟨b', read, rfl⟩

theorem readHeaderLines_of_readString {buf h : GoString} {headers : Headers}
    {b b' : Buffering UInt8}
    (read : b.readString readerSize 0x0A [] = some (h, b')) :
    readHeaderLines buf headers b =
      if trimLineEnd h = [] then some ((buf ++ h, headers), b')
      else
        match headerLine (trimLineEnd h) with
        | none => readHeaderLines (buf ++ h) headers b'
        | some (k, v) =>
            readHeaderLines (buf ++ h) (Function.update headers k v) b' := by
  rw [readHeaderLines]
  split
  · rename_i none_
    rw [none_] at read
    cases read
  · rename_i h' b'' same
    rw [same, Option.some.injEq, Prod.mk.injEq] at read
    obtain ⟨rfl, rfl⟩ := read
    rfl

/-- The lines of a head are read, up to the empty one. -/
theorem readHeaderLines_lines {lines : List GoString} {last : GoString}
    (lastEnded : IsLine last) (ended : ∀ line ∈ lines, IsLine line)
    (full : ∀ line ∈ lines, trimLineEnd line ≠ [])
    (empty : trimLineEnd last = []) (buf : GoString) (headers : Headers)
    {b : Buffering UInt8} {rest : GoString}
    (whole : b.content = lines.flatten ++ last ++ rest) :
    ∃ headers' b', readHeaderLines buf headers b =
        some ((buf ++ (lines.flatten ++ last), headers'), b') ∧
      readHTTPHeaders headers (lines ++ [last]) = some headers' ∧
      b'.content = rest := by
  induction lines generalizing buf headers b with
  | nil =>
      obtain ⟨b', read, left⟩ := readString_line lastEnded whole
      refine ⟨headers, b', ?_, ?_, left⟩
      · rw [readHeaderLines_of_readString read, if_pos empty]
        rfl
      · rw [List.nil_append, readHTTPHeaders]
        exact if_pos empty
  | cons line lines induction =>
      obtain ⟨lineEnded, ended⟩ := List.forall_mem_cons.mp ended
      obtain ⟨content, full⟩ := List.forall_mem_cons.mp full
      rw [List.flatten_cons, List.append_assoc, List.append_assoc] at whole
      obtain ⟨b', read, left⟩ := readString_line lineEnded whole
      rw [← List.append_assoc] at left
      have joined : buf ++ ((line :: lines).flatten ++ last) =
          buf ++ line ++ (lines.flatten ++ last) := by
        simp
      rw [readHeaderLines_of_readString read, if_neg content, joined,
        List.cons_append, readHTTPHeaders, if_neg content]
      cases headerLine (trimLineEnd line) with
      | none => exact induction ended full _ headers left
      | some entry =>
          obtain ⟨k, v⟩ := entry
          exact induction ended full _ (Function.update headers k v) left

namespace BufConn

/-- A head is read, and what is left behind it. -/
theorem readHTTPHeaders_head {network : Wire UInt8} {head : HeadLines}
    {rest : GoString} (stream : network.content = head.bytes ++ rest) :
    ∃ headers c, (newBufConn network).readHTTPHeaders =
        some (⟨head.bytes, trimLineEnd head.reqLine, headers⟩, c) ∧
      Server.readHTTPHeaders (fun _ => []) (head.lines ++ [head.last]) =
        some headers ∧
      (c.replayRequest head.bytes).content = head.bytes ++ rest := by
  obtain ⟨reqEnded, ended⟩ := List.forall_mem_cons.mp head.ended
  obtain ⟨lastEnded, ended⟩ := List.forall_mem_cons.mp ended
  have whole : (newBufConn network).reader.content =
      head.reqLine ++ (head.lines.flatten ++ head.last ++ rest) := by
    show [] ++ ([] ++ network.content) = _
    rw [List.nil_append, List.nil_append, stream, HeadLines.bytes,
      List.append_assoc]
  obtain ⟨b, first, left⟩ := readString_line reqEnded whole
  obtain ⟨headers, b', read, parsed, left⟩ := readHeaderLines_lines
    lastEnded ended head.full head.empty head.reqLine (fun _ => []) left
  refine ⟨headers, ⟨b'.wire, .buffer b'.buffered b'.source⟩, ?_, parsed, ?_⟩
  · unfold readHTTPHeaders
    rw [first]
    dsimp only
    rw [read]
    rfl
  · rw [← left]
    show (head.bytes ++ (b'.buffered ++ b'.source.held)) ++ b'.wire.content =
      head.bytes ++ (b'.buffered ++ (b'.source.held ++ b'.wire.content))
    simp only [List.append_assoc]

theorem reads_content (c : BufConn) (limits : List ℕ) :
    c.content = (c.reads limits).1 ++ (c.reads limits).2.content :=
  Source.readAll_content (Nat.pos_of_neZero readerSize) limits c.r c.conn

theorem read_isRead (c : BufConn) (limit : ℕ) :
    IsRead limit c.content (c.read limit).1 (c.read limit).2.content :=
  c.r.read_isRead (Nat.pos_of_neZero readerSize) limit c.conn

/-- Behind the head of a stream, the whole stream is read from its first byte,
however the network cuts it and whatever is asked for at a time. -/
theorem replay_is_stream {network : Wire UInt8} {head : HeadLines}
    {rest : GoString} (stream : network.content = head.bytes ++ rest) :
    ∃ parsed c, (newBufConn network).readHTTPHeaders = some (parsed, c) ∧
      parsed.raw = head.bytes ∧
      parsed.reqLine = trimLineEnd head.reqLine ∧
      Server.readHTTPHeaders (fun _ => []) (head.lines ++ [head.last]) =
        some parsed.headers ∧
      ∀ limits : List ℕ, ∃ left,
        network.content =
            ((c.replayRequest parsed.raw).reads limits).1 ++ left ∧
          ∀ limit, 0 < limit →
            ((((c.replayRequest parsed.raw).reads limits).2.read limit).1 =
                none → left = []) ∧
              ∀ bytes, (((c.replayRequest parsed.raw).reads limits).2.read
                limit).1 = some bytes →
                  bytes ≠ [] ∧ bytes.length ≤ limit ∧ bytes <+: left := by
  obtain ⟨headers, c, read, parsed, whole⟩ := readHTTPHeaders_head stream
  refine ⟨_, c, read, rfl, rfl, parsed, ?_⟩
  intro limits
  refine ⟨((c.replayRequest head.bytes).reads limits).2.content, ?_, ?_⟩
  · rw [stream, ← whole]
    exact reads_content _ limits
  · intro limit positive
    have next := read_isRead ((c.replayRequest head.bytes).reads limits).2
      limit
    unfold IsRead at next
    constructor
    · intro none_
      rw [none_] at next
      exact next.1
    · intro bytes some_
      rw [some_] at next
      obtain ⟨same, length, filled⟩ := next
      exact ⟨filled positive, length, _, same.symm⟩

/-- A request of three lines. -/
def sampleHead : HeadLines where
  reqLine := ascii "GET / HTTP/1.1\r\n"
  lines := [ascii "Host: x\n"]
  last := ascii "\r\n"
  ended := by
    intro line member
    refine ⟨line.dropLast, ?_⟩
    revert line
    decide
  full := by decide
  empty := by decide

/-- The request, cut within its first line, with a byte of a frame behind. -/
def sampleNetwork : Wire UInt8 :=
  [⟨ascii "GET / H", by decide⟩,
    ⟨ascii "TTP/1.1\r\nHost: x\n\r\n" ++ [0x81], by decide⟩]

theorem replay_is_stream_cut :
    ∃ parsed c, (newBufConn sampleNetwork).readHTTPHeaders =
        some (parsed, c) ∧
      parsed.raw = ascii "GET / HTTP/1.1\r\nHost: x\n\r\n" := by
  have stream : sampleNetwork.content = sampleHead.bytes ++ [0x81] := by
    decide
  obtain ⟨parsed, c, read, raw, -⟩ := replay_is_stream stream
  exact ⟨parsed, c, read, raw.trans (by decide)⟩

end BufConn

end Byteln.Server

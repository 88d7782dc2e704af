import Byteln.Server.Allowlist

/-!
# Origins and their texts

An origin is looked up under a text that names its scheme, its host and its
port.  The brackets around IPv6 addresses are left out of it, so that the end
of such an address reads as a port.
-/

namespace Byteln.Server

/-! ## Parts of a URL -/

theorem digits_of_splitHostPort (hostPort : GoString) :
    ∀ b ∈ (Url.splitHostPort hostPort).2, isPortDigit b = true := by
  unfold Url.splitHostPort
  dsimp only
  rw [apply_ite Prod.snd, ite_self]
  intro b member
  split at member
  · cases member
  · split at member
    · rename_i digits
      exact List.all_eq_true.mp digits b (List.mem_reverse.mp member)
    · cases member

theorem colon_notMem_port (u : Url) : 0x3A ∉ u.port := by
  intro member
  cases digits_of_splitHostPort u.host _ member

theorem colon_notMem_toLower (lib : GoLib) (u : Url) :
    0x3A ∉ toLower lib u.scheme := by
  have small : u.scheme.all (fun b => b < 0x80) = true := by
    rw [List.all_eq_true]
    intro b member
    rw [decide_eq_true_eq, UInt8.lt_iff_toNat_lt]
    exact (u.plain b member).1
  rw [toLower_ascii lib small]
  intro member
  obtain ⟨b, inside, lowered⟩ := List.mem_map.mp member
  apply (u.plain b inside).2
  unfold lowerByte at lowered
  split at lowered
  · rename_i capital
    simp only [Bool.and_eq_true, decide_eq_true_eq, UInt8.le_iff_toNat_le,
      ← UInt8.toNat_inj, UInt8.toNat_add, UInt8.reduceToNat]
      at capital lowered
    omega
  · exact lowered

/-! ## Texts of origins -/

namespace WebOrigin

/-- Without a port, the host of one reads as the host and port of the other. -/
def ReadsAs (e e' : WebOrigin) : Prop :=
  e.port = [] ∧ e'.port ≠ [] ∧ e.host = e'.host ++ 0x3A :: e'.port

/-- Parts as they are looked up: the scheme and the port without a colon. -/
structure Plain (e : WebOrigin) : Prop where
  scheme : 0x3A ∉ e.scheme
  port : 0x3A ∉ e.port

theorem plain_ofUrl (lib : GoLib) (u : Url) : (ofUrl lib u).Plain where
  scheme := colon_notMem_toLower lib u
  port := by
    unfold ofUrl
    dsimp only
    split
    · exact List.not_mem_nil
    · exact colon_notMem_port u

theorem port_unique {host host' port port' : GoString}
    (plain : 0x3A ∉ port) (plain' : 0x3A ∉ port')
    (same : host ++ 0x3A :: port = host' ++ 0x3A :: port') :
    host = host' ∧ port = port' := by
  have reversed := congrArg List.reverse same
  rw [List.reverse_append, List.reverse_append, List.reverse_cons,
    List.reverse_cons, List.append_assoc, List.append_assoc,
    List.singleton_append, List.singleton_append] at reversed
  have split := splitOnce_append host.reverse
    (show 0x3A ∉ port.reverse by rwa [List.mem_reverse])
  have split' := splitOnce_append host'.reverse
    (show 0x3A ∉ port'.reverse by rwa [List.mem_reverse])
  rw [reversed, split', Option.some.injEq, Prod.mk.injEq,
    List.reverse_inj, List.reverse_inj] at split
  exact ⟨split.2.symm, split.1.symm⟩

theorem text_eq (e : WebOrigin) :
    e.text = e.scheme ++ 0x3A :: (ascii "//" ++
      (e.host ++ if e.port = [] then [] else 0x3A :: e.port)) := by
  have slashes : ascii "://" = 0x3A :: ascii "//" := by
    decide
  unfold text
  rw [slashes]
  simp

/-- Two origins under one text are the same, or one reads as the other. -/
theorem text_eq_iff {e e' : WebOrigin} (plain : e.Plain) (plain' : e'.Plain) :
    e.text = e'.text ↔
      e = e' ∨ e.scheme = e'.scheme ∧ (e.ReadsAs e' ∨ e'.ReadsAs e) := by
  have parts : e.text = e'.text ↔ e.scheme = e'.scheme ∧
      (e.host ++ if e.port = [] then [] else 0x3A :: e.port) =
        e'.host ++ if e'.port = [] then [] else 0x3A :: e'.port := by
    rw [text_eq, text_eq]
    constructor
    · intro same
      have split := splitOnce_append (ascii "//" ++
        (e.host ++ if e.port = [] then [] else 0x3A :: e.port)) plain.scheme
      rw [same, splitOnce_append _ plain'.scheme, Option.some.injEq,
        Prod.mk.injEq, List.append_cancel_left_eq] at split
      exact ⟨split.1.symm, split.2.symm⟩
    · rintro ⟨scheme, rest⟩
      rw [scheme, rest]
  rw [parts]
  obtain ⟨scheme, host, port⟩ := e
  obtain ⟨scheme', host', port'⟩ := e'
  have portPlain := plain.port
  have portPlain' := plain'.port
  unfold ReadsAs
  dsimp only at portPlain portPlain' ⊢
  rw [mk.injEq]
  by_cases absent : port = []
  · by_cases absent' : port' = []
    · simp [absent, absent']
    · have other : ([] : GoString) ≠ port' := Ne.symm absent'
      simp [absent, absent', other]
  · by_cases absent' : port' = []
    · simp only [absent, absent', if_true, if_false, List.append_nil,
        and_false, false_and, false_or, ne_eq, not_false_eq_true, true_and]
      rw [eq_comm (a := host')]
    · have alike : host ++ 0x3A :: port = host' ++ 0x3A :: port' ↔
          host = host' ∧ port = port' := by
        constructor
        · exact port_unique portPlain portPlain'
        · rintro ⟨rfl, rfl⟩
          rfl
      simp [absent, absent', alike]

end WebOrigin

/-! ## What the texts permit -/

/-- An origin on a loopback host that is listed, or one that is listed with
its scheme, its host and its port. -/
structure Permitted (lib : GoLib) (raws : List GoString) (o : WebOrigin) :
    Prop where
  http : o.IsHttp
  listed : (isLoopback o.host = true ∧
      ∃ raw ∈ raws, ∃ e, Lists lib raw e ∧ e.host = o.host) ∨
    ∃ raw ∈ raws, ∃ e, Lists lib raw e ∧ e.scheme = o.scheme ∧
      e.host = o.host ∧ e.port = o.port

/-- Nothing that is listed by its text reads as the origin, or the other way
round. -/
def Distinct (lib : GoLib) (raws : List GoString) (o : WebOrigin) : Prop :=
  ∀ raw ∈ raws, ∀ e, Lists lib raw e → isLoopback e.host = false →
    e.scheme = o.scheme → ¬ e.ReadsAs o ∧ ¬ o.ReadsAs e

namespace Allowlist

variable {lib : GoLib} {a : Allowlist} {raws : List GoString}
  {origin : GoString} {u : Url}

theorem allow_of_permitted (holds : a.Holds lib raws)
    (parsed : lib.parse (trimSpace origin) = some u)
    (permitted : Permitted lib raws (.ofUrl lib u)) :
    allow lib a origin = true := by
  obtain ⟨http, listed⟩ := permitted
  by_cases blank : trimSpace origin = []
  · unfold allow
    dsimp only
    rw [if_pos blank]
  rw [allow_iff holds blank parsed]
  rcases listed with ⟨loopback, raw, member, e, lists, host⟩ |
    ⟨raw, member, e, lists, scheme, host, port⟩
  · refine Or.inl ⟨⟨raw, member, e, lists, ?_, host⟩, http⟩
    rw [host]
    exact loopback
  · have same : e = .ofUrl lib u := by
      obtain ⟨scheme', host', port'⟩ := e
      dsimp only at scheme host port
      rw [scheme, host, port]
    cases loopback : isLoopback e.host with
    | true => exact Or.inl ⟨⟨raw, member, e, lists, loopback, host⟩, http⟩
    | false =>
        refine Or.inr ⟨raw, member, e, lists, loopback, ?_⟩
        rw [same]

/-- An origin that is not permitted is allowed under the text of another. -/
theorem permitted_of_allow (holds : a.Holds lib raws)
    (parsed : lib.parse (trimSpace origin) = some u)
    (some_ : trimSpace origin ≠ [])
    (distinct : Distinct lib raws (.ofUrl lib u))
    (allowed : allow lib a origin = true) :
    Permitted lib raws (.ofUrl lib u) := by
  rw [allow_iff holds some_ parsed] at allowed
  rcases allowed with ⟨⟨raw, member, e, lists, loopback, host⟩, http⟩ |
    ⟨raw, member, e, lists, loopback, text⟩
  · refine ⟨http, Or.inl ⟨?_, raw, member, e, lists, host⟩⟩
    show isLoopback (toLower lib u.hostname) = true
    rw [← host]
    exact loopback
  · have plain : e.Plain := by
      obtain ⟨u', -, -, -, rfl⟩ := lists.parsed
      exact WebOrigin.plain_ofUrl lib u'
    rw [WebOrigin.text_eq_iff plain (WebOrigin.plain_ofUrl lib u)] at text
    rcases text with rfl | ⟨scheme, either⟩
    · exact ⟨lists.http, Or.inr ⟨raw, member, _, lists, rfl, rfl, rfl⟩⟩
    · obtain ⟨before, behind⟩ :=
        distinct raw member e lists loopback scheme
      exact absurd either (not_or.mpr ⟨before, behind⟩)

theorem allow_of_not_distinct (holds : a.Holds lib raws)
    (parsed : lib.parse (trimSpace origin) = some u)
    (blurred : ¬ (trimSpace origin ≠ [] ∧
      Distinct lib raws (.ofUrl lib u))) :
    allow lib a origin = true := by
  by_cases blank : trimSpace origin = []
  · unfold allow
    dsimp only
    rw [if_pos blank]
  rw [not_and] at blurred
  have reads := blurred blank
  unfold Distinct at reads
  push Not at reads
  obtain ⟨raw, member, e, lists, loopback, scheme, reads⟩ := reads
  have plain : e.Plain := by
    obtain ⟨u', -, -, -, rfl⟩ := lists.parsed
    exact WebOrigin.plain_ofUrl lib u'
  rw [allow_iff holds blank parsed]
  refine Or.inr ⟨raw, member, e, lists, loopback, ?_⟩
  rw [WebOrigin.text_eq_iff plain (WebOrigin.plain_ofUrl lib u)]
  refine Or.inr ⟨scheme, ?_⟩
  by_cases before : e.ReadsAs (.ofUrl lib u)
  · exact Or.inl before
  · exact Or.inr (reads before)

/-- In every state, an origin is allowed as it is permitted, unless a text of
the list reads as it. -/
theorem allow_iff_permitted_iff (lib : GoLib) (dirURL : GoString)
    (extra : List GoString) (responses : List Response) (origin : GoString)
    {u : Url} (parsed : lib.parse (trimSpace origin) = some u) :
    let a := after lib (new lib dirURL extra) responses
    let raws := sources lib extra (lastDirectory lib a.dirURL responses)
    ((allow lib a origin = true ↔ Permitted lib raws (.ofUrl lib u)) ↔
      Permitted lib raws (.ofUrl lib u) ∨
        (trimSpace origin ≠ [] ∧ Distinct lib raws (.ofUrl lib u))) := by
  intro a raws
  have built := (isBuilt_new lib dirURL extra).after responses
  have holds : a.Holds lib raws := by
    have whole := built.holds
    rwa [← built.fetched] at whole
  by_cases permitted : Permitted lib raws (.ofUrl lib u)
  · exact iff_of_true
      (iff_of_true (allow_of_permitted holds parsed permitted) permitted)
      (Or.inl permitted)
  constructor
  · intro same
    right
    by_contra blurred
    exact permitted (same.mp (allow_of_not_distinct holds parsed blurred))
  · intro either
    obtain ⟨some_, distinct⟩ := either.resolve_left permitted
    exact ⟨permitted_of_allow holds parsed some_ distinct,
      fun permitted' => absurd permitted' permitted⟩

theorem allow_iff_permitted_iff_chat :
    ∃ u, plainLib.parse (trimSpace (ascii "https://chat.example.com")) =
        some u ∧
      ((allow plainLib (new plainLib [] [ascii "https://chat.example.com"])
          (ascii "https://chat.example.com") = true ↔
        Permitted plainLib
          (sources plainLib [ascii "https://chat.example.com"] [])
          (.ofUrl plainLib u)) ↔
        Permitted plainLib
            (sources plainLib [ascii "https://chat.example.com"] [])
            (.ofUrl plainLib u) ∨
          (trimSpace (ascii "https://chat.example.com") ≠ [] ∧
            Distinct plainLib
              (sources plainLib [ascii "https://chat.example.com"] [])
              (.ofUrl plainLib u))) := by
  have parses : (plainLib.parse (trimSpace
      (ascii "https://chat.example.com"))).isSome = true := by
    decide +kernel
  obtain ⟨u, parsed⟩ := Option.isSome_iff_exists.mp parses
  exact ⟨u, parsed, allow_iff_permitted_iff plainLib []
    [ascii "https://chat.example.com"] [] _ parsed⟩

/-- An IPv6 address with a port is configured; the address that has the port
for its last part is allowed. -/
theorem allow_confuses_addresses :
    ∃ u, plainLib.parse (trimSpace (ascii "http://[2001:db8::1:8080]")) =
        some u ∧
      allow plainLib (new plainLib []
          [ascii "http://[2001:db8::1]:8080"])
        (ascii "http://[2001:db8::1:8080]") = true ∧
      ¬ Permitted plainLib
        (sources plainLib [ascii "http://[2001:db8::1]:8080"] [])
        (.ofUrl plainLib u) := by
  have parses : (plainLib.parse (trimSpace
      (ascii "http://[2001:db8::1:8080]"))).map
      (fun u => toLower plainLib u.hostname) =
      some (ascii "2001:db8::1:8080") := by
    decide +kernel
  have others : ∀ raw ∈ sources plainLib
      [ascii "http://[2001:db8::1]:8080"] [],
      (plainLib.parse (trimSpace raw)).map
        (fun u => toLower plainLib u.hostname) ≠
        some (ascii "2001:db8::1:8080") := by
    decide +kernel
  obtain ⟨u, parsed, host⟩ := Option.map_eq_some_iff.mp parses
  have other : ∀ raw ∈ sources plainLib
      [ascii "http://[2001:db8::1]:8080"] [], ∀ e, Lists plainLib raw e →
        e.host ≠ (WebOrigin.ofUrl plainLib u).host := by
    intro raw member e lists same
    obtain ⟨u', parsed', -, -, rfl⟩ := lists.parsed
    apply others raw member
    rw [parsed', Option.map_some]
    exact congrArg some (same.trans host)
  refine ⟨u, parsed, by decide +kernel, ?_⟩
  rintro ⟨-, ⟨-, raw, member, e, lists, same⟩ |
    ⟨raw, member, e, lists, -, same, -⟩⟩
  · exact other raw member e lists same
  · exact other raw member e lists same

end Allowlist

end Byteln.Server

import Byteln.Library.UrlParams

/-!
# What a URL asks for

The path and the query of a URL with an authority, as a browser asks for them:
the path is taken apart at its slashes, and dot segments are resolved.
-/

namespace Byteln.Library

/-! ## Paths -/

/-- Also a backslash, in the schemes of the web. -/
def isSlash (u : UInt16) : Bool :=
  u = 0x2f || u = 0x5c

/-- The ways to write a dot. -/
def dots : List JSString :=
  [js ".", js "%2e", js "%2E"]

def isSingleDot (segment : JSString) : Bool :=
  segment ∈ dots

def isDoubleDot (segment : JSString) : Bool :=
  segment ∈ dots.flatMap fun dot => dots.map (dot ++ ·)

/-- The segments of a path; those before are at hand, the last one first. -/
def resolveDots (done : List JSString) : List JSString → List JSString
  | [] => done.reverse
  | [last] =>
      if isDoubleDot last then ([] :: done.tail).reverse
      else if isSingleDot last then ([] :: done).reverse
      else (last :: done).reverse
  | segment :: rest =>
      if isDoubleDot segment then resolveDots done.tail rest
      else if isSingleDot segment then resolveDots done rest
      else resolveDots (segment :: done) rest

/-! ## Targets -/

/-- What ends the authority of a URL. -/
def endsAuthority (u : UInt16) : Bool :=
  isSlash u || u = 0x3f || u = 0x23

/-- The path, by its segments, and the query. -/
structure UrlTarget where
  path : List JSString
  query : JSString

namespace UrlTarget

/-- Of a URL that begins with a scheme, a colon and two slashes. -/
def ofUrl (url : JSString) : UrlTarget :=
  let rest := (((url.dropWhile fun u => u ≠ 0x3a).drop 3).dropWhile
    fun u => !endsAuthority u).takeWhile fun u => u ≠ 0x23
  let path := rest.takeWhile fun u => u ≠ 0x3f
  { path := resolveDots [] ((path.drop 1).splitOnP isSlash)
    query := (rest.dropWhile fun u => u ≠ 0x3f).drop 1 }

/-- As it stands in a request. -/
def text (target : UrlTarget) : JSString :=
  target.path.flatMap (0x2f :: ·) ++
    if target.query = [] then [] else 0x3f :: target.query

/-- `url.searchParams.set(name, value)`. -/
def setParam (target : UrlTarget) (name value : JSString) : UrlTarget :=
  { target with
    query := ((UrlParams.parseBytes (textEncode target.query)).set name
      value).format }

/-- The parts of a URL whose path is plain. -/
theorem ofUrl_plain {scheme host : JSString} (path query : JSString)
    (colon : 0x3a ∉ scheme)
    (inHost : ∀ u ∈ host, endsAuthority u = false)
    (inPath : ∀ u ∈ path, u ≠ 0x3f ∧ u ≠ 0x23)
    (inQuery : 0x23 ∉ query) :
    ofUrl (scheme ++ js "://" ++ host ++ (0x2f :: path ++ 0x3f :: query)) =
      ⟨resolveDots [] (path.splitOnP isSlash), query⟩ := by
  have marks : js "://" = [0x3a, 0x2f, 0x2f] := rfl
  have begins : (scheme ++ js "://" ++ host ++
      (0x2f :: path ++ 0x3f :: query)).dropWhile (fun u => u ≠ 0x3a) =
        0x3a :: 0x2f :: 0x2f ::
          (host ++ (0x2f :: path ++ 0x3f :: query)) := by
    rw [marks, List.append_assoc, List.append_assoc,
      List.dropWhile_append_of_pos]
    · rfl
    · intro u member
      simp only [ne_eq, decide_eq_true_eq]
      rintro rfl
      exact colon member
  have authority : (host ++ (0x2f :: path ++ 0x3f :: query)).dropWhile
      (fun u => !endsAuthority u) = 0x2f :: path ++ 0x3f :: query := by
    rw [List.dropWhile_append_of_pos]
    · rfl
    · intro u member
      rw [inHost u member]
      rfl
  have fragment : (0x2f :: path ++ 0x3f :: query).takeWhile
      (fun u => decide (u ≠ 0x23)) = 0x2f :: path ++ 0x3f :: query := by
    rw [List.takeWhile_eq_self_iff]
    intro u member
    simp only [List.mem_append, List.mem_cons] at member
    simp only [ne_eq, decide_eq_true_eq]
    rcases member with (rfl | member) | rfl | member
    · decide
    · exact (inPath u member).2
    · decide
    · rintro rfl
      exact inQuery member
  have plain : ∀ u ∈ (0x2f :: path : JSString),
      decide (u ≠ 0x3f) = true := by
    intro u member
    rw [decide_eq_true_eq]
    rcases List.mem_cons.mp member with rfl | member
    · decide
    · exact (inPath u member).1
  unfold ofUrl
  rw [begins]
  simp only [List.drop_succ_cons, List.drop_zero]
  rw [authority, fragment, List.takeWhile_append_of_pos plain,
    List.dropWhile_append_of_pos plain]
  simp

end UrlTarget

end Byteln.Library

import IssuesApi.Errors
import IssuesApi.Lib.Url

/-!
# Pagination helpers (`app/pagination.py`)

Parsing and rewriting of RFC 8288 `Link` headers.  The two regular expressions are written
out as the deterministic readers they are: in `<([^>]*)>\s*;\s*(.*)` and in
`rel\s*=\s*(?:"([^"]*)"|([^\s;,]+))` no repeated class overlaps what must follow it, so a
greedy reader never has to give a character back.
-/

namespace IssuesApi

def maxPerPage : ℕ := 100

def defaultPerPage : ℕ := 30

lemma defaultPerPage_valid : 1 ≤ defaultPerPage ∧ defaultPerPage ≤ maxPerPage := by decide

/-- `{rel: url}`, in insertion order. -/
abbrev Links := List (Text × Text)

/-- The loop of `_split_segments`: `depth` counts open angle brackets and `current` is the
segment read so far. -/
def splitSegmentsAux : Text → ℕ → Text → List Text
  | [], _, current => if current = [] then [] else [current]
  | char :: rest, depth, current =>
    let depth := if char = '<' then depth + 1 else if char = '>' then depth - 1 else depth
    if char = ',' ∧ depth = 0 then current :: splitSegmentsAux rest depth []
    else splitSegmentsAux rest depth (current ++ [char])

/-- `_split_segments`. -/
def splitSegments (value : Text) : List Text := splitSegmentsAux value 0 []

/-- `_LINK_SEGMENT.match`: the groups `url` and `params`. -/
def matchLinkSegment : Text → Option (Text × Text)
  | '<' :: rest =>
    match rest.dropWhile (· != '>') with
    | _ :: after =>
      match after.dropWhile isSpace with
      | ';' :: params => some (rest.takeWhile (· != '>'), params.dropWhile isSpace)
      | _ => none
    | [] => none
  | _ => none

/-- The groups of `_REL_PARAM`; one of them took part in the match. -/
structure RelMatch where
  quoted : Option Text
  bare : Option Text
  deriving DecidableEq, Repr

/-- The alternatives of `_REL_PARAM` after the equals sign. -/
def matchRelValue (t : Text) : Option RelMatch :=
  let bare := t.takeWhile (fun c => !(isSpace c || c == ';' || c == ','))
  let bareMatch : Option RelMatch := if bare = [] then none else some ⟨none, some bare⟩
  match t with
  | '"' :: rest =>
    if '"' ∈ rest then some ⟨some (rest.takeWhile (· != '"')), none⟩ else bareMatch
  | _ => bareMatch

/-- `_REL_PARAM` at the start of the text. -/
def matchRel : Text → Option RelMatch
  | r :: e :: l :: rest =>
    if r.toLower = 'r' ∧ e.toLower = 'e' ∧ l.toLower = 'l' then
      match rest.dropWhile isSpace with
      | '=' :: value => matchRelValue (value.dropWhile isSpace)
      | _ => none
    else none
  | _ => none

/-- `_REL_PARAM.search`: the leftmost match. -/
def searchRel : Text → Option RelMatch
  | [] => none
  | c :: rest =>
    match matchRel (c :: rest) with
    | some m => some m
    | none => searchRel rest

/-- `(match.group("quoted") or match.group("bare")).strip()`. -/
def RelMatch.rel (m : RelMatch) : Except PyException Text :=
  match m.quoted with
  | some (c :: quoted) => .ok (strip (c :: quoted))
  | _ =>
    match m.bare with
    | some bare => .ok (strip bare)
    -- `None.strip()`
    | none => raiseBuiltin .attributeError

/-- `rel in links`. -/
def Links.has (links : Links) (rel : Text) : Bool := links.any (fun l => l.1 = rel)

/-- One iteration of the loop of `parse_link_header`. -/
def addSegment (links : Links) (segment : Text) : Except PyException Links :=
  match matchLinkSegment (strip segment) with
  | none => .ok links
  | some (url, params) =>
    match searchRel params with
    | none => .ok links
    | some m => do
      let rel ← m.rel
      if rel ≠ [] ∧ strip url ≠ [] ∧ !links.has rel then return links ++ [(rel, strip url)]
      else return links

/-- `parse_link_header`. -/
def parseLinkHeader : Option Text → Except PyException Links
  | none => .ok []
  | some value =>
    if strip value = [] then .ok [] else (splitSegments value).foldlM addSegment []

/-- The parameters that survive rewriting, each with its first value. -/
def forwardedParams (query : Text) : List (Text × Text) :=
  ["page", "per_page"].filterMap fun key =>
    match parseQs query key.toList with
    | first :: _ => if first = [] then none else some (key.toList, first)
    | [] => none

/-- One rendered link: `<target>; rel="rel"`. -/
def renderLink (target rel : Text) : Text :=
  '<' :: target ++ ">; rel=\"".toList ++ rel ++ ['"']

/-- The target of a rewritten link. -/
def localTarget (basePath : Text) (forwarded : List (Text × Text)) : Text :=
  basePath ++ if forwarded = [] then [] else '?' :: urlencode forwarded

/-- The body of the loop of `rewrite_link_header`. -/
def rewriteLink (checks : NetlocChecks) (basePath : Text) (link : Text × Text) :
    Except PyException Text :=
  match urlsplit checks link.2 with
  | none => raiseBuiltin .valueError
  | some parts => .ok (renderLink (localTarget basePath (forwardedParams parts.query)) link.1)

/-- `rewrite_link_header`. -/
def rewriteLinkHeader (checks : NetlocChecks) (value : Option Text) (basePath : Text) :
    Except PyException (Option Text) := do
  let links ← parseLinkHeader value
  if links = [] then return none
  else
    let rendered ← links.mapM (rewriteLink checks basePath)
    return some (joinSep ", ".toList rendered)

/-! Rewriting raises nothing but built-in exceptions. -/

lemma RelMatch.rel_builtin (m : RelMatch) : OnlyBuiltin m.rel := by
  unfold RelMatch.rel
  split
  · exact OnlyBuiltin.ok _
  · split
    · exact OnlyBuiltin.ok _
    · exact OnlyBuiltin.raise _

lemma addSegment_builtin (links : Links) (segment : Text) :
    OnlyBuiltin (addSegment links segment) := by
  unfold addSegment
  split
  · exact OnlyBuiltin.ok _
  · split
    · exact OnlyBuiltin.ok _
    · next m _ =>
      refine m.rel_builtin.bind fun rel => ?_
      exact OnlyBuiltin.ite (fun _ => OnlyBuiltin.ok _) fun _ => OnlyBuiltin.ok _

lemma foldlM_addSegment_builtin : ∀ (segments : List Text) (links : Links),
    OnlyBuiltin (segments.foldlM addSegment links)
  | [], links => by
      rw [List.foldlM_nil]
      exact OnlyBuiltin.ok _
  | segment :: segments, links => by
      rw [List.foldlM_cons]
      exact (addSegment_builtin links segment).bind fun links =>
        foldlM_addSegment_builtin segments links

lemma parseLinkHeader_builtin : ∀ value, OnlyBuiltin (parseLinkHeader value)
  | none => OnlyBuiltin.ok _
  | some _ => OnlyBuiltin.ite (fun _ => OnlyBuiltin.ok _) fun _ => foldlM_addSegment_builtin _ _

lemma rewriteLink_builtin (checks : NetlocChecks) (basePath : Text) (link : Text × Text) :
    OnlyBuiltin (rewriteLink checks basePath link) := by
  unfold rewriteLink
  split
  · exact OnlyBuiltin.raise _
  · exact OnlyBuiltin.ok _

lemma rewriteLinkHeader_builtin (checks : NetlocChecks) (value : Option Text) (basePath : Text) :
    OnlyBuiltin (rewriteLinkHeader checks value basePath) := by
  refine (parseLinkHeader_builtin value).bind fun links => ?_
  refine OnlyBuiltin.ite (fun _ => OnlyBuiltin.ok _) fun _ => ?_
  exact (OnlyBuiltin.mapM (rewriteLink_builtin checks basePath) links).bind fun _ =>
    OnlyBuiltin.ok _

end IssuesApi

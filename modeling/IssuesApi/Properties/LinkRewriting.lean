import IssuesApi.Client
import IssuesApi.LinkHeader
import IssuesApi.Reference

/-!
# A rewritten header is stable

What `rewrite_link_header` emits is read back by `parse_link_header`: the same relations in the
same order, every target on the given route with the `page` and `per_page` its URL had.
Rewriting it once more changes nothing.

The upstream header is arbitrary text, but what was read from it is not: its relations are
trimmed, not empty, and pairwise different, so together with local targets they are
`LinkValue`s, and the round trip of `LinkHeader` applies to them.
-/

namespace IssuesApi

/-- The paths links are rewritten to. -/
def RouteBase (basePath : Text) : Prop :=
  basePath = issuesPath ∨ ∃ n, 1 ≤ n ∧ basePath = commentsPath n

lemma RouteBase.exists_localPath {basePath : Text} (h : RouteBase basePath) :
    ∃ base : LocalPath, base.text = basePath := by
  rcases h with rfl | ⟨n, -, rfl⟩
  · exact ⟨.issues, rfl⟩
  · exact ⟨.comments n, rfl⟩

/-! ## What is forwarded -/

/-- The parameters `page` and `per_page`, those that have a value. -/
def pagingParams (page perPage : Option Text) : List (Text × Text) :=
  (page.map fun value => ("page".toList, value)).toList ++
    (perPage.map fun value => ("per_page".toList, value)).toList

/-- The first values of `page` and `per_page` in a query. -/
def pagingOf (query : Text) : List (Text × Text) :=
  pagingParams (parseQs query "page".toList).head? (parseQs query "per_page".toList).head?

/-- The target is the path alone, or the path and a query made of these parameters. -/
def PointsAt (basePath : Text) (params : List (Text × Text)) (target : Text) : Prop :=
  (params = [] ∧ target = basePath) ∨
    (params ≠ [] ∧ ∃ query, target = basePath ++ '?' :: query ∧
      ∀ keepBlank, parseQsl keepBlank query = params)

/-- The second test of the source, for a blank first value, never fails. -/
lemma forwardedParams_eq (query : Text) : forwardedParams query = pagingOf query := by
  have hfirst : forwardedParams query = ["page", "per_page"].filterMap fun key =>
      (parseQs query key.toList).head?.map fun value => (key.toList, value) := by
    refine List.filterMap_congr fun key _ => ?_
    cases hvalues : parseQs query key.toList with
    | nil => rfl
    | cons first more =>
      have hmem : first ∈ parseQs query key.toList := by
        rw [hvalues]
        exact List.mem_cons_self ..
      exact if_neg (ne_nil_of_mem_parseQs hmem)
  rw [hfirst, pagingOf, pagingParams]
  simp only [List.filterMap_cons, List.filterMap_nil]
  cases (parseQs query "page".toList).head? with
  | none => cases (parseQs query "per_page".toList).head? <;> rfl
  | some page => cases (parseQs query "per_page".toList).head? <;> rfl

lemma ne_nil_of_mem_pagingOf {query : Text} {p : Text × Text} (h : p ∈ pagingOf query) :
    p.2 ≠ [] := by
  rcases List.mem_append.mp h with h | h
  all_goals
    obtain ⟨value, hvalue, rfl⟩ := Option.map_eq_some_iff.mp (Option.mem_toList.mp h)
    exact ne_nil_of_mem_parseQs (List.mem_of_mem_head? hvalue)

lemma valuesOf_page (page perPage : Option Text) :
    valuesOf (pagingParams page perPage) "page".toList = page.toList := by
  cases page <;> cases perPage <;> rfl

lemma valuesOf_perPage (page perPage : Option Text) :
    valuesOf (pagingParams page perPage) "per_page".toList = perPage.toList := by
  cases page <;> cases perPage <;> rfl

/-- What is forwarded can be forwarded again. -/
lemma pagingOf_urlencode (query : Text) :
    pagingOf (urlencode (pagingOf query)) = pagingOf query := by
  have hparse : ∀ name, parseQs (urlencode (pagingOf query)) name =
      valuesOf (pagingOf query) name := by
    intro name
    rw [parseQs, parseQsl_urlencode false fun p hp => ne_nil_of_mem_pagingOf hp]
  rw [pagingOf, hparse, hparse, pagingOf, valuesOf_page, valuesOf_perPage, Option.head?_toList,
    Option.head?_toList]

lemma pointsAt_localTarget (basePath query : Text) :
    PointsAt basePath (pagingOf query) (localTarget basePath (pagingOf query)) := by
  rw [localTarget]
  by_cases h : pagingOf query = []
  · rw [if_pos h]
    exact Or.inl ⟨h, List.append_nil _⟩
  · rw [if_neg h]
    exact Or.inr ⟨h, _, rfl, fun keepBlank =>
      parseQsl_urlencode keepBlank fun p hp => ne_nil_of_mem_pagingOf hp⟩

/-- A rewritten target is split again, and forwards what it was made of. -/
lemma urlsplit_localTarget (checks : NetlocChecks) (base : LocalPath) (query : Text) :
    ∃ parts, urlsplit checks (localTarget base.text (pagingOf query)) = some parts ∧
      pagingOf parts.query = pagingOf query := by
  obtain ⟨c, t, habsolute, hc⟩ := base.absolute
  have hbase : UrlBase ('/' :: c :: t) := habsolute ▸ base.url
  rw [localTarget, habsolute]
  by_cases h : pagingOf query = []
  · rw [if_pos h, List.append_nil, urlsplit_path checks hc hbase]
    refine ⟨_, rfl, ?_⟩
    rw [h]
    rfl
  · rw [if_neg h, urlsplit_local checks hc hbase (urlQuery_urlencode _)]
    exact ⟨_, rfl, pagingOf_urlencode query⟩

/-! ## Rewriting what was read -/

lemma exists_repoints {checks : NetlocChecks} (base : LocalPath) {link : Text × Text}
    (hrel : link.1 ≠ [] ∧ Trimmed link.1) (hplain : ∀ c ∈ link.1, c ∉ ['"', ',', '<', '>'])
    (hsplit : (urlsplit checks link.2).isSome = true) :
    ∃ l, Repoints checks base.text link l := by
  obtain ⟨parts, hparts⟩ := Option.isSome_iff_exists.mp hsplit
  exact ⟨{
    rel := link.1
    url := localTarget base.text (forwardedParams parts.query)
    rel_ne := hrel.1
    rel_trimmed := hrel.2
    rel_plain := hplain
    url_ne := base.target_ne_nil _
    url_trimmed := trimmed_of_forall fun c hc =>
      isSpace_of_isVisible (base.target_visible _ c hc).1
    url_plain := fun c hc => (base.target_visible _ c hc).2 }, rfl, parts, hparts, rfl⟩

/-- A re-pointed link is its own rewriting. -/
lemma repoints_entry {checks : NetlocChecks} (base : LocalPath) {link : Text × Text}
    {l : LinkValue} (h : Repoints checks base.text link l) :
    Repoints checks base.text l.entry l := by
  obtain ⟨-, parts, -, hurl⟩ := h
  rw [forwardedParams_eq] at hurl
  obtain ⟨parts', hparts', hquery⟩ := urlsplit_localTarget checks base parts.query
  refine ⟨rfl, parts', ?_, ?_⟩
  · rw [LinkValue.entry, hurl, hparts']
  · rw [hurl, forwardedParams_eq, hquery]

/-- **Rewriting is stable.**  The rewritten header has the same relations in the same order;
each target is the base path with the first values `page` and `per_page` had upstream; and
rewriting it again returns it. -/
theorem rewriteLinkHeader_stable {checks : NetlocChecks} {value basePath : Text} {links : Links}
    (hbase : RouteBase basePath) (hparse : parseLinkHeader (some value) = .ok links)
    (hne : links ≠ []) (hplain : ∀ link ∈ links, ∀ c ∈ link.1, c ∉ ['"', ',', '<', '>'])
    (hsplit : ∀ link ∈ links, (urlsplit checks link.2).isSome = true) :
    ∃ w targets, rewriteLinkHeader checks (some value) basePath = .ok (some w) ∧
      parseLinkHeader (some w) = .ok targets ∧
      List.Forall₂ (fun link target => target.1 = link.1 ∧
        ∃ parts, urlsplit checks link.2 = some parts ∧
          PointsAt basePath (pagingOf parts.query) target.2) links targets ∧
      rewriteLinkHeader checks (some w) basePath = .ok (some w) := by
  obtain ⟨base, rfl⟩ := hbase.exists_localPath
  obtain ⟨-, rfl⟩ := parseLinkHeader_ok_iff.mp hparse
  have hall : ∀ link ∈ keptLinks value, ∃ l, Repoints checks base.text link l := by
    intro link hlink
    obtain ⟨segment, -, hsegment⟩ := List.mem_filterMap.mp (mem_of_mem_keptLinks hlink)
    obtain ⟨hrel, -, htrimmed, -⟩ := segmentEntry_eq_some hsegment
    exact exists_repoints base ⟨hrel, htrimmed⟩ (hplain link hlink) (hsplit link hlink)
  obtain ⟨ls, hls⟩ := exists_forall₂_iff.mpr hall
  have hrels : ls.map LinkValue.rel = (keptLinks value).map Prod.fst := by
    rw [← List.forall₂_eq_eq_eq, List.forall₂_map_left_iff, List.forall₂_map_right_iff]
    exact hls.flip.imp fun l link h => h.1
  have hnodup : (ls.map LinkValue.rel).Nodup := by
    rw [hrels]
    exact nodup_map_winners _ _ _
  have hback : parseLinkHeader (some (renderLinks ls)) = .ok (ls.map LinkValue.entry) :=
    parseLinkHeader_of_nodup hnodup
  have hentries : ls.map LinkValue.entry ≠ [] := by
    rw [ne_eq, List.map_eq_nil_iff]
    rintro rfl
    exact hne (List.forall₂_nil_right_iff.mp hls)
  refine ⟨renderLinks ls, ls.map LinkValue.entry, rewriteLinkHeader_of_repoints hparse hne hls,
    hback, ?_, rewriteLinkHeader_of_repoints hback hentries ?_⟩
  · rw [List.forall₂_map_right_iff]
    refine hls.imp fun link l h => ?_
    obtain ⟨hrel, parts, hparts, hurl⟩ := h
    refine ⟨hrel, parts, hparts, ?_⟩
    rw [LinkValue.entry, hurl, forwardedParams_eq]
    exact pointsAt_localTarget base.text parts.query
  · have hown : List.Forall₂ (fun l link => Repoints checks base.text l.entry l ∧ True) ls
        (keptLinks value) := hls.flip.imp fun l link h => ⟨repoints_entry base h, trivial⟩
    rw [List.forall₂_map_left_iff, List.forall₂_same]
    exact ((List.forall₂_and_left _ _).mp hown).1

/-- Two links as GitHub writes them, one with more parameters than are forwarded. -/
def githubLink : Text :=
  "<https://api.github.com/issues?page=2&per_page=2&state=open>; rel=\"next\", ".toList ++
    "<https://api.github.com/issues?per_page=%32>; rel=first".toList

def githubLinks : Links :=
  [("next".toList, "https://api.github.com/issues?page=2&per_page=2&state=open".toList),
    ("first".toList, "https://api.github.com/issues?per_page=%32".toList)]

theorem rewriteLinkHeader_stable_github :
    RouteBase issuesPath ∧ parseLinkHeader (some githubLink) = .ok githubLinks ∧
      ∃ w targets, rewriteLinkHeader Runtime.reference.netloc (some githubLink) issuesPath =
          .ok (some w) ∧ parseLinkHeader (some w) = .ok targets ∧
        rewriteLinkHeader Runtime.reference.netloc (some w) issuesPath = .ok (some w) := by
  have hbase : RouteBase issuesPath := Or.inl rfl
  have hparse : parseLinkHeader (some githubLink) = .ok githubLinks := by decide +kernel
  obtain ⟨w, targets, hw, htargets, -, hagain⟩ :=
    @rewriteLinkHeader_stable Runtime.reference.netloc _ _ _ hbase hparse (by decide)
      (by decide +kernel) (by decide +kernel)
  exact ⟨hbase, hparse, w, targets, hw, htargets, hagain⟩

end IssuesApi

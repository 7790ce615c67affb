import IssuesApi.Routers.Issues
import IssuesApi.Upstream.Links

/-!
# A client that follows links

The service as a client sees it that starts with one request and then requests the target of
`rel="next"` as long as there is one.  The target is read the way the server reads it: path and
query are split, the path selects the route, and the parameters pass the route's validation or
the request is refused.

The client's own requests are all the service does in the meantime; its cache is part of the
`Session`.
-/

namespace IssuesApi

/-! ## Targets -/

/-- The validated `number` of a path (`ge=1`). -/
def issueNumber (rt : Runtime) (segment : Text) : Option ℕ :=
  if segment = [] then none
  else ((rt.intParam segment).filter fun n => 1 ≤ n).map Int.toNat

/-- `GET target` without `If-None-Match`: the request the routes make of it.  It is `none` when
no route matches, and when a parameter is not valid. -/
def parseGet (rt : Runtime) (target : Text) : Option IssuesRequest := do
  let parts ← urlsplit rt.netloc target
  match (unquote parts.path).splitOn '/' with
  | [[], root] =>
    if root = "issues".toList then
      (ListIssuesParams.parse rt parts.query none).map .listIssues
    else none
  | [[], root, number] =>
    if root = "issues".toList then (issueNumber rt number).map .getIssue else none
  | [[], root, number, leaf] =>
    if root = "issues".toList ∧ leaf = "comments".toList then do
      let number ← issueNumber rt number
      let paging ← PageParams.parse rt parts.query
      return .listComments number paging
    else none
  | _ => none

/-- The URL of a relation. -/
def Links.get (links : Links) (rel : Text) : Option Text :=
  (links.find? fun l => l.1 = rel).map (·.2)

/-- What a client requests after a response: nothing when there is no `rel="next"`.  The result
is `none` when there is one and its target is refused. -/
def nextRequest (rt : Runtime) (r : IssuesResponse) : Option (Option IssuesRequest) :=
  match parseLinkHeader (r.header "Link") with
  | .error _ => none
  | .ok links =>
    match links.get "next".toList with
    | none => some none
    | some target => (parseGet rt target).map some

/-! ## Sessions -/

/-- The list of issues a response shows. -/
def shownIssues (r : IssuesResponse) : Option (List (Issue Text)) :=
  match r.status, r.body with
  | 200, .model (.issues issues) => some issues
  | _, _ => none

/-- The list of comments a response shows. -/
def shownComments (r : IssuesResponse) : Option (List (Comment Text)) :=
  match r.status, r.body with
  | 200, .model (.comments comments) => some comments
  | _, _ => none

/-- The time and the id of each request of a session. -/
structure Schedule where
  now : ℕ → ℚ
  requestId : ℕ → Text

/-- How many requests the client has made, and the cache they left. -/
structure Session where
  made : ℕ
  cache : ResponseCache

/-- The answer to the next request of a session. -/
def Session.answer (rt : Runtime) (settings : Settings)
    (github : UpstreamRequest → UpstreamOutcome) (schedule : Schedule) (s : Session)
    (req : IssuesRequest) : IssuesResponse × Session :=
  let (call, cache) := send settings s.cache req
  let (answer, cache) :=
    receive rt settings (schedule.now s.made) call cache (github call.upstream)
  (respond rt (schedule.requestId s.made) answer, ⟨s.made + 1, cache⟩)

/-- One request of a client that reads its pages with `shown`. -/
def fetchPage {β : Type} (rt : Runtime) (settings : Settings)
    (github : UpstreamRequest → UpstreamOutcome) (schedule : Schedule)
    (shown : IssuesResponse → Option β) (s : Session) (req : IssuesRequest) :
    Option (β × Option IssuesRequest) × Session :=
  let (response, s) := s.answer rt settings github schedule req
  (do return (← shown response, ← nextRequest rt response), s)

/-! ## The paths of the two listings -/

/-- `/issues` as the base of links. -/
def LocalPath.issues : LocalPath where
  text := issuesPath
  absolute := ⟨'i', "ssues".toList, rfl, by decide⟩
  url := by decide

lemma urlBase_append {s t : Text} (hs : UrlBase s) (ht : UrlBase t) : UrlBase (s ++ t) := by
  intro c hc
  rcases List.mem_append.mp hc with h | h
  · exact hs c h
  · exact ht c h

lemma urlBase_decimal (n : ℕ) : UrlBase (decimal n) := by
  intro c hc
  have hdigit := isDigit_of_mem_decimal hc
  have hbounds := isDigit_bounds hdigit
  have hother : ∀ x ∈ ['?', '#', '[', ']', '<', '>'], x.isDigit = false := by decide
  refine ⟨by simp [isVisible]; omega, fun hbad => ?_⟩
  rw [hother c hbad] at hdigit
  cases hdigit

lemma commentsPath_eq (number : ℕ) :
    commentsPath number = "/issues/".toList ++ (decimal number ++ "/comments".toList) := by
  have hslash : "/issues/".toList = issuesPath ++ ['/'] := by decide +kernel
  rw [commentsPath, hslash]
  simp

/-- `/issues/{number}/comments` as the base of links. -/
def LocalPath.comments (number : ℕ) : LocalPath where
  text := commentsPath number
  absolute := ⟨'i', _, by rw [commentsPath_eq]; rfl, by decide⟩
  url := by
    rw [commentsPath_eq]
    exact urlBase_append (by decide) (urlBase_append (urlBase_decimal number) (by decide))

/-! ## Following the links of a page -/

/-- The numbers of a page need no escaping. -/
lemma urlencode_pageParams (page perPage : ℕ) :
    urlencode (pageParams page perPage) = renderQuery (pageParams page perPage) := by
  have hpage : quotePlus "page".toList = "page".toList := by decide +kernel
  have hperPage : quotePlus "per_page".toList = "per_page".toList := by decide +kernel
  rw [urlencode, pageParams]
  simp only [List.map_cons, List.map_nil, hpage, hperPage, quotePlus_decimal]

/-- Reading `page=..&per_page=..` back. -/
lemma parseQsl_pageParams (page perPage : ℕ) :
    parseQsl true (renderQuery (pageParams page perPage)) = pageParams page perPage := by
  have hpage : unquotePlus "page".toList = "page".toList := by decide
  have hperPage : unquotePlus "per_page".toList = "per_page".toList := by decide
  rw [parseQsl_renderQuery true (pageParams_raw page perPage),
    List.filter_eq_self.mpr fun _ _ => by simp]
  simp only [pageParams, List.map_cons, List.map_nil, hpage, hperPage, unquotePlus_decimal]

lemma queryValue_page (page perPage : ℕ) :
    queryValue (pageParams page perPage) "page" = some (decimal page) := by
  simp [queryValue, valuesOf, pageParams]

lemma queryValue_perPage (page perPage : ℕ) :
    queryValue (pageParams page perPage) "per_page" = some (decimal perPage) := by
  simp [queryValue, valuesOf, pageParams]

/-- The parameters of a page are valid. -/
lemma parse_pageParams (rt : Runtime) {page perPage : ℕ} (hpage : 1 ≤ page)
    (hperPage : 1 ≤ perPage ∧ perPage ≤ maxPerPage)
    (hdigits : (decimal page).length ≤ maxStrDigits) :
    PageParams.parse rt (renderQuery (pageParams page perPage)) =
      some ⟨page, perPage, hpage, hperPage⟩ := by
  have hpageInt : (1 : ℤ) ≤ page := by omega
  have hperPageInt : (1 : ℤ) ≤ perPage ∧ (perPage : ℤ) ≤ maxPerPage := by omega
  have hlargest : (decimal maxPerPage).length ≤ maxStrDigits := by decide
  have hperPageDigits := (length_decimal_mono hperPage.2).trans hlargest
  simp [PageParams.parse, parseQsl_pageParams, intQuery, queryValue_page, queryValue_perPage,
    rt.intParam_decimal page hdigits, rt.intParam_decimal perPage hperPageDigits,
    Option.filter_some, hpageInt, hperPageInt, hpage, hperPage]

/-- A page number that the framework does not read is refused. -/
lemma parse_pageParams_of_unread (rt : Runtime) {page : ℕ} (perPage : ℕ)
    (hunread : rt.intParam (decimal page) = none) :
    PageParams.parse rt (renderQuery (pageParams page perPage)) = none := by
  simp [PageParams.parse, parseQsl_pageParams, intQuery, queryValue_page, hunread]

/-- The target of a page is split into the path and the query it was made of. -/
lemma urlsplit_pageTarget (checks : NetlocChecks) (base : LocalPath) (page perPage : ℕ) :
    urlsplit checks (localTarget base.text (pageParams page perPage)) =
      some ⟨[], [], base.text, renderQuery (pageParams page perPage), []⟩ := by
  obtain ⟨c, t, hbase, hc⟩ := base.absolute
  have hurl := base.url
  have hquery := urlQuery_urlencode (pageParams page perPage)
  rw [urlencode_pageParams] at hquery
  have htarget : localTarget base.text (pageParams page perPage) =
      base.text ++ '?' :: renderQuery (pageParams page perPage) := by
    rw [localTarget, if_neg (by simp [pageParams]), urlencode_pageParams]
  rw [htarget]
  rw [hbase] at hurl ⊢
  exact urlsplit_local checks hc hurl hquery

/-- A page of `/issues`: what the target does not say takes its default. -/
lemma parseGet_issues (rt : Runtime) {page perPage : ℕ} (hpage : 1 ≤ page)
    (hperPage : 1 ≤ perPage ∧ perPage ≤ maxPerPage)
    (hdigits : (decimal page).length ≤ maxStrDigits) :
    parseGet rt (localTarget LocalPath.issues.text (pageParams page perPage)) =
      some (.listIssues ⟨.OPEN, none, page, perPage, none, hpage, hperPage⟩) := by
  have hpath : (unquote LocalPath.issues.text).splitOn '/' = [[], "issues".toList] := by
    decide +kernel
  have hstate : queryValue (pageParams page perPage) "state" = none := by
    simp [queryValue, valuesOf, pageParams]
  have hlabels : queryValue (pageParams page perPage) "labels" = none := by
    simp [queryValue, valuesOf, pageParams]
  have hparams : ListIssuesParams.parse rt (renderQuery (pageParams page perPage)) none =
      some ⟨.OPEN, none, page, perPage, none, hpage, hperPage⟩ := by
    simp only [ListIssuesParams.parse, parseQsl_pageParams, hstate, hlabels,
      parse_pageParams rt hpage hperPage hdigits]
    rfl
  rw [parseGet, urlsplit_pageTarget, Option.bind_eq_bind, Option.bind_some]
  dsimp only
  rw [hpath]
  dsimp only
  rw [if_pos rfl, hparams]
  rfl

/-- The target of a page of `/issues/{number}/comments` is split into its parameters. -/
lemma parseGet_commentsTarget (rt : Runtime) (number page perPage : ℕ) :
    parseGet rt (localTarget (LocalPath.comments number).text (pageParams page perPage)) = (do
      let number ← issueNumber rt (decimal number)
      let paging ← PageParams.parse rt (renderQuery (pageParams page perPage))
      return .listComments number paging) := by
  have hplain : unquote (LocalPath.comments number).text = (LocalPath.comments number).text := by
    have hescape : '%' ∉ commentsPath number := by
      rw [commentsPath_eq, List.mem_append, List.mem_append]
      rintro (h | h | h)
      · exact absurd h (by decide)
      · exact not_mem_decimal number (by decide) h
      · exact absurd h (by decide)
    rw [unquote, if_neg (by simpa [LocalPath.comments] using hescape)]
  have hparts : (LocalPath.comments number).text =
      joinSep ['/'] [[], "issues".toList, decimal number, "comments".toList] := by
    have hissues : issuesPath = '/' :: "issues".toList := by decide +kernel
    simp [LocalPath.comments, commentsPath, hissues, joinSep]
  have hpath : (unquote (LocalPath.comments number).text).splitOn '/' =
      [[], "issues".toList, decimal number, "comments".toList] := by
    rw [hplain, hparts]
    refine splitOn_joinSep '/' (by simp) fun t ht => ?_
    simp only [List.mem_cons, List.not_mem_nil, or_false] at ht
    rcases ht with rfl | rfl | rfl | rfl
    · decide
    · decide
    · exact not_mem_decimal number (by decide)
    · decide
  rw [parseGet, urlsplit_pageTarget, Option.bind_eq_bind, Option.bind_some]
  dsimp only
  rw [hpath]
  dsimp only
  rw [if_pos ⟨rfl, rfl⟩]

/-- A page of `/issues/{number}/comments`. -/
lemma parseGet_comments (rt : Runtime) {number page perPage : ℕ}
    (hnumber : 1 ≤ number ∧ (decimal number).length ≤ maxStrDigits)
    (hpage : 1 ≤ page) (hperPage : 1 ≤ perPage ∧ perPage ≤ maxPerPage)
    (hdigits : (decimal page).length ≤ maxStrDigits) :
    parseGet rt (localTarget (LocalPath.comments number).text (pageParams page perPage)) =
      some (.listComments number ⟨page, perPage, hpage, hperPage⟩) := by
  have hint : issueNumber rt (decimal number) = some number := by
    have hle : (1 : ℤ) ≤ number := by omega
    simp [issueNumber, decimal_ne_nil, rt.intParam_decimal number hnumber.2, Option.filter_some,
      hle]
  rw [parseGet_commentsTarget, hint, parse_pageParams rt hpage hperPage hdigits]
  rfl

/-- An issue number that the framework does not read is refused. -/
lemma parseGet_comments_of_unread (rt : Runtime) {number : ℕ}
    (hunread : rt.intParam (decimal number) = none) (page perPage : ℕ) :
    parseGet rt (localTarget (LocalPath.comments number).text (pageParams page perPage)) =
      none := by
  have hnumber : issueNumber rt (decimal number) = none := by
    simp [issueNumber, decimal_ne_nil, hunread]
  rw [parseGet_commentsTarget, hnumber]
  rfl

/-- And so is a page number. -/
lemma parseGet_comments_of_unreadPage (rt : Runtime) {page : ℕ}
    (hunread : rt.intParam (decimal page) = none) (number perPage : ℕ) :
    parseGet rt (localTarget (LocalPath.comments number).text (pageParams page perPage)) =
      none := by
  rw [parseGet_commentsTarget, parse_pageParams_of_unread rt perPage hunread]
  cases issueNumber rt (decimal number) <;> rfl

/-- Assigning the rewritten header. -/
lemma optionalHeader_linkHeader (base : LocalPath) (links : List GitHubLink) :
    optionalHeader "Link" (linkHeader (repointed base links)) =
      .ok ((linkHeader (repointed base links)).toList.map fun v => ("Link", v)) := by
  have hascii := isAscii_linkHeader_repointed base links
  rw [optionalHeader_of_ascii "Link" (by rwa [nonempty_linkHeader]), nonempty_linkHeader]

/-- The target of `rel="next"` among re-pointed links. -/
lemma PageLinks.get_next {links : List GitHubLink} {page perPage : ℕ} {more : Prop}
    [Decidable more] (h : PageLinks links page perPage more) (base : LocalPath) :
    Links.get ((repointed base links).map LinkValue.entry) "next".toList =
      if more then some (localTarget base.text (pageParams (page + 1) perPage)) else none := by
  have hrel : ∀ l : GitHubLink, (l.rel.name = "next".toList ↔ l.rel = .next) := fun l =>
    ⟨fun hname => LinkRel.name_injective hname, fun heq => by rw [heq]; rfl⟩
  have hfind : Links.get ((repointed base links).map LinkValue.entry) "next".toList =
      (links.find? fun l => l.rel = .next).map
        fun l => localTarget base.text (forwardedParams l.query) := by
    have hpred : ((fun p : Text × Text => decide (p.1 = "next".toList)) ∘ LinkValue.entry ∘
        fun l : GitHubLink => l.link.repoint base (forwardedParams l.query)) =
        fun l => decide (l.rel = .next) :=
      funext fun l => decide_eq_decide.mpr (hrel l)
    rw [Links.get, repointed, List.map_map, List.find?_map, hpred, Option.map_map]
    rfl
  rw [hfind]
  cases hnext : links.find? fun l => l.rel = .next with
  | none =>
    have hnone : ¬ more := by
      rw [← h.next_iff]
      rintro ⟨l, hl, hl'⟩
      simpa [hl'] using List.find?_eq_none.mp hnext l hl
    rw [if_neg hnone]
    rfl
  | some l =>
    have hl : l.rel = .next := by simpa using List.find?_some hnext
    have hmem := List.mem_of_find?_eq_some hnext
    rw [if_pos (h.next_iff.mp ⟨l, hmem, hl⟩), Option.map_some,
      (h.next_leads l hmem hl).forwardedParams]

/-- What a client does after a page with re-pointed links. -/
lemma PageLinks.nextRequest {links : List GitHubLink} {page perPage : ℕ} {more : Prop}
    [Decidable more] (h : PageLinks links page perPage more) (rt : Runtime) (base : LocalPath)
    {r : IssuesResponse} (hr : r.header "Link" = linkHeader (repointed base links)) :
    nextRequest rt r =
      if more then
        (parseGet rt (localTarget base.text (pageParams (page + 1) perPage))).map some
      else some none := by
  have hparse : parseLinkHeader (linkHeader (repointed base links)) =
      .ok ((repointed base links).map LinkValue.entry) := by
    by_cases hnone : repointed base links = []
    · rw [linkHeader, if_pos hnone, hnone]
      rfl
    · rw [linkHeader, if_neg hnone]
      refine parseLinkHeader_of_nodup ?_
      rw [repointed, List.map_map]
      exact h.names_nodup
  rw [IssuesApi.nextRequest, hr, hparse]
  dsimp only
  rw [h.get_next base]
  split_ifs <;> rfl

end IssuesApi

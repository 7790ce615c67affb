import IssuesApi.App
import IssuesApi.Cache
import IssuesApi.GitHubClient
import IssuesApi.Pagination

/-!
# Issue and comment routes (`app/routers/issues.py`)

Every handler awaits exactly one upstream call.  A handler is therefore two functions: `send`
runs up to the await (it validates nothing more, reads the cache and names the call), and
`receive` runs from the outcome of the call to the response.  What is alive across the await
is a `Call`.  In between, other requests run and share the cache.
-/

namespace IssuesApi

/-! ## Requests and responses -/

/-- The validated parameters of `list_issues`. -/
structure ListIssuesParams where
  state : IssueStateFilter
  labels : Option Text
  page : ℕ
  perPage : ℕ
  ifNoneMatch : Option Text
  page_valid : 1 ≤ page
  perPage_valid : 1 ≤ perPage ∧ perPage ≤ maxPerPage
  deriving DecidableEq

/-- The validated parameters of `list_comments`. -/
structure PageParams where
  page : ℕ
  perPage : ℕ
  page_valid : 1 ≤ page
  perPage_valid : 1 ≤ perPage ∧ perPage ≤ maxPerPage
  deriving DecidableEq

/-- An accepted request to one of the six GitHub-backed routes. -/
inductive IssuesRequest where
  | createIssue (payload : IssueCreate)
  | listIssues (params : ListIssuesParams)
  | getIssue (number : ℕ)
  | updateIssue (number : ℕ) (payload : IssuePatch)
  | createComment (number : ℕ) (payload : CommentCreate)
  | listComments (number : ℕ) (params : PageParams)

/-- The models the routes return, encoded. -/
inductive IssuesBody where
  | issue (issue : Issue Text)
  | issues (issues : List (Issue Text))
  | comment (comment : Comment Text)
  | comments (comments : List (Comment Text))
  deriving DecidableEq

abbrev IssuesResponse := Response IssuesBody

/-- `ISSUES_PATH`. -/
def issuesPath : Text := "/issues".toList

/-- `f"{ISSUES_PATH}/{number}/comments"`. -/
def commentsPath (number : ℕ) : Text :=
  issuesPath ++ '/' :: decimal number ++ "/comments".toList

/-! ## Query parameters -/

/-- The value of a scalar query parameter: the last one given. -/
def queryValue (pairs : List (Text × Text)) (name : String) : Option Text :=
  (valuesOf pairs name.toList).getLast?

/-- An integer parameter with a default and bounds; `none` is a validation error. -/
def intQuery (rt : Runtime) (pairs : List (Text × Text)) (name : String) (default : ℕ)
    (accepts : ℤ → Bool) : Option ℕ :=
  match queryValue pairs name with
  | none => some default
  | some text => ((rt.intParam text).filter accepts).map Int.toNat

/-- The `page` and `per_page` parameters both list routes declare. -/
def PageParams.parse (rt : Runtime) (query : Text) : Option PageParams := do
  let pairs := parseQsl true query
  let page ← intQuery rt pairs "page" 1 (fun n => 1 ≤ n)
  let perPage ← intQuery rt pairs "per_page" defaultPerPage (fun n => 1 ≤ n && n ≤ maxPerPage)
  if h : 1 ≤ page ∧ 1 ≤ perPage ∧ perPage ≤ maxPerPage then
    some ⟨page, perPage, h.1, h.2⟩
  else none

/-- The query parameters of `list_issues`; `none` is a validation error. -/
def ListIssuesParams.parse (rt : Runtime) (query : Text) (ifNoneMatch : Option Text) :
    Option ListIssuesParams := do
  let pairs := parseQsl true query
  let state ← match queryValue pairs "state" with
    | none => some .OPEN
    | some text => IssueStateFilter.ofText text
  let paging ← PageParams.parse rt query
  return { state, labels := queryValue pairs "labels", page := paging.page,
           perPage := paging.perPage, ifNoneMatch, page_valid := paging.page_valid,
           perPage_valid := paging.perPage_valid }

/-! ## Up to the await -/

/-- A request waiting for GitHub, with the cache entry it read. -/
structure Call where
  request : IssuesRequest
  cached : Option CachedList

/-- `(state.value, labels or "", page, per_page)`. -/
def cacheKey (p : ListIssuesParams) : CacheKey :=
  (p.state.value, p.labels.getD [], p.page, p.perPage)

/-- The upstream query of a list request. -/
def ListIssuesParams.upstream (p : ListIssuesParams) : ListQuery :=
  ⟨p.state, nonempty p.labels, p.page, p.perPage⟩

/-- `if_none_match or (cached.etag if cached else None)`. -/
def conditionalEtag (p : ListIssuesParams) (cached : Option CachedList) : Option Text :=
  match nonempty p.ifNoneMatch with
  | some tag => some tag
  | none => cached.map (·.etag)

/-- The first half of a handler. -/
def send (settings : Settings) (cache : ResponseCache) (req : IssuesRequest) :
    Call × ResponseCache :=
  match req with
  | .listIssues p =>
    if settings.cacheEnabled then
      let (cached, cache) := cache.get (cacheKey p)
      (⟨req, cached⟩, cache)
    else (⟨req, none⟩, cache)
  | _ => (⟨req, none⟩, cache)

/-- The call carries the request it answers. -/
lemma send_request (settings : Settings) (cache : ResponseCache) (req : IssuesRequest) :
    (send settings cache req).1.request = req := by
  unfold send
  split
  · split <;> rfl
  · rfl

/-- The client call a handler awaits. -/
def Call.upstream (call : Call) : UpstreamRequest :=
  match call.request with
  | .createIssue payload => .createIssue payload.modelDump
  | .listIssues p => .listIssues p.upstream (nonempty (conditionalEtag p call.cached))
  | .getIssue number => .getIssue number
  | .updateIssue number payload => .updateIssue number payload.toGithubPayload
  | .createComment number payload => .createComment number payload.body
  | .listComments number params => .listComments number params.page params.perPage

/-! ## From the outcome on -/

/-- `_not_found`. -/
def notFound (number : ℕ) : AppError :=
  NotFoundError.new
    ("Issue #".toList ++ decimal number ++ " does not exist in this repository.".toList)
    (.obj [(py "issue_number", .int number)]) []

/-- `value.encode("latin-1")`, which assigning to a response header does. -/
def encodeHeader (value : Text) : Except PyException Text :=
  if value.all (fun c => c.toNat < 256) then .ok value else raiseBuiltin .unicodeEncodeError

/-- `if value: response.headers[name] = value`. -/
def optionalHeader (name : String) (value : Option Text) :
    Except PyException (List (String × Text)) :=
  match nonempty value with
  | none => .ok []
  | some value => (encodeHeader value).map fun v => [(name, v)]

/-- An ASCII value is assigned as it is. -/
lemma optionalHeader_of_ascii (name : String) {value : Option Text}
    (hascii : ∀ v ∈ nonempty value, isAscii v = true) :
    optionalHeader name value = .ok ((nonempty value).toList.map fun v => (name, v)) := by
  unfold optionalHeader
  cases hvalue : nonempty value with
  | none => rfl
  | some v =>
    have hlatin : v.all (fun c => c.toNat < 256) = true := by
      refine List.all_eq_true.mpr fun c hc => ?_
      have hc' : c.toNat < 128 := by simpa using List.all_eq_true.mp (hascii v hvalue) c hc
      simpa using (by omega : c.toNat < 256)
    simp [encodeHeader, hlatin, Except.map]

/-- `X-Page` and `X-Per-Page`. -/
def pageHeaders (page perPage : ℕ) : List (String × Text) :=
  [("X-Page", decimal page), ("X-Per-Page", decimal perPage)]

/-- `[item for item in items if not is_pull_request(item)]`. -/
def withoutPullRequests : List Json → Except PyException (List Json)
  | [] => .ok []
  | item :: items => do
    let skip ← isPullRequest item
    let rest ← withoutPullRequests items
    return if skip then rest else item :: rest

/-- The end of `list_issues`: a page, served from the cache or not. -/
def renderPage (rt : Runtime) (p : ListIssuesParams) (xCache : String) (entry : CachedList) :
    Except PyException IssuesResponse := do
  let etag ← optionalHeader "ETag" (some entry.etag)
  let forwardedLink ← rewriteLinkHeader rt.netloc entry.link issuesPath
  let link ← optionalHeader "Link" forwardedLink
  let items ← withoutPullRequests entry.data
  let issues ← encodedIssues rt items
  return ⟨200, [("X-Cache", xCache.toList)] ++ etag ++ link ++ pageHeaders p.page p.perPage,
    .model (.issues issues)⟩

/-- Whether the upstream `304` answers the caller's own validator. -/
def answersCaller (p : ListIssuesParams) (cached : Option CachedList) : Option Text :=
  match nonempty p.ifNoneMatch with
  | some tag => if conditionalEtag p cached = some tag then some tag else none
  | none => none

/-- `list_issues`, after the await. -/
def receiveList (rt : Runtime) (settings : Settings) (now : ℚ) (p : ListIssuesParams)
    (cached : Option CachedList) (cache : ResponseCache) (outcome : UpstreamOutcome) :
    Except PyException IssuesResponse × ResponseCache :=
  match request rt now outcome with
  | .error e => (.error e, cache)
  | .ok result =>
    match result.notModified, answersCaller p cached, cached with
    | true, some tag, _ => (.ok ⟨304, [("ETag", tag)], .empty⟩, cache)
    | true, none, some entry => (renderPage rt p "HIT" entry, cache.recordHit)
    | _, _, _ =>
      match iterateOrEmpty result.data with
      | .error e => (.error e, cache)
      | .ok data =>
        let entry : CachedList := ⟨result.etag.getD [], data, result.link⟩
        let cache := cache.recordMiss
        let cache :=
          if settings.cacheEnabled ∧ entry.etag ≠ [] then cache.set (cacheKey p) entry else cache
        (renderPage rt p "MISS" entry, cache)

/-- `create_issue`, after the await. -/
def receiveCreateIssue (rt : Runtime) (result : GitHubResult) :
    Except PyException IssuesResponse := do
  let issue ← toIssue rt result.data
  let encoded ← issue.encoded
  return ⟨201, [("Location", issuesPath ++ '/' :: decimalInt issue.number)],
    .model (.issue encoded)⟩

/-- A single issue, unless it is a pull request: the end of `get_issue` and `update_issue`. -/
def issueOrNotFound (rt : Runtime) (number : ℕ) (data : Json) :
    Except PyException IssuesResponse := do
  if ← isPullRequest data then .error (.appError (notFound number))
  else
    let issue ← encodedIssue rt data
    return ⟨200, [], .model (.issue issue)⟩

/-- `get_issue`, after the await. -/
def receiveGetIssue (rt : Runtime) (number : ℕ) (result : GitHubResult) :
    Except PyException IssuesResponse := issueOrNotFound rt number result.data

/-- `update_issue`, after the await. -/
def receiveUpdateIssue (rt : Runtime) (number : ℕ) (result : GitHubResult) :
    Except PyException IssuesResponse := issueOrNotFound rt number result.data

/-- `create_comment`, after the await. -/
def receiveCreateComment (rt : Runtime) (number : ℕ) (result : GitHubResult) :
    Except PyException IssuesResponse := do
  let comment ← encodedComment rt (some number) result.data
  return ⟨201, [("Location", commentsPath number)], .model (.comment comment)⟩

/-- `list_comments`, after the await. -/
def receiveListComments (rt : Runtime) (number : ℕ) (p : PageParams) (result : GitHubResult) :
    Except PyException IssuesResponse := do
  let forwardedLink ← rewriteLinkHeader rt.netloc result.link (commentsPath number)
  let link ← optionalHeader "Link" forwardedLink
  let items ← iterateOrEmpty result.data
  let comments ← encodedComments rt (some number) items
  return ⟨200, link ++ pageHeaders p.page p.perPage, .model (.comments comments)⟩

/-- The second half of a handler. -/
def receive (rt : Runtime) (settings : Settings) (now : ℚ) (call : Call) (cache : ResponseCache)
    (outcome : UpstreamOutcome) : Except PyException IssuesResponse × ResponseCache :=
  match call.request with
  | .createIssue _ => (request rt now outcome >>= receiveCreateIssue rt, cache)
  | .listIssues p => receiveList rt settings now p call.cached cache outcome
  | .getIssue number => (request rt now outcome >>= receiveGetIssue rt number, cache)
  | .updateIssue number _ => (request rt now outcome >>= receiveUpdateIssue rt number, cache)
  | .createComment number _ => (request rt now outcome >>= receiveCreateComment rt number, cache)
  | .listComments number p => (request rt now outcome >>= receiveListComments rt number p, cache)

/-! ## What the handlers can raise after a response -/

lemma optionalHeader_builtin (name : String) (value : Option Text) :
    OnlyBuiltin (optionalHeader name value) := by
  unfold optionalHeader
  split
  · exact OnlyBuiltin.ok _
  · refine OnlyBuiltin.map ?_ _
    exact OnlyBuiltin.ite (fun _ => OnlyBuiltin.ok _) fun _ => OnlyBuiltin.raise _

lemma withoutPullRequests_builtin : ∀ items, OnlyBuiltin (withoutPullRequests items)
  | [] => OnlyBuiltin.ok _
  | item :: items =>
    (isPullRequest_builtin item).bind fun _ =>
      (withoutPullRequests_builtin items).bind fun _ => OnlyBuiltin.ok _

lemma renderPage_builtin (rt : Runtime) (p : ListIssuesParams) (xCache : String)
    (entry : CachedList) : OnlyBuiltin (renderPage rt p xCache entry) := by
  refine (optionalHeader_builtin _ _).bind fun _ => ?_
  refine (rewriteLinkHeader_builtin _ _ _).bind fun _ => ?_
  refine (optionalHeader_builtin _ _).bind fun _ => ?_
  refine (withoutPullRequests_builtin _).bind fun items => ?_
  exact (encodedIssues_builtin rt items).bind fun _ => OnlyBuiltin.ok _

lemma receiveCreateIssue_builtin (rt : Runtime) (result : GitHubResult) :
    OnlyBuiltin (receiveCreateIssue rt result) := by
  refine (toIssue_builtin rt result.data).bind fun issue => ?_
  exact (encodedOrRaise_builtin _).bind fun _ => OnlyBuiltin.ok _

lemma receiveCreateComment_builtin (rt : Runtime) (number : ℕ) (result : GitHubResult) :
    OnlyBuiltin (receiveCreateComment rt number result) :=
  (encodedComment_builtin rt (some number) result.data).bind fun _ => OnlyBuiltin.ok _

lemma receiveListComments_builtin (rt : Runtime) (number : ℕ) (p : PageParams)
    (result : GitHubResult) : OnlyBuiltin (receiveListComments rt number p result) := by
  refine (rewriteLinkHeader_builtin _ _ _).bind fun _ => ?_
  refine (optionalHeader_builtin _ _).bind fun _ => ?_
  refine (iterateOrEmpty_builtin _).bind fun items => ?_
  exact (encodedComments_builtin rt (some number) items).bind fun _ => OnlyBuiltin.ok _

/-- A page that is rendered is a 200 with the projections of what is no pull request. -/
lemma renderPage_eq_ok {rt : Runtime} {p : ListIssuesParams} {xCache : String} {entry : CachedList}
    {a : IssuesResponse} (h : renderPage rt p xCache entry = .ok a) :
    a.status = 200 ∧ ∃ kept issues, withoutPullRequests entry.data = .ok kept ∧
      kept.mapM (encodedIssue rt) = .ok issues ∧ a.body = .model (.issues issues) := by
  obtain ⟨_, -, h⟩ := bind_eq_ok.mp h
  obtain ⟨_, -, h⟩ := bind_eq_ok.mp h
  obtain ⟨_, -, h⟩ := bind_eq_ok.mp h
  obtain ⟨kept, hkept, h⟩ := bind_eq_ok.mp h
  obtain ⟨issues, hissues, h⟩ := bind_eq_ok.mp h
  obtain rfl := Except.ok.inj h
  exact ⟨rfl, kept, issues, hkept, encodedIssues_eq_ok.mp hissues, rfl⟩

end IssuesApi

import IssuesApi.Config
import IssuesApi.Schemas

/-!
# The GitHub client (`app/github_client.py`)

Six calls (`UpstreamRequest`), one function that interprets what comes back (`request`), and
the translation of upstream failures into the service's own errors (`mapError`).

`request` starts where the transport has already produced an outcome.  Time is the parameter
`now`, the value of `time.time()`.
-/

namespace IssuesApi

/-! ## What is sent -/

/-- The `params` of `list_issues`; `labels` is present only when it is nonempty. -/
structure ListQuery where
  state : IssueStateFilter
  labels : Option Text
  page : ℕ
  perPage : ℕ
  deriving DecidableEq

/-- A call of one of the six client methods. -/
inductive UpstreamRequest where
  | createIssue (payload : Json)
  | listIssues (params : ListQuery) (etag : Option Text)
  | getIssue (number : ℕ)
  | updateIssue (number : ℕ) (payload : Json)
  | createComment (number : ℕ) (body : Text)
  | listComments (number page perPage : ℕ)
  deriving DecidableEq

/-- What goes over the wire. -/
structure WireRequest where
  method : String
  path : Text
  json : Option Json
  params : List (String × Text)
  headers : List (String × Text)

/-- `_repo_path`. -/
def repoPath (settings : Settings) : Text :=
  "/repos/".toList ++ settings.githubOwner ++ '/' :: settings.githubRepo

/-- `_headers(extra)`. -/
def clientHeaders (settings : Settings) (extra : List (String × Text)) : List (String × Text) :=
  [("Accept", "application/vnd.github+json".toList),
    ("X-GitHub-Api-Version", settings.githubApiVersion),
    ("Authorization", "Bearer ".toList ++ settings.githubToken),
    ("User-Agent", "issues-api-testbed".toList)] ++ extra

/-- The query parameters of `list_issues`. -/
def ListQuery.params (q : ListQuery) : List (String × Text) :=
  [("state", q.state.value.toList), ("page", decimal q.page), ("per_page", decimal q.perPage)] ++
    match q.labels with
    | none => []
    | some labels => [("labels", labels)]

/-- The `json` argument of a client call. -/
def UpstreamRequest.json : UpstreamRequest → Option Json
  | .createIssue payload => some payload
  | .updateIssue _ payload => some payload
  | .createComment _ body => some (.obj [(py "body", .text body)])
  | _ => none

/-- The `headers` argument of a client call. -/
def UpstreamRequest.headers : UpstreamRequest → List (String × Text)
  | .listIssues _ (some tag) => [("If-None-Match", tag)]
  | _ => []

/-- Whether httpx can encode what a call brings with it: a header value as ASCII, a body as JSON.
The other headers are the same for every call. -/
def UpstreamRequest.encodable (rt : Runtime) (call : UpstreamRequest) : Bool :=
  call.headers.all (fun h => isAscii h.2) && call.json.all rt.sendable

/-- What is strict JSON and hardly nested can be sent. -/
lemma sendable_of_shallow (rt : Runtime) {value : Json} (hs : value.strict = true)
    (hd : value.depth ≤ 16) : rt.sendable value = true :=
  rt.sendable_of_strict value hs (hd.trans rt.encodeLimit_large)

/-- A patch can always be encoded. -/
lemma encodable_updateIssue (rt : Runtime) (number : ℕ) (payload : IssuePatch) :
    (UpstreamRequest.updateIssue number payload.toGithubPayload).encodable rt = true := by
  have hsend := sendable_of_shallow rt payload.toGithubPayload_strict
    (payload.toGithubPayload_depth.le.trans (by omega))
  simpa [UpstreamRequest.encodable, UpstreamRequest.headers, UpstreamRequest.json] using hsend

/-- So can a comment. -/
lemma encodable_createComment (rt : Runtime) (number : ℕ) (body : Text) :
    (UpstreamRequest.createComment number body).encodable rt = true := by
  have hsend : rt.sendable (.obj [(py "body", .text body)]) = true :=
    sendable_of_shallow rt (by simp [Json.strict, Json.strictFields])
      (by simp [Json.depth, Json.depthFields])
  simpa [UpstreamRequest.encodable, UpstreamRequest.headers, UpstreamRequest.json] using hsend

/-- Method, path, body, query and headers of a client call. -/
def UpstreamRequest.wire (settings : Settings) (call : UpstreamRequest) : WireRequest :=
  let headers := clientHeaders settings call.headers
  match call with
  | .createIssue _ => ⟨"POST", repoPath settings ++ "/issues".toList, call.json, [], headers⟩
  | .listIssues params _ =>
    ⟨"GET", repoPath settings ++ "/issues".toList, call.json, params.params, headers⟩
  | .getIssue number =>
    ⟨"GET", repoPath settings ++ "/issues/".toList ++ decimal number, call.json, [], headers⟩
  | .updateIssue number _ =>
    ⟨"PATCH", repoPath settings ++ "/issues/".toList ++ decimal number, call.json, [], headers⟩
  | .createComment number _ =>
    ⟨"POST", repoPath settings ++ "/issues/".toList ++ decimal number ++ "/comments".toList,
      call.json, [], headers⟩
  | .listComments number page perPage =>
    ⟨"GET", repoPath settings ++ "/issues/".toList ++ decimal number ++ "/comments".toList,
      call.json, [("page", decimal page), ("per_page", decimal perPage)], headers⟩

/-! ## What comes back -/

/-- Response headers under lower-case names. -/
abbrev Headers := List (String × Text)

/-- `headers.get(name)`: the values of a repeated header are joined. -/
def Headers.get (headers : Headers) (name : String) : Option Text :=
  match headers.filter (fun h => h.1 = name) with
  | [] => none
  | hs => some (joinSep ", ".toList (hs.map (·.2)))

/-- An HTTP response from GitHub. -/
structure UpstreamResponse where
  statusCode : ℕ
  headers : Headers
  content : Bytes
  reasonPhrase : Text
  deriving DecidableEq

/-- What the transport makes of a call. -/
inductive UpstreamOutcome where
  /-- `UnicodeEncodeError`: a header or the body of the call has no encoding, and nothing was
  sent. -/
  | unencodable
  /-- `httpx.TimeoutException`. -/
  | timeout
  /-- Any other `httpx.HTTPError`, by the name of its class. -/
  | transportError (name : Text)
  | response (r : UpstreamResponse)
  deriving DecidableEq

/-- `GitHubResult`. -/
structure GitHubResult where
  statusCode : ℕ
  data : Json
  headers : Headers

def GitHubResult.etag (r : GitHubResult) : Option Text := r.headers.get "etag"

def GitHubResult.link (r : GitHubResult) : Option Text := r.headers.get "link"

def GitHubResult.notModified (r : GitHubResult) : Bool := r.statusCode = 304

/-! ## Error mapping -/

/-- `except ValueError: return default` around `json.loads`. -/
def loadsOr {α : Type} (rt : Runtime) (content : Bytes) (default : α) (f : Json → α) :
    Except PyException α :=
  match rt.loads content with
  | .ok value => .ok (f value)
  | .error e => if e.exception.isValueError then .ok default else raiseBuiltin e.exception

/-- `_error_payload`. -/
def errorPayload (rt : Runtime) (r : UpstreamResponse) :
    Except PyException (List (PyStr × Json)) :=
  loadsOr rt r.content [] fun
    | .obj fields => fields
    | _ => []

/-- `_is_rate_limited`. -/
def isRateLimited (r : UpstreamResponse) : Bool :=
  r.statusCode = 429 ||
    (r.headers.get "x-ratelimit-remaining").any (fun remaining => strip remaining = ['0']) ||
    (r.headers.get "retry-after").isSome

/-- `max(1, int(x))` under `except ValueError: pass`; the argument is `none` when computing it
already raised `ValueError`. -/
def wholeSeconds : Option PyFloat → Except PyException (Option ℤ)
  | none => .ok none
  | some x =>
    match x.toInt with
    | .ok n => .ok (some (max 1 n))
    | .error .valueError => .ok none
    | .error .overflowError => raiseBuiltin .overflowError

/-- The reading of an optional header; an empty one counts as absent. -/
def headerSeconds (raw : Option Text) (read : Text → Option PyFloat) :
    Except PyException (Option ℤ) :=
  match raw with
  | some (c :: text) => wholeSeconds (read (c :: text))
  | _ => .ok none

/-- `_retry_after_seconds`. -/
def retryAfterSeconds (now : ℚ) (r : UpstreamResponse) : Except PyException ℤ := do
  match ← headerSeconds (r.headers.get "retry-after") floatOfText with
  | some seconds => return seconds
  | none =>
    match ← headerSeconds (r.headers.get "x-ratelimit-reset")
        (fun text => (floatOfText text).map (·.subFinite now)) with
    | some seconds => return seconds
    | none => return 60

/-- `payload.get("message") or response.reason_phrase`. -/
def upstreamMessage (payload : List (PyStr × Json)) (r : UpstreamResponse) : Json :=
  let message := (dictGet payload "message").getD .null
  if message.truthy then message else .text r.reasonPhrase

/-- The `details` every mapped error carries. -/
def upstreamDetails (payload : List (PyStr × Json)) (r : UpstreamResponse) :
    List (PyStr × Json) :=
  let errors := (dictGet payload "errors").getD .null
  [(py "upstream_status", .int r.statusCode), (py "upstream_message", upstreamMessage payload r)] ++
    if errors.truthy then [(py "upstream_errors", errors)] else []

/-- The error of a rate-limited response. -/
def rateLimitedError (details : List (PyStr × Json)) (retryAfter : ℤ) : AppError :=
  RateLimitedError.new
    ("GitHub API rate limit exceeded. Retry in ".toList ++ decimalInt retryAfter ++ "s.".toList)
    (.obj (details ++ [(py "retry_after_seconds", .int retryAfter)]))
    [("Retry-After", decimalInt retryAfter)]

/-- `_map_error`. -/
def mapError (rt : Runtime) (now : ℚ) (r : UpstreamResponse) : Except PyException AppError := do
  let payload ← errorPayload rt r
  let details := upstreamDetails payload r
  if r.statusCode = 401 then
    return UnauthorizedError.new
      ("GitHub rejected the configured token. Check GITHUB_TOKEN is set, unexpired, " ++
        "and has Issues: read & write on this repository.").toList (.obj details) []
  else if (r.statusCode = 403 ∨ r.statusCode = 429) ∧ isRateLimited r then
    let retryAfter ← retryAfterSeconds now r
    return rateLimitedError details retryAfter
  else if r.statusCode = 403 then
    return ForbiddenError.new
      "GitHub refused this request. The token is valid but lacks permission for it.".toList
      (.obj details) []
  else if r.statusCode = 404 then
    return NotFoundError.new
      ("The requested issue or repository does not exist, " ++
        "or the token cannot see it.").toList (.obj details) []
  else if r.statusCode = 410 ∨ r.statusCode = 422 then
    return ValidationError.new "GitHub rejected the request payload as invalid.".toList
      (.obj details) []
  else if 500 ≤ r.statusCode then
    return UpstreamUnavailableError.new
      "GitHub returned a server error. This is upstream, not your request.".toList
      (.obj details) []
  else
    return ⟨502, "upstream_error",
      "Unexpected response from GitHub (".toList ++ decimal r.statusCode ++ ").".toList,
      .obj details, []⟩

/-! ## `_request` -/

/-- `_decode`: anything that is no JSON becomes `None`. -/
def decode (rt : Runtime) (r : UpstreamResponse) : Except PyException Json :=
  if r.statusCode = 204 ∨ r.statusCode = 304 ∨ r.content = [] then .ok .null
  else loadsOr rt r.content .null id

/-- A document is decoded to what `json.loads` makes of it. -/
lemma decode_of_loads {rt : Runtime} {content : Bytes} {value : Json}
    (h : rt.loads content = .ok value) (headers : Headers) (reasonPhrase : Text) :
    decode rt ⟨200, headers, content, reasonPhrase⟩ = .ok value := by
  have hne : content ≠ [] := by
    rintro rfl
    rw [rt.loads_nil] at h
    cases h
  rw [decode, if_neg (by simp [hne]), loadsOr, h]
  rfl

/-- The error of a call that got no response. -/
def unreachable (message : Text) (upstream : Text) : AppError :=
  UpstreamUnavailableError.new message (.obj [(py "upstream", .text upstream)]) []

/-- `_request`, from the transport's outcome on. -/
def request (rt : Runtime) (now : ℚ) : UpstreamOutcome → Except PyException GitHubResult
  -- no `httpx.HTTPError`, so that neither `except` applies
  | .unencodable => raiseBuiltin .unicodeEncodeError
  | .timeout =>
    .error (.appError (unreachable "Timed out talking to the GitHub API. Please retry.".toList
      "timeout".toList))
  | .transportError name =>
    .error (.appError (unreachable "Could not reach the GitHub API.".toList name))
  | .response r =>
    if 400 ≤ r.statusCode then do
      let error ← mapError rt now r
      .error (.appError error)
    else do
      let data ← decode rt r
      return ⟨r.statusCode, data, r.headers⟩

/-- A successful answer with a document. -/
lemma request_of_loads {rt : Runtime} {content : Bytes} {value : Json}
    (h : rt.loads content = .ok value) (now : ℚ) (headers : Headers) (reasonPhrase : Text) :
    request rt now (.response ⟨200, headers, content, reasonPhrase⟩) =
      .ok ⟨200, value, headers⟩ := by
  rw [request, if_neg (by simp), decode_of_loads h]
  rfl

/-! ## What a call can raise -/

lemma loadsOr_builtin {α : Type} (rt : Runtime) (content : Bytes) (default : α) (f : Json → α) :
    OnlyBuiltin (loadsOr rt content default f) := by
  unfold loadsOr
  split
  · exact OnlyBuiltin.ok _
  · exact OnlyBuiltin.ite (fun _ => OnlyBuiltin.ok _) fun _ => OnlyBuiltin.raise _

lemma decode_builtin (rt : Runtime) (r : UpstreamResponse) : OnlyBuiltin (decode rt r) :=
  OnlyBuiltin.ite (fun _ => OnlyBuiltin.ok _) fun _ => loadsOr_builtin rt _ _ _

end IssuesApi

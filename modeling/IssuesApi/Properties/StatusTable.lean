import IssuesApi.Reference
import IssuesApi.Routers.Issues

/-!
# The upstream status table

`designTable` is the table of `DESIGN.md`: the status and code a client gets for each upstream
failure.  `meetsTable_iff` says for which failures the service gives that answer: every timeout
and transport error, and the responses of status 400 to 599 whose body can be read and
reported and whose waiting time, if it is needed, is no infinite float.

The other responses miss it in four ways.  `_request` starts to map errors at 400, so a
redirect passes for a success.  From 600 on, `status >= 500` is true, so an unassigned status
is reported like a server error.  And the body's `message` and `errors` are copied into the
envelope, which cannot be rendered when they hold a lone surrogate, an infinity or NaN, or are
nested too deeply.  Last, `int` raises `OverflowError` on an infinite waiting time, and
`_retry_after_seconds` catches `ValueError` only.
-/

namespace IssuesApi

/-! ## The table -/

/-- Quota used up: `x-ratelimit-remaining: 0`, or a `Retry-After`. -/
def quotaExhausted (r : UpstreamResponse) : Bool :=
  (r.headers.get "x-ratelimit-remaining").any (fun remaining => strip remaining = ['0']) ||
    (r.headers.get "retry-after").isSome

/-- The table: upstream failure to status and code. -/
def designTable : UpstreamOutcome → ℕ × String
  | .unencodable => (502, "upstream_error")
  | .timeout => (503, "upstream_unavailable")
  | .transportError _ => (503, "upstream_unavailable")
  | .response r =>
    if r.statusCode = 401 then (401, "unauthorized")
    else if r.statusCode = 429 then (429, "rate_limited")
    else if r.statusCode = 403 then
      if quotaExhausted r then (429, "rate_limited") else (403, "forbidden")
    else if r.statusCode = 404 then (404, "not_found")
    else if r.statusCode = 410 ∨ r.statusCode = 422 then (400, "validation_error")
    else if 500 ≤ r.statusCode ∧ r.statusCode ≤ 599 then (503, "upstream_unavailable")
    else (502, "upstream_error")

/-- The call asks GitHub for a listing unless it still has the given tag. -/
def Call.Conditional (call : Call) : Prop :=
  ∃ query tag, call.upstream = .listIssues query (some tag)

/-- The outcomes that are no success of the call.  A call that was never sent has none. -/
def IsFailure (call : Call) : UpstreamOutcome → Prop
  | .unencodable => False
  | .timeout => True
  | .transportError _ => True
  | .response r => 300 ≤ r.statusCode ∧ ¬ (r.statusCode = 304 ∧ call.Conditional)

/-- The answer has the status and the code of the table. -/
def MeetsTable (rt : Runtime) (settings : Settings) (now : ℚ) (requestId : Text) (call : Call)
    (cache : ResponseCache) (outcome : UpstreamOutcome) : Prop :=
  let answer := respond rt requestId (receive rt settings now call cache outcome).1
  answer.status = (designTable outcome).1 ∧
    answer.errorCode = some (py (designTable outcome).2)

/-- A value that can stand among the details of an envelope. -/
def Reportable (rt : Runtime) (value : Json) : Prop :=
  value.strict = true ∧ value.depth + 3 ≤ rt.encodeLimit

/-- What the body contributes to the details can be read and reported. -/
def RenderableError (rt : Runtime) (content : Bytes) : Prop :=
  match rt.loads content with
  | .error e => e ≠ .recursionError
  | .ok (.obj fields) =>
    ∀ key ∈ ["message", "errors"], ∀ value ∈ dictGet fields key, value.truthy = true →
      Reportable rt value
  | .ok _ => True

/-- The number a header holds; `none` when it is absent or `float` rejects it. -/
def announced (r : UpstreamResponse) (name : String) : Option PyFloat :=
  (r.headers.get name).bind floatOfText

/-- The waiting time of the response: the number in `Retry-After` or, when that holds none, what
is left until the reset time. -/
def announcedWait (now : ℚ) (r : UpstreamResponse) : Option PyFloat :=
  match announced r "retry-after" with
  | none | some .nan => (announced r "x-ratelimit-reset").map (·.subFinite now)
  | number => number

/-- The waiting time is no infinity. -/
def FiniteWait (now : ℚ) (r : UpstreamResponse) : Prop :=
  ∀ negative, announcedWait now r ≠ some (.inf negative)

/-- `_map_error` computes the waiting time of the response. -/
def Limited (r : UpstreamResponse) : Prop :=
  (r.statusCode = 403 ∨ r.statusCode = 429) ∧ isRateLimited r = true

/-- The failures for which the service keeps to the table. -/
def Mapped (rt : Runtime) (now : ℚ) : UpstreamOutcome → Prop
  | .unencodable => False
  | .timeout => True
  | .transportError _ => True
  | .response r => 400 ≤ r.statusCode ∧ r.statusCode ≤ 599 ∧ RenderableError rt r.content ∧
    (Limited r → FiniteWait now r)

variable {rt : Runtime} {settings : Settings} {now : ℚ} {requestId : Text} {call : Call}
  {cache : ResponseCache} {r : UpstreamResponse}

/-! ## The error of a failed response -/

/-- What `_map_error` makes of a status: like the table, but every status from 500 on counts as
a server error. -/
def mappedTo (r : UpstreamResponse) : ℕ × String :=
  if 500 ≤ r.statusCode then (503, "upstream_unavailable") else designTable (.response r)

lemma floatOfText_nil : floatOfText [] = none := rfl

/-- An empty header needs no case of its own. -/
lemma headerSeconds_eq {raw : Option Text} {read : Text → Option PyFloat} (h : read [] = none) :
    headerSeconds raw read = wholeSeconds (raw.bind read) := by
  match raw with
  | none => rfl
  | some [] =>
    rw [Option.bind_some, h]
    rfl
  | some (c :: t) => rfl

/-- The whole seconds of a number: there are some, or it is NaN or absent, or infinite. -/
lemma wholeSeconds_cases (number : Option PyFloat) :
    (∃ q, number.bind PyFloat.value? = some q ∧
        wholeSeconds number = .ok (some (max 1 (truncate q)))) ∨
      (number.bind PyFloat.value? = none ∧ (∀ negative, number ≠ some (.inf negative)) ∧
        wholeSeconds number = .ok none) ∨
      (∃ negative, number = some (.inf negative)) ∧
        wholeSeconds number = raiseBuiltin .overflowError := by
  cases number with
  | none => exact Or.inr (Or.inl ⟨rfl, by simp, rfl⟩)
  | some x =>
    rcases x.value?_cases with ⟨q, hq⟩ | ⟨negative, rfl⟩ | rfl
    · refine Or.inl ⟨q, hq, ?_⟩
      rw [wholeSeconds, PyFloat.toInt_of_value? hq]
    · exact Or.inr (Or.inr ⟨⟨negative, rfl⟩, rfl⟩)
    · exact Or.inr (Or.inl ⟨rfl, by simp, rfl⟩)

/-- The waiting time, in terms of the two numbers. -/
lemma retryAfterSeconds_eq (now : ℚ) (r : UpstreamResponse) :
    retryAfterSeconds now r =
      wholeSeconds (announcedWait now r) >>= fun seconds => .ok (seconds.getD 60) := by
  have hreset : headerSeconds (r.headers.get "x-ratelimit-reset")
      (fun text => (floatOfText text).map (·.subFinite now)) =
      wholeSeconds ((announced r "x-ratelimit-reset").map (·.subFinite now)) := by
    rw [headerSeconds_eq rfl, announced, Option.map_bind]
    rfl
  rw [retryAfterSeconds, headerSeconds_eq floatOfText_nil, hreset, ← announced, announcedWait]
  generalize (announced r "x-ratelimit-reset").map (·.subFinite now) = reset
  rcases announced r "retry-after" with _ | q | _ | negative | _
  -- without a usable number the reset time is read, and 60 is what remains
  case none =>
    dsimp only
    rcases wholeSeconds reset with e | _ | n <;> rfl
  case some.nan =>
    dsimp only
    rcases wholeSeconds reset with e | _ | n <;> rfl
  all_goals rfl

/-- A finite waiting time is found, an infinite one raises `OverflowError`. -/
lemma retryAfterSeconds_cases (now : ℚ) (r : UpstreamResponse) :
    (FiniteWait now r ∧ ∃ n, retryAfterSeconds now r = .ok n) ∨
      (¬ FiniteWait now r ∧ retryAfterSeconds now r = raiseBuiltin .overflowError) := by
  rw [retryAfterSeconds_eq, FiniteWait]
  rcases wholeSeconds_cases (announcedWait now r) with
    ⟨q, hq, hseconds⟩ | ⟨-, hfinite, hseconds⟩ | ⟨⟨negative, hinf⟩, hseconds⟩
  · refine Or.inl ⟨fun negative h => ?_, _, by rw [hseconds, ok_bind]⟩
    rw [h] at hq
    cases hq
  · exact Or.inl ⟨hfinite, _, by rw [hseconds, ok_bind]⟩
  · exact Or.inr ⟨fun h => h negative hinf, by rw [hseconds]; rfl⟩

/-- A field of the details that adds nothing that could fail. -/
lemma encodableDetails_append {a b : List (PyStr × Json)} (hs : Json.strictFields b = true)
    (hd : Json.depthFields b = 0) :
    rt.encodableDetails (.obj (a ++ b)) = rt.encodableDetails (.obj a) := by
  have hstrict : (Json.obj (a ++ b)).strict = (Json.obj a).strict := by
    simp [Json.strict, Json.strictFields_append, hs]
  have hdepth : (Json.obj (a ++ b)).depth = (Json.obj a).depth := by
    simp [Json.depth, Json.depthFields_append, hd]
  rw [Runtime.encodableDetails, Runtime.encodableDetails, hstrict, hdepth]

lemma isRateLimited_eq (r : UpstreamResponse) :
    isRateLimited r = (decide (r.statusCode = 429) || quotaExhausted r) := by
  simp [isRateLimited, quotaExhausted, Bool.or_assoc]

/-- The error of a rate-limited response, once its body is read. -/
lemma mapError_of_limited {payload : List (PyStr × Json)}
    (hpayload : errorPayload rt r = .ok payload) (hlimited : Limited r) :
    mapError rt now r = retryAfterSeconds now r >>= fun n =>
      .ok (rateLimitedError (upstreamDetails payload r) n) := by
  obtain ⟨hstatus, hrate⟩ := hlimited
  have h401 : r.statusCode ≠ 401 := by omega
  unfold mapError
  rw [hpayload, ok_bind]
  dsimp only
  rw [if_neg h401, if_pos ⟨hstatus, hrate⟩]
  rfl

/-- A limited response is a row of its own. -/
lemma mappedTo_of_limited (hlimited : Limited r) : mappedTo r = (429, "rate_limited") := by
  obtain ⟨hstatus, hrate⟩ := hlimited
  rw [isRateLimited_eq] at hrate
  rcases hstatus with h | h
  · have hq : quotaExhausted r = true := by simpa [h] using hrate
    simp [mappedTo, designTable, h, hq]
  · simp [mappedTo, designTable, h]

/-- **The error a failed response is mapped to.** -/
lemma mapError_spec {payload : List (PyStr × Json)} (hpayload : errorPayload rt r = .ok payload)
    (hwait : Limited r → FiniteWait now r) :
    ∃ e, mapError rt now r = .ok e ∧ (e.statusCode, e.code) = mappedTo r ∧
      rt.encodableDetails e.details = rt.encodableDetails (.obj (upstreamDetails payload r)) := by
  by_cases hlimited : Limited r
  · obtain ⟨n, hn⟩ : ∃ n, retryAfterSeconds now r = .ok n := by
      rcases retryAfterSeconds_cases now r with ⟨-, hn⟩ | ⟨hinf, -⟩
      · exact hn
      · exact absurd (hwait hlimited) hinf
    rw [mapError_of_limited hpayload hlimited, hn, ok_bind, mappedTo_of_limited hlimited]
    refine ⟨rateLimitedError (upstreamDetails payload r) n, rfl, rfl, ?_⟩
    exact encodableDetails_append (by simp [Json.strictFields, Json.strict]) rfl
  unfold Limited at hlimited
  unfold mapError
  rw [hpayload, ok_bind]
  dsimp only
  by_cases h401 : r.statusCode = 401
  · rw [if_pos h401]
    refine ⟨_, rfl, ?_, rfl⟩
    simp [mappedTo, designTable, h401, UnauthorizedError]
  rw [if_neg h401, if_neg hlimited]
  rw [isRateLimited_eq] at hlimited
  by_cases h403 : r.statusCode = 403
  · rw [if_pos h403]
    have hq : quotaExhausted r = false := by simpa [h403] using hlimited
    refine ⟨_, rfl, ?_, rfl⟩
    simp [mappedTo, designTable, h403, hq, ForbiddenError]
  rw [if_neg h403]
  have h429 : r.statusCode ≠ 429 := fun h => hlimited ⟨Or.inr h, by simp [h]⟩
  by_cases h404 : r.statusCode = 404
  · rw [if_pos h404]
    refine ⟨_, rfl, ?_, rfl⟩
    simp [mappedTo, designTable, h404, NotFoundError]
  rw [if_neg h404]
  by_cases h4xx : r.statusCode = 410 ∨ r.statusCode = 422
  · rw [if_pos h4xx]
    refine ⟨_, rfl, ?_, rfl⟩
    rcases h4xx with h | h <;> simp [mappedTo, designTable, h, ValidationError]
  rw [if_neg h4xx]
  by_cases h5xx : 500 ≤ r.statusCode
  · rw [if_pos h5xx]
    refine ⟨_, rfl, ?_, rfl⟩
    simp [mappedTo, h5xx, UpstreamUnavailableError]
  · rw [if_neg h5xx]
    refine ⟨_, rfl, ?_, rfl⟩
    simp [mappedTo, designTable, h401, h429, h403, h404, h4xx, h5xx]

/-- An infinite waiting time is not mapped at all. -/
lemma mapError_of_infinite {payload : List (PyStr × Json)}
    (hpayload : errorPayload rt r = .ok payload) (hlimited : Limited r)
    (hwait : ¬ FiniteWait now r) : mapError rt now r = raiseBuiltin .overflowError := by
  have hraise : retryAfterSeconds now r = raiseBuiltin .overflowError := by
    rcases retryAfterSeconds_cases now r with ⟨hfin, -⟩ | ⟨-, h⟩
    · exact absurd hfin hwait
    · exact h
  rw [mapError_of_limited hpayload hlimited, hraise]
  rfl

/-! ## What the body contributes -/

lemma forall_dictGet_iff {fields : List (PyStr × Json)} {key : String} {p : Json → Prop} :
    (∀ value ∈ dictGet fields key, value.truthy = true → p value) ↔
      (((dictGet fields key).getD .null).truthy = true → p ((dictGet fields key).getD .null)) := by
  cases dictGet fields key with
  | none => simp [Json.truthy]
  | some value => simp

/-- The reason phrase, or a message, among the details. -/
lemma upstreamMessage_iff {fields : List (PyStr × Json)} :
    ((upstreamMessage fields r).strict = true ∧
        (upstreamMessage fields r).depth + 3 ≤ rt.encodeLimit) ↔
      ∀ value ∈ dictGet fields "message", value.truthy = true → Reportable rt value := by
  have hlimit := rt.encodeLimit_large
  rw [forall_dictGet_iff]
  simp only [upstreamMessage, Reportable]
  split_ifs with h
  · simp [h]
  · simp only [h, Bool.false_eq_true, false_imp_iff, iff_true, Json.strict_text,
      Json.depth_text, true_and]
    omega

/-- The details can be sent exactly when both contributions can. -/
lemma encodable_upstreamDetails {fields : List (PyStr × Json)} :
    rt.encodableDetails (.obj (upstreamDetails fields r)) = true ↔
      ∀ key ∈ ["message", "errors"], ∀ value ∈ dictGet fields key, value.truthy = true →
        Reportable rt value := by
  simp only [List.forall_mem_cons, List.not_mem_nil, false_imp_iff, forall_const, and_true,
    ← @upstreamMessage_iff rt r]
  rw [forall_dictGet_iff]
  simp only [upstreamDetails, Reportable, Runtime.encodableDetails]
  split_ifs with h
  · simp only [h, Json.strict, Json.depth, List.cons_append, List.nil_append, Json.strictFields,
      Json.depthFields, PyStr.isSome_toText?_py, Bool.true_and, Bool.and_true, Bool.and_eq_true,
      decide_eq_true_eq, true_imp_iff, Nat.zero_max, Nat.max_zero]
    constructor
    · rintro ⟨⟨hm, he⟩, hd⟩
      exact ⟨⟨hm, by omega⟩, he, by omega⟩
    · rintro ⟨⟨hm, hmd⟩, he, hed⟩
      exact ⟨⟨hm, he⟩, by omega⟩
  · simp only [h, Json.strict, Json.depth, List.append_nil, Json.strictFields, Json.depthFields,
      PyStr.isSome_toText?_py, Bool.true_and, Bool.and_true, Bool.and_eq_true, decide_eq_true_eq,
      Nat.zero_max, Nat.max_zero, Bool.false_eq_true, false_imp_iff, and_true]

/-- A body is renderable when `_error_payload` reads it and the details made of it can be
sent. -/
lemma renderableError_iff :
    RenderableError rt r.content ↔ ∃ payload, errorPayload rt r = .ok payload ∧
      rt.encodableDetails (.obj (upstreamDetails payload r)) = true := by
  have hempty : rt.encodableDetails (.obj (upstreamDetails [] r)) = true := by
    rw [encodable_upstreamDetails]
    simp [dictGet]
  unfold RenderableError errorPayload loadsOr
  cases rt.loads r.content with
  | error e =>
    cases e with
    | recursionError => simp [LoadsError.exception, BuiltinError.isValueError, raiseBuiltin]
    | _ => simp [LoadsError.exception, BuiltinError.isValueError, hempty]
  | ok value =>
    cases value with
    | obj fields =>
      simp only [Except.ok.injEq, exists_eq_left', encodable_upstreamDetails]
    | _ => simp only [Except.ok.injEq, exists_eq_left', hempty]

/-- An unreadable body makes the mapping itself raise. -/
lemma mapError_of_unreadable (h : ∀ payload, errorPayload rt r ≠ .ok payload) :
    ∃ b, mapError rt now r = .error (.builtin b) := by
  cases hp : errorPayload rt r with
  | ok payload => exact absurd hp (h payload)
  | error e =>
    obtain ⟨b, rfl⟩ := loadsOr_builtin rt _ _ _ e hp
    exact ⟨b, by rw [mapError, hp, error_bind]⟩

/-! ## What the handlers make of a response that passed for a success -/

/-- An answer that is certainly not a 502: a success, a 404, or an internal error. -/
def Settled (x : Except PyException IssuesResponse) : Prop :=
  (∃ r, x = .ok r ∧ r.status < 400) ∨ (∃ n, x = .error (.appError (notFound n))) ∨
    ∃ b, x = .error (.builtin b)

lemma settled_of_onlyBuiltin {x : Except PyException IssuesResponse} (h : OnlyBuiltin x)
    (hok : ∀ r, x = .ok r → r.status < 400) : Settled x := by
  cases hx : x with
  | ok r => exact Or.inl ⟨r, rfl, hok r hx⟩
  | error e =>
    obtain ⟨b, rfl⟩ := h e hx
    exact Or.inr (Or.inr ⟨b, rfl⟩)

lemma renderPage_settled (p : ListIssuesParams) (xCache : String) (entry : CachedList) :
    Settled (renderPage rt p xCache entry) :=
  settled_of_onlyBuiltin (renderPage_builtin rt p xCache entry) fun _ h => by
    rw [(renderPage_eq_ok h).1]
    omega

lemma receiveList_settled {outcome : UpstreamOutcome} {result : GitHubResult}
    (h : request rt now outcome = .ok result) (p : ListIssuesParams)
    (cached : Option CachedList) :
    Settled (receiveList rt settings now p cached cache outcome).1 := by
  unfold receiveList
  rw [h]
  dsimp only
  split
  · exact Or.inl ⟨_, rfl, (by omega : 304 < 400)⟩
  · exact renderPage_settled _ _ _
  · split
    · next e he =>
      obtain ⟨b, rfl⟩ := iterateOrEmpty_builtin _ e he
      exact Or.inr (Or.inr ⟨b, rfl⟩)
    · exact renderPage_settled _ _ _

lemma issueOrNotFound_settled (number : ℕ) (data : Json) :
    Settled (issueOrNotFound rt number data) := by
  unfold issueOrNotFound
  cases hpr : isPullRequest data with
  | error e =>
    obtain ⟨b, rfl⟩ := isPullRequest_builtin data e hpr
    exact Or.inr (Or.inr ⟨b, rfl⟩)
  | ok isPr =>
    rw [ok_bind]
    cases isPr with
    | true => exact Or.inr (Or.inl ⟨number, rfl⟩)
    | false =>
      apply settled_of_onlyBuiltin ((encodedIssue_builtin rt data).bind fun _ => OnlyBuiltin.ok _)
      intro r hr
      obtain ⟨issue, -, hr⟩ := bind_eq_ok.mp hr
      obtain rfl := Except.ok.inj hr
      show 200 < 400
      omega

lemma receiveCreateIssue_settled (result : GitHubResult) :
    Settled (receiveCreateIssue rt result) := by
  apply settled_of_onlyBuiltin (receiveCreateIssue_builtin rt result)
  intro r hr
  obtain ⟨_, -, hr⟩ := bind_eq_ok.mp hr
  obtain ⟨_, -, hr⟩ := bind_eq_ok.mp hr
  obtain rfl := Except.ok.inj hr
  show 201 < 400
  omega

lemma receiveCreateComment_settled (number : ℕ) (result : GitHubResult) :
    Settled (receiveCreateComment rt number result) := by
  apply settled_of_onlyBuiltin (receiveCreateComment_builtin rt number result)
  intro r hr
  obtain ⟨comment, -, hr⟩ := bind_eq_ok.mp hr
  obtain rfl := Except.ok.inj hr
  show 201 < 400
  omega

lemma receiveListComments_settled (number : ℕ) (p : PageParams) (result : GitHubResult) :
    Settled (receiveListComments rt number p result) := by
  apply settled_of_onlyBuiltin (receiveListComments_builtin rt number p result)
  intro r hr
  obtain ⟨_, -, hr⟩ := bind_eq_ok.mp hr
  obtain ⟨_, -, hr⟩ := bind_eq_ok.mp hr
  obtain ⟨_, -, hr⟩ := bind_eq_ok.mp hr
  obtain ⟨_, -, hr⟩ := bind_eq_ok.mp hr
  obtain rfl := Except.ok.inj hr
  show 200 < 400
  omega

/-- No handler answers 502 to a response that `_request` let through. -/
lemma receive_settled {outcome : UpstreamOutcome} {result : GitHubResult}
    (h : request rt now outcome = .ok result) :
    Settled (receive rt settings now call cache outcome).1 := by
  unfold receive
  split
  · rw [h]; exact receiveCreateIssue_settled result
  · exact receiveList_settled h _ _
  · rw [h]; exact issueOrNotFound_settled _ _
  · rw [h]; exact issueOrNotFound_settled _ _
  · rw [h]; exact receiveCreateComment_settled _ _
  · rw [h]; exact receiveListComments_settled _ _ _

/-- A failed call fails the request, with the same exception. -/
lemma receive_of_error {outcome : UpstreamOutcome} {e : PyException}
    (h : request rt now outcome = .error e) :
    (receive rt settings now call cache outcome).1 = .error e := by
  unfold receive receiveList
  split <;> rw [h] <;> rfl

lemma respond_settled_status {x : Except PyException IssuesResponse} (h : Settled x) :
    (respond rt requestId x).status ≠ 502 := by
  rcases h with ⟨r, rfl, hr⟩ | ⟨n, rfl⟩ | ⟨b, rfl⟩
  · rw [respond_ok, Response.withHeader_status]
    omega
  · have henc : rt.encodableDetails (notFound n).details = true :=
      encodableDetails_member rt "issue_number" rfl rfl
    rw [respond_appError_status rt requestId henc]
    show 404 ≠ 502
    omega
  · rw [respond_builtin, unhandledHandler_status]
    omega

/-! ## The table, exactly -/

lemma designTable_status_ne_500 (outcome : UpstreamOutcome) : (designTable outcome).1 ≠ 500 := by
  cases outcome with
  | unencodable => decide
  | timeout => decide
  | transportError _ =>
    show 503 ≠ 500
    omega
  | response r =>
    dsimp only [designTable]
    split_ifs <;> simp

/-- The last two rows of the table. -/
lemma designTable_of_unlisted (h : r.statusCode ∉ [401, 429, 403, 404, 410, 422]) :
    designTable (.response r) =
      if 500 ≤ r.statusCode ∧ r.statusCode ≤ 599 then (503, "upstream_unavailable")
      else (502, "upstream_error") := by
  simp only [List.mem_cons, List.not_mem_nil, or_false, not_or] at h
  simp only [designTable, h, or_self, if_false]

/-- A status outside the 4xx range is not listed by its number. -/
lemma unlisted_of_range (h : r.statusCode < 400 ∨ 500 ≤ r.statusCode) :
    r.statusCode ∉ [401, 429, 403, 404, 410, 422] := by
  simp only [List.mem_cons, List.not_mem_nil, or_false]
  omega

lemma designTable_redirect (h : r.statusCode < 400) : (designTable (.response r)).1 = 502 := by
  rw [designTable_of_unlisted (unlisted_of_range (Or.inl h)), if_neg (by omega)]

/-- The mapping follows the table up to 599, and leaves it from 600 on. -/
lemma mappedTo_status_eq_iff (h : 400 ≤ r.statusCode) :
    (mappedTo r).1 = (designTable (.response r)).1 ↔ r.statusCode ≤ 599 := by
  unfold mappedTo
  split_ifs with h5
  · rw [designTable_of_unlisted (unlisted_of_range (Or.inr h5))]
    by_cases h6 : r.statusCode ≤ 599
    · rw [if_pos ⟨h5, h6⟩]
      exact iff_of_true rfl h6
    · rw [if_neg fun hrange => h6 hrange.2]
      exact iff_of_false (by simp) h6
  · exact iff_of_true rfl (by omega)

lemma mappedTo_eq (h : r.statusCode ≤ 599) : mappedTo r = designTable (.response r) := by
  unfold mappedTo
  split_ifs with h5
  · rw [designTable_of_unlisted (unlisted_of_range (Or.inr h5)), if_pos ⟨h5, h⟩]
  · rfl

lemma not_meetsTable_of_internal {outcome : UpstreamOutcome}
    (h : respond rt requestId (receive rt settings now call cache outcome).1 =
      unhandledHandler (some requestId)) :
    ¬ MeetsTable rt settings now requestId call cache outcome := by
  rintro ⟨hstatus, -⟩
  rw [h, unhandledHandler_status] at hstatus
  exact designTable_status_ne_500 outcome hstatus.symm

/-- A call that got no response. -/
lemma meetsTable_of_unreachable {outcome : UpstreamOutcome} {message name : Text}
    (h : request rt now outcome = .error (.appError (unreachable message name)))
    (htable : designTable outcome = (503, "upstream_unavailable")) :
    MeetsTable rt settings now requestId call cache outcome := by
  have henc : rt.encodableDetails (unreachable message name).details = true :=
    encodableDetails_member rt "upstream" (Json.strict_text name) rfl
  unfold MeetsTable
  dsimp only
  rw [receive_of_error h, respond_appError_status rt requestId henc,
    respond_appError_errorCode rt requestId henc, htable]
  exact ⟨rfl, rfl⟩

/-- An error response that ends in a built-in exception misses the table. -/
lemma not_meetsTable_of_raise {b : BuiltinError} (hstatus : 400 ≤ r.statusCode)
    (h : mapError rt now r = .error (.builtin b)) :
    ¬ MeetsTable rt settings now requestId call cache (.response r) := by
  have hrequest : request rt now (.response r) = .error (.builtin b) := by
    rw [request, if_pos hstatus, h, error_bind]
  apply not_meetsTable_of_internal
  rw [receive_of_error hrequest, respond_builtin]

/-- An error response that is mapped meets the table exactly when it is below 600 and its
envelope can be rendered. -/
lemma meetsTable_mapped_iff {payload : List (PyStr × Json)} (hstatus : 400 ≤ r.statusCode)
    (hpayload : errorPayload rt r = .ok payload) (hwait : Limited r → FiniteWait now r) :
    MeetsTable rt settings now requestId call cache (.response r) ↔
      r.statusCode ≤ 599 ∧ rt.encodableDetails (.obj (upstreamDetails payload r)) = true := by
  obtain ⟨e, he, hcode, hdetails⟩ := @mapError_spec rt now r payload hpayload hwait
  have hrequest : request rt now (.response r) = .error (.appError e) := by
    rw [request, if_pos hstatus, he, ok_bind]
  have hanswer : (receive rt settings now call cache (.response r)).1 = .error (.appError e) :=
    receive_of_error hrequest
  rw [← hdetails]
  cases henc : rt.encodableDetails e.details with
  | false =>
    simp only [Bool.false_eq_true, and_false, iff_false]
    exact not_meetsTable_of_internal
      (by rw [hanswer, respond_appError_of_not_encodable rt requestId henc])
  | true =>
    unfold MeetsTable
    dsimp only
    rw [hanswer, respond_appError_status rt requestId henc,
      respond_appError_errorCode rt requestId henc]
    have hs : e.statusCode = (mappedTo r).1 := congrArg Prod.fst hcode
    have hc : e.code = (mappedTo r).2 := congrArg Prod.snd hcode
    simp only [hs, hc, and_true]
    constructor
    · rintro ⟨h, -⟩
      exact (mappedTo_status_eq_iff hstatus).mp h
    · intro h
      rw [mappedTo_eq h]
      exact ⟨rfl, rfl⟩

/-- An error response meets the table exactly when it is below 600, renderable, and not limited
for an infinite time. -/
lemma meetsTable_response_iff (hstatus : 400 ≤ r.statusCode) :
    MeetsTable rt settings now requestId call cache (.response r) ↔
      r.statusCode ≤ 599 ∧ RenderableError rt r.content ∧ (Limited r → FiniteWait now r) := by
  rw [renderableError_iff]
  by_cases hread : ∃ payload, errorPayload rt r = .ok payload
  · obtain ⟨payload, hpayload⟩ := hread
    have henv : (∃ payload, errorPayload rt r = .ok payload ∧
        rt.encodableDetails (.obj (upstreamDetails payload r)) = true) ↔
          rt.encodableDetails (.obj (upstreamDetails payload r)) = true := by
      rw [hpayload]
      simp
    rw [henv]
    by_cases hwait : Limited r → FiniteWait now r
    · rw [meetsTable_mapped_iff hstatus hpayload hwait, and_iff_left hwait]
    · obtain ⟨hlimited, hinf⟩ := Classical.not_imp.mp hwait
      apply iff_of_false
      · exact not_meetsTable_of_raise hstatus (mapError_of_infinite hpayload hlimited hinf)
      · exact fun h => hwait h.2.2
  · rw [not_exists] at hread
    obtain ⟨b, hb⟩ := @mapError_of_unreadable rt now r hread
    apply iff_of_false
    · exact not_meetsTable_of_raise hstatus hb
    · rintro ⟨-, ⟨payload, hpayload, -⟩, -⟩
      exact hread payload hpayload

/-- A response that passes for a success never meets the table. -/
lemma not_meetsTable_of_redirect (h : r.statusCode < 400) :
    ¬ MeetsTable rt settings now requestId call cache (.response r) := by
  have hnot : ¬ 400 ≤ r.statusCode := by omega
  cases hdecode : decode rt r with
  | error e =>
    obtain ⟨b, rfl⟩ := decode_builtin rt r e hdecode
    have hrequest : request rt now (.response r) = .error (.builtin b) := by
      rw [request, if_neg hnot, hdecode, error_bind]
    exact not_meetsTable_of_internal (by rw [receive_of_error hrequest, respond_builtin])
  | ok data =>
    have hrequest : request rt now (.response r) = .ok ⟨r.statusCode, data, r.headers⟩ := by
      rw [request, if_neg hnot, hdecode, ok_bind]
      rfl
    rintro ⟨hstatus, -⟩
    rw [designTable_redirect h] at hstatus
    exact respond_settled_status (receive_settled hrequest) hstatus

/-- **The table, exactly.**  For every call and every outcome of it, the service gives the
answer of the table if and only if the outcome is `Mapped`.  A success is no row of the table,
nor is a call that was not sent, and neither holds of them. -/
theorem meetsTable_iff (rt : Runtime) (settings : Settings) (now : ℚ) (requestId : Text)
    (call : Call) (cache : ResponseCache) (outcome : UpstreamOutcome) :
    MeetsTable rt settings now requestId call cache outcome ↔ Mapped rt now outcome := by
  cases outcome with
  | unencodable =>
    refine iff_of_false (not_meetsTable_of_internal ?_) id
    rw [receive_of_error rfl, respond_builtin]
  | timeout => exact iff_of_true (meetsTable_of_unreachable rfl rfl) trivial
  | transportError name => exact iff_of_true (meetsTable_of_unreachable rfl rfl) trivial
  | response r =>
    by_cases hstatus : 400 ≤ r.statusCode
    · rw [meetsTable_response_iff hstatus]
      exact ⟨fun h => ⟨hstatus, h⟩, fun h => h.2⟩
    · exact iff_of_false (not_meetsTable_of_redirect (by omega)) fun h => hstatus h.1

/-! ## A redirect that passes for a success -/

/-- The comments of issue 1. -/
def commentsCall : Call := ⟨.listComments 1 ⟨1, 30, by decide, by decide⟩, none⟩

/-- A response without headers and without a body. -/
def bareResponse (statusCode : ℕ) : UpstreamResponse := ⟨statusCode, [], [], []⟩

lemma isFailure_bareResponse {statusCode : ℕ} (h : 300 ≤ statusCode) :
    IsFailure commentsCall (.response (bareResponse statusCode)) := by
  refine ⟨h, ?_⟩
  rintro ⟨-, query, tag, hcall⟩
  cases hcall

/-- A redirect of a comment listing is answered 200. -/
theorem redirect_not_meetsTable :
    let answer := respond .reference ['1'] (receive .reference .reference 0 commentsCall
      (.new 1 (by decide)) (.response (bareResponse 301))).1
    IsFailure commentsCall (.response (bareResponse 301)) ∧ answer.status = 200 ∧
      answer.body = .model (.comments []) ∧
      ¬ MeetsTable .reference .reference 0 ['1'] commentsCall (.new 1 (by decide))
        (.response (bareResponse 301)) := by
  intro answer
  have hstatus : answer.status = 200 := by decide +kernel
  refine ⟨isFailure_bareResponse (by omega), hstatus, by decide +kernel, ?_⟩
  rintro ⟨h, -⟩
  have htable : (designTable (.response (bareResponse 301))).1 = 502 := by decide
  rw [htable] at h
  exact absurd (hstatus.symm.trans h) (by omega)

end IssuesApi

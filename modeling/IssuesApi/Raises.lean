import IssuesApi.Routers.Issues
import IssuesApi.Routers.Webhooks

/-!
# What the routes raise

Every error that a route raises deliberately has one of the codes of the service, with the
status that belongs to it (`errorClasses`, and fewer for the webhook route), and an error of a
rate limit names the seconds to wait.  Everything else a route raises is a built-in exception
that no handler catches by name.  So a failed request is never answered with the status of a
successful one.
-/

namespace IssuesApi

variable {α γ : Type} {rt : Runtime}

/-- The codes of the service's own errors, with their statuses. -/
def errorClasses : List (String × ℕ) :=
  [("validation_error", 400), ("unauthorized", 401), ("forbidden", 403), ("not_found", 404),
    ("rate_limited", 429), ("upstream_error", 502), ("upstream_unavailable", 503)]

/-- Those of the webhook route. -/
def webhookErrorClasses : List (String × ℕ) := [("validation_error", 400), ("unauthorized", 401)]

/-- The error is of one of the classes, and says how long to wait when it is of a rate limit. -/
structure AppError.Classified (classes : List (String × ℕ)) (e : AppError) : Prop where
  listed : (e.code, e.statusCode) ∈ classes
  wait : e.statusCode = 429 → ∃ n : ℤ, 1 ≤ n ∧ e.headers = [("Retry-After", decimalInt n)]

/-- A computation that raises nothing but classified errors and built-in exceptions. -/
def RaisesClassified (classes : List (String × ℕ)) (x : Except PyException α) : Prop :=
  ∀ e, x = .error e → (∃ a, e = .appError a ∧ a.Classified classes) ∨ ∃ b, e = .builtin b

/-- An error of a listed class that is no rate limit is classified. -/
lemma ErrorClass.classified_new {classes : List (String × ℕ)} {c : ErrorClass}
    (h : (c.code, c.statusCode) ∈ classes) (h429 : c.statusCode ≠ 429) (message : Text)
    (details : Json) (headers : List (String × Text)) :
    (c.new message details headers).Classified classes :=
  ⟨h, fun hstatus => absurd hstatus h429⟩

namespace RaisesClassified

variable {classes : List (String × ℕ)} {x : Except PyException α}

lemma ok (a : α) : RaisesClassified classes (.ok a : Except PyException α) :=
  fun _ h => by cases h

lemma appError {e : AppError} (h : e.Classified classes) :
    RaisesClassified classes (.error (.appError e) : Except PyException α) :=
  fun _ he => Or.inl ⟨e, (Except.error.inj he).symm, h⟩

lemma of_onlyBuiltin (h : OnlyBuiltin x) : RaisesClassified classes x :=
  fun e he => Or.inr (h e he)

lemma bind (hx : RaisesClassified classes x) {f : α → Except PyException γ}
    (hf : ∀ a, RaisesClassified classes (f a)) : RaisesClassified classes (x >>= f) := by
  intro e he
  rcases bind_eq_error.mp he with h | ⟨a, -, h⟩
  · exact hx e h
  · exact hf a e h

lemma ite {p : Prop} [Decidable p] {y : Except PyException α}
    (hx : p → RaisesClassified classes x) (hy : ¬ p → RaisesClassified classes y) :
    RaisesClassified classes (if p then x else y) := by
  split
  · next h => exact hx h
  · next h => exact hy h

end RaisesClassified

/-! ## The webhook routes -/

lemma classified_signatureError (reason : String) :
    (signatureError reason).Classified webhookErrorClasses :=
  ErrorClass.classified_new (by simp [webhookErrorClasses, UnauthorizedError]) (by decide) _ _ _

lemma classified_rejection (message : Text) (details : Json) (headers : List (String × Text)) :
    (ValidationError.new message details headers).Classified webhookErrorClasses :=
  ErrorClass.classified_new (by simp [webhookErrorClasses, ValidationError]) (by decide) _ _ _

lemma verifySignature_raises (hmac : Hmac) (secret : Text) (body : Bytes)
    (header : Option Text) :
    RaisesClassified webhookErrorClasses (verifySignature hmac secret body header) := by
  cases header with
  | none => exact RaisesClassified.appError (classified_signatureError _)
  | some t =>
    cases t with
    | nil => exact RaisesClassified.appError (classified_signatureError _)
    | cons c t =>
      rw [verifySignature_some hmac secret body (List.cons_ne_nil c t)]
      refine RaisesClassified.ite (fun _ => ?_) fun _ => .of_onlyBuiltin (OnlyBuiltin.raise _)
      refine RaisesClassified.ite (fun _ => RaisesClassified.ok _) fun _ => ?_
      exact RaisesClassified.appError (classified_signatureError _)

lemma validateEvent_raises (header : Option Text) :
    RaisesClassified webhookErrorClasses (validateEvent header) := by
  unfold validateEvent
  split
  · exact RaisesClassified.appError (classified_rejection _ _ _)
  · exact RaisesClassified.appError (classified_rejection _ _ _)
  · exact RaisesClassified.ite (fun _ => RaisesClassified.ok _)
      fun _ => RaisesClassified.appError (classified_rejection _ _ _)

lemma requireDeliveryId_raises (header : Option Text) :
    RaisesClassified webhookErrorClasses (requireDeliveryId header) := by
  unfold requireDeliveryId
  split
  · exact RaisesClassified.appError (classified_rejection _ _ _)
  · exact RaisesClassified.appError (classified_rejection _ _ _)
  · exact RaisesClassified.ok _

lemma parsePayload_raises (body : Bytes) :
    RaisesClassified webhookErrorClasses (parseBody rt body >>= requireObject) := by
  refine RaisesClassified.bind ?_ fun value => ?_
  · unfold parseBody
    split
    · exact RaisesClassified.ok _
    · split
      · exact RaisesClassified.ok _
      · exact RaisesClassified.appError (classified_rejection _ _ _)
      · exact .of_onlyBuiltin (OnlyBuiltin.raise _)
  · unfold requireObject
    split
    · exact RaisesClassified.ok _
    · exact RaisesClassified.appError (classified_rejection _ _ _)

lemma summarize_raises (event : Text) (payload : List (PyStr × Json)) :
    RaisesClassified webhookErrorClasses (summarize event payload) :=
  RaisesClassified.ite (fun _ => RaisesClassified.appError (classified_rejection _ _ _))
    fun _ => RaisesClassified.ok _

lemma verifiedDelivery_raises (hmac : Hmac) (secret : Text) (req : WebhookRequest) :
    RaisesClassified webhookErrorClasses (verifiedDelivery hmac rt secret req) := by
  refine (verifySignature_raises hmac secret req.body req.signature).bind fun _ => ?_
  refine (validateEvent_raises req.event).bind fun event => ?_
  refine (requireDeliveryId_raises req.deliveryId).bind fun id => ?_
  refine (parsePayload_raises req.body).bind fun payload => ?_
  exact (summarize_raises event payload).bind fun _ => RaisesClassified.ok _

/-- `POST /webhook` raises errors of its classes only. -/
lemma receiveWebhook_raises (hmac : Hmac) (settings : Settings) (now : Civil)
    (req : WebhookRequest) (db : Database) :
    RaisesClassified webhookErrorClasses (receiveWebhook hmac rt settings now req db).1 := by
  intro e he
  unfold receiveWebhook record at he
  cases hd : verifiedDelivery hmac rt settings.webhookSecret req with
  | error e' =>
    rw [hd] at he
    obtain rfl := Except.error.inj he
    exact verifiedDelivery_raises hmac _ req e' hd
  | ok d =>
    rw [hd] at he
    dsimp only at he
    cases hrow : rowOf rt now d with
    | error e' =>
      rw [hrow] at he
      obtain rfl := Except.error.inj he
      exact Or.inr (rowOf_builtin rt now d e' hrow)
    | ok row =>
      rw [hrow] at he
      cases he

/-- `GET /events` raises built-in exceptions only. -/
lemma listEvents_builtin (settings : Settings) (p : EventsParams) (db : Database) :
    OnlyBuiltin (listEvents settings p db) := by
  refine OnlyBuiltin.bind ?_ fun events => OnlyBuiltin.mapM (fun event => ?_) events
  · exact (bindInt_builtin _).bind fun _ => OnlyBuiltin.ok _
  · unfold eventRecord
    split
    · exact OnlyBuiltin.ok _
    · exact OnlyBuiltin.raise _

/-! ## The GitHub-backed routes -/

/-- A wait that was read from a header is at least one second. -/
lemma one_le_of_headerSeconds {raw : Option Text} {read : Text → Option PyFloat} {n : ℤ}
    (h : headerSeconds raw read = .ok (some n)) : 1 ≤ n := by
  unfold headerSeconds wholeSeconds at h
  split at h
  · split at h
    · cases h
    · split at h
      · cases h
        exact le_max_left _ _
      · cases h
      · cases h
  · cases h

/-- A client is never told to wait less than a second. -/
lemma one_le_retryAfterSeconds {now : ℚ} {r : UpstreamResponse} {n : ℤ}
    (h : retryAfterSeconds now r = .ok n) : 1 ≤ n := by
  obtain ⟨fromHeader, hheader, h⟩ := bind_eq_ok.mp h
  cases fromHeader with
  | some seconds =>
    obtain rfl := Except.ok.inj h
    exact one_le_of_headerSeconds hheader
  | none =>
    obtain ⟨fromReset, hreset, h⟩ := bind_eq_ok.mp h
    cases fromReset with
    | some seconds =>
      obtain rfl := Except.ok.inj h
      exact one_le_of_headerSeconds hreset
    | none =>
      obtain rfl := Except.ok.inj h
      decide

/-- Every error a response of GitHub is mapped to is classified. -/
lemma classified_of_mapError {now : ℚ} {r : UpstreamResponse} {e : AppError}
    (h : mapError rt now r = .ok e) : e.Classified errorClasses := by
  obtain ⟨payload, -, h⟩ := bind_eq_ok.mp h
  dsimp only at h
  split at h
  · obtain rfl := Except.ok.inj h
    exact ErrorClass.classified_new (by simp [errorClasses, UnauthorizedError]) (by decide) _ _ _
  · split at h
    · obtain ⟨retryAfter, hwait, h⟩ := bind_eq_ok.mp h
      obtain rfl := Except.ok.inj h
      exact ⟨by simp [errorClasses, rateLimitedError, RateLimitedError],
        fun _ => ⟨retryAfter, one_le_retryAfterSeconds hwait, rfl⟩⟩
    · split at h
      · obtain rfl := Except.ok.inj h
        exact ErrorClass.classified_new (by simp [errorClasses, ForbiddenError]) (by decide) _ _ _
      · split at h
        · obtain rfl := Except.ok.inj h
          exact ErrorClass.classified_new (by simp [errorClasses, NotFoundError]) (by decide) _ _ _
        · split at h
          · obtain rfl := Except.ok.inj h
            exact ErrorClass.classified_new (by simp [errorClasses, ValidationError]) (by decide)
              _ _ _
          · split at h
            · obtain rfl := Except.ok.inj h
              exact ErrorClass.classified_new (by simp [errorClasses, UpstreamUnavailableError])
                (by decide) _ _ _
            · obtain rfl := Except.ok.inj h
              exact ⟨by simp [errorClasses], fun hstatus => by simp at hstatus⟩

lemma classified_unreachable (message upstream : Text) :
    (unreachable message upstream).Classified errorClasses :=
  ErrorClass.classified_new (by simp [errorClasses, UpstreamUnavailableError]) (by decide) _ _ _

lemma classified_notFound (number : ℕ) : (notFound number).Classified errorClasses :=
  ErrorClass.classified_new (by simp [errorClasses, NotFoundError]) (by decide) _ _ _

lemma headerSeconds_builtin (raw : Option Text) (read : Text → Option PyFloat) :
    OnlyBuiltin (headerSeconds raw read) := by
  unfold headerSeconds
  split
  · unfold wholeSeconds
    split
    · exact OnlyBuiltin.ok _
    · split
      · exact OnlyBuiltin.ok _
      · exact OnlyBuiltin.ok _
      · exact OnlyBuiltin.raise _
  · exact OnlyBuiltin.ok _

lemma retryAfterSeconds_builtin (now : ℚ) (r : UpstreamResponse) :
    OnlyBuiltin (retryAfterSeconds now r) := by
  refine (headerSeconds_builtin _ _).bind fun seconds => ?_
  cases seconds with
  | some n => exact OnlyBuiltin.ok _
  | none =>
    refine (headerSeconds_builtin _ _).bind fun seconds => ?_
    cases seconds with
    | some n => exact OnlyBuiltin.ok _
    | none => exact OnlyBuiltin.ok _

/-- Mapping an error can itself raise, but nothing else than a built-in exception. -/
lemma mapError_builtin (now : ℚ) (r : UpstreamResponse) : OnlyBuiltin (mapError rt now r) := by
  refine (loadsOr_builtin rt _ _ _).bind fun payload => ?_
  dsimp only
  refine OnlyBuiltin.ite (fun _ => OnlyBuiltin.ok _) fun _ => ?_
  refine OnlyBuiltin.ite (fun _ => ?_) fun _ => ?_
  · exact (retryAfterSeconds_builtin now r).bind fun _ => OnlyBuiltin.ok _
  refine OnlyBuiltin.ite (fun _ => OnlyBuiltin.ok _) fun _ => ?_
  refine OnlyBuiltin.ite (fun _ => OnlyBuiltin.ok _) fun _ => ?_
  refine OnlyBuiltin.ite (fun _ => OnlyBuiltin.ok _) fun _ => ?_
  exact OnlyBuiltin.ite (fun _ => OnlyBuiltin.ok _) fun _ => OnlyBuiltin.ok _

lemma request_raises (now : ℚ) (outcome : UpstreamOutcome) :
    RaisesClassified errorClasses (request rt now outcome) := by
  unfold request
  split
  · exact .of_onlyBuiltin (OnlyBuiltin.raise _)
  · exact RaisesClassified.appError (classified_unreachable _ _)
  · exact RaisesClassified.appError (classified_unreachable _ _)
  · next r =>
    refine RaisesClassified.ite (fun _ => ?_) fun _ => ?_
    · intro e he
      rcases bind_eq_error.mp he with h | ⟨a, ha, h⟩
      · exact Or.inr (mapError_builtin now r e h)
      · exact Or.inl ⟨a, (Except.error.inj h).symm, classified_of_mapError ha⟩
    · exact .of_onlyBuiltin ((decode_builtin rt r).bind fun _ => OnlyBuiltin.ok _)

lemma issueOrNotFound_raises (number : ℕ) (data : Json) :
    RaisesClassified errorClasses (issueOrNotFound rt number data) := by
  refine (RaisesClassified.of_onlyBuiltin (isPullRequest_builtin data)).bind fun isPr => ?_
  refine RaisesClassified.ite (fun _ => ?_) fun _ => .of_onlyBuiltin ?_
  · exact RaisesClassified.appError (classified_notFound number)
  · exact (encodedIssue_builtin rt data).bind fun _ => OnlyBuiltin.ok _

lemma receiveList_raises (settings : Settings) (now : ℚ) (p : ListIssuesParams)
    (cached : Option CachedList) (cache : ResponseCache) (outcome : UpstreamOutcome) :
    RaisesClassified errorClasses (receiveList rt settings now p cached cache outcome).1 := by
  have hrequest := @request_raises rt now outcome
  unfold receiveList
  split
  · next e he => exact fun e' he' => hrequest e' (he.trans (congrArg _ (Except.error.inj he')))
  · split
    · exact RaisesClassified.ok _
    · exact .of_onlyBuiltin (renderPage_builtin rt _ _ _)
    · split
      · next e he =>
        exact fun e' he' => Or.inr (iterateOrEmpty_builtin _ e' (he.trans
          (congrArg _ (Except.error.inj he'))))
      · exact .of_onlyBuiltin (renderPage_builtin rt _ _ _)

/-- The six routes raise classified errors only. -/
theorem receive_raises (settings : Settings) (now : ℚ) (call : Call) (cache : ResponseCache)
    (outcome : UpstreamOutcome) :
    RaisesClassified errorClasses (receive rt settings now call cache outcome).1 := by
  have hrequest := @request_raises rt now outcome
  unfold receive
  split
  · exact hrequest.bind fun result => .of_onlyBuiltin (receiveCreateIssue_builtin rt result)
  · exact receiveList_raises settings now _ _ _ _
  · exact hrequest.bind fun result => issueOrNotFound_raises _ _
  · exact hrequest.bind fun result => issueOrNotFound_raises _ _
  · exact hrequest.bind fun result => .of_onlyBuiltin (receiveCreateComment_builtin rt _ result)
  · exact hrequest.bind fun result => .of_onlyBuiltin (receiveListComments_builtin rt _ _ result)

/-! ## The status of a failed request -/

/-- The response to a classified error has its status, or is the internal error. -/
lemma respond_classified (β : Type) (rt : Runtime) (requestId : Text) (e : AppError) :
    (respond rt requestId (.error (.appError e) : Except PyException (Response β))).status =
        e.statusCode ∨
      (respond rt requestId (.error (.appError e) : Except PyException (Response β))).status =
        500 := by
  cases h : rt.encodableDetails e.details with
  | true => exact Or.inl (respond_appError_status rt requestId h)
  | false =>
    rw [respond_appError_of_not_encodable rt requestId h]
    exact Or.inr rfl

/-- **A failed request is answered with a status of at least 400.** -/
theorem le_status_of_error {β : Type} {classes : List (String × ℕ)}
    (hclasses : ∀ c ∈ classes, 400 ≤ c.2) {x : Except PyException (Response β)}
    (h : RaisesClassified classes x) {e : PyException} (he : x = .error e) (requestId : Text) :
    400 ≤ (respond rt requestId x).status := by
  subst he
  rcases h e rfl with ⟨a, rfl, ha⟩ | ⟨b, rfl⟩
  · have hle := hclasses _ ha.listed
    rcases respond_classified β rt requestId a with hs | hs
    · exact hs ▸ hle
    · omega
  · rw [respond_builtin, unhandledHandler_status]
    omega

end IssuesApi

import IssuesApi.Properties.EventLog
import IssuesApi.Properties.StoredPayload
import IssuesApi.Raises
import IssuesApi.Responses

/-!
# The responses and the published contract

`issuesAnswer_documented_iff` says which answers of the GitHub-backed routes their operations
declare: all but those of status 500 and 502, which no operation declares, and those that pass
on an issue number below one or a negative number of comments.  `localAnswers_documented_iff`
is about runs of the other routes: an answer of the webhook route is a declared one unless it is
an internal error, the log can always be shown as declared when its cap is no integer beyond
SQLite's range, and so can the state of the service.

A success has one shape for each operation (`Succeeds`), and an error is the envelope with a
listed code (`Raises`); statuses are distinct within an operation, so at most one declared
response applies.
-/

namespace IssuesApi

open Contract

variable {β : Type} {hmac : Hmac} {rt : Runtime} {settings : Settings}
  {iso : DateTime → Text}

/-! ## Bodies -/

@[simp] lemma type_optText (t : Option Text) :
    Schema.type [.string, .null] (optText t) = true := by
  cases t <;> rfl

@[simp] lemma type_optDate (d : Option DateTime) :
    Schema.type [.string, .null] (optDate iso d) = true := by
  cases d <;> rfl

@[simp] lemma type_text (t : Text) : Schema.type [.string] (.text t) = true := rfl

@[simp] lemma nullableInteger_optInt (n : Option ℤ) :
    Schema.anyOf [Schema.integer, Schema.type [.null]] (optInt n) = true := by
  cases n <;> rfl

/-- An array of values that satisfy a schema. -/
@[simp] lemma array_iff {schema : Schema} {values : List Json} :
    Schema.allOf [Schema.type [.array], Schema.items schema] (.arr values) = true ↔
      ∀ value ∈ values, schema value = true := by
  simp [Schema.allOf, Schema.type, Schema.TypeName.admits, Schema.items]

@[simp] lemma integerFrom_iff {low n : ℤ} :
    Schema.allOf [Schema.integer, Schema.minimum low] (.int n) = true ↔ low ≤ n := by
  simp [Schema.allOf, Schema.integer, Schema.minimum]

/-- What `allOf` says. -/
lemma allOf_cons {keyword : Schema} {keywords : List Schema} {value : Json} :
    Schema.allOf (keyword :: keywords) value = true ↔
      keyword value = true ∧ Schema.allOf keywords value = true := by
  simp [Schema.allOf]

lemma allOf_nil {value : Json} : Schema.allOf [] value = true := rfl

lemma object_iff {names : List String} {schemas : List (String × Schema)}
    {members : List (String × Json)} :
    Schema.allOf [Schema.type [.object], Schema.required names, Schema.properties schemas]
        (Schema.object members) = true ↔
      (∀ name ∈ names, (members.lookup name).isSome = true) ∧
        ∀ p ∈ schemas, ∀ value ∈ members.lookup p.1, p.2 value = true := by
  simp [Schema.allOf, Option.all_eq_true]

/-- The numbers of an issue. -/
def Issue.InRange (i : Issue Text) : Prop := 1 ≤ i.number ∧ 0 ≤ i.comments

instance (i : Issue Text) : Decidable i.InRange := inferInstanceAs (Decidable (_ ∧ _))

lemma issue_toJson (i : Issue Text) : issue (i.toJson iso) = true ↔ i.InRange := by
  rw [issue, Issue.toJson, object_iff]
  simp [List.lookup_cons, Issue.InRange]

lemma comment_toJson (c : Comment Text) : comment (c.toJson iso) = true := by
  rw [comment, Comment.toJson, object_iff]
  simp [List.lookup_cons, Schema.integer]

lemma Json.lit_eq_text_iff {s : String} {t : Text} : Json.lit s = Json.text t ↔ s.toList = t := by
  rw [Json.lit, Json.text, Json.str.injEq, ← Text.toPyStr_injective.eq_iff]
  rfl

/-- The events of the schema are the supported ones. -/
lemma supportedEvent_iff {event : Text} :
    Schema.allOf [Schema.type [.string],
        Schema.enum [.lit "issues", .lit "issue_comment", .lit "ping"]] (.text event) = true ↔
      memberOf event supportedEvents = true := by
  rw [allOf_cons, allOf_cons]
  simp only [type_text, allOf_nil, true_and, and_true, Schema.enum, memberOf, supportedEvents,
    List.any_cons, List.any_nil, Bool.or_false, Bool.or_eq_true, decide_eq_true_eq,
    Json.lit_eq_text_iff]
  tauto

lemma eventRecord_toJson (r : EventRecord) :
    Contract.eventRecord (r.toJson iso) = true ↔ memberOf r.event supportedEvents = true := by
  rw [Contract.eventRecord, EventRecord.toJson, object_iff, ← supportedEvent_iff]
  simp [List.lookup_cons]

lemma error_errorBody {code : String} (h : code ∈ errorCodes) (message : Text) (details : Json)
    (requestId : Option Text) :
    error (errorBody code message details requestId) = true := by
  have hbody : errorBody code message details requestId = Schema.object [("error",
      Schema.object [("code", .lit code), ("message", .text message), ("details", details),
        ("request_id", optText requestId)])] := rfl
  have hcode : Schema.allOf [Schema.type [.string], Schema.enum (errorCodes.map .lit)]
      (.lit code) = true := by
    rw [allOf_cons, allOf_cons]
    refine ⟨rfl, ?_, allOf_nil⟩
    exact List.any_eq_true.mpr ⟨_, List.mem_map_of_mem h, decide_eq_true rfl⟩
  rw [hbody, error, object_iff]
  simp [List.lookup_cons, errorDetail, object_iff, hcode]

/-! ## Declared responses -/

/-- A header that is read stands among the headers. -/
lemma Response.mem_of_header {r : Response β} {name : String} {value : Text}
    (h : value ∈ r.header name) : (name, value) ∈ r.headers := by
  obtain ⟨entry, hentry, rfl⟩ := Option.map_eq_some_iff.mp h
  have hname : entry.1 = name := by simpa using List.find?_some hentry
  exact hname ▸ List.mem_of_find?_eq_some hentry

/-- The request id is added, and no other header. -/
lemma Response.mem_of_header_withHeader {r : Response β} {name added : String}
    {value content : Text} (h : value ∈ (r.withHeader added content).header name) :
    name = added ∨ (name, value) ∈ r.headers := by
  rcases List.mem_append.mp (Response.mem_of_header h) with hold | hnew
  · exact Or.inr (List.mem_filter.mp hold).1
  · exact Or.inl (Prod.mk.inj (List.mem_singleton.mp hnew)).1

/-- No operation says anything about the form of a request id. -/
lemma requestId_string (op : Operation) : ∀ declared ∈ op.responses, ∀ h ∈ declared.headers,
    h.1 = requestIdHeader → h.2 = .string := by
  cases op <;> decide

lemma nodup_statuses (op : Operation) : (op.responses.map Declared.status).Nodup := by
  cases op <;> decide

/-- No operation declares an internal error or an upstream one. -/
lemma status_of_mem_responses (op : Operation) :
    ∀ declared ∈ op.responses, declared.status ≠ 500 ∧ declared.status ≠ 502 := by
  cases op <;> decide

/-- The declared response of a status is the only one that can apply. -/
lemma documents_iff_of_status {op : Operation} {declared : Declared}
    (hdeclared : declared ∈ op.responses) {toJson : β → Json} {r : Response β}
    (hstatus : r.status = declared.status) :
    op.Documents toJson r ↔ declared.Admits toJson r := by
  constructor
  · rintro ⟨other, hother, hadmits⟩
    obtain rfl := List.inj_on_of_nodup_map (nodup_statuses op) hother hdeclared
      (hadmits.status.symm.trans hstatus)
    exact hadmits
  · exact fun h => ⟨declared, hdeclared, h⟩

/-- A response is documented when its body and its headers are as declared for its status. -/
lemma documents_respond_ok_iff {op : Operation} {declared : Declared}
    (hdeclared : declared ∈ op.responses) {toJson : β → Json} {r : Response β}
    (hstatus : r.status = declared.status)
    (hheaders : ∀ h ∈ declared.headers, ∀ value, (h.1, value) ∈ r.headers → h.2.Admits value)
    (requestId : Text) :
    op.Documents toJson (respond rt requestId (.ok r)) ↔
      declared.AdmitsBody (r.body.content toJson) := by
  rw [respond_ok, documents_iff_of_status hdeclared (by simpa using hstatus)]
  refine ⟨fun h => h.body, fun h => ⟨hstatus, h, fun header hheader value hvalue => ?_⟩⟩
  rcases Response.mem_of_header_withHeader hvalue with hname | hmem
  · rw [requestId_string op declared hdeclared header hheader hname]
    trivial
  · exact hheaders header hheader value hmem

/-! ## Errors -/

/-- What is said of the headers of an error. -/
def errorHeaders (status : ℕ) : List (String × HeaderForm) :=
  if status = 429 then [("Retry-After", .integerFrom 1)] else []

/-- The operation declares the errors of these classes, but for the upstream error. -/
def Contract.Operation.DeclaresErrors (op : Operation) (classes : List (String × ℕ)) : Prop :=
  ∀ c ∈ classes, c.1 ∈ errorCodes ∧
    (c.2 ≠ 502 → ⟨c.2, errorHeaders c.2, some error⟩ ∈ op.responses)

lemma declaresErrors_operationOf (req : IssuesRequest) :
    Operation.DeclaresErrors (operationOf req) errorClasses := by
  have hgithub : ∀ c ∈ errorClasses, c.1 ∈ errorCodes ∧
      (c.2 ≠ 502 → ⟨c.2, errorHeaders c.2, some error⟩ ∈ githubErrors) := by
    simp [errorClasses, errorCodes, githubErrors, badRequest, unauthorized, errorHeaders]
  intro c hc
  obtain ⟨hcode, hdeclared⟩ := hgithub c hc
  refine ⟨hcode, fun h => ?_⟩
  have hmem := hdeclared h
  cases req <;> simp [operationOf, Operation.responses, hmem]

lemma declaresErrors_receiveWebhook :
    Operation.DeclaresErrors .receiveWebhook webhookErrorClasses := by
  simp [Operation.DeclaresErrors, webhookErrorClasses, errorCodes, Operation.responses,
    badRequest, unauthorized, errorHeaders]

/-- The headers of an error are as declared: only the wait of a rate limit has a form. -/
lemma AppError.Classified.headers_admit {classes : List (String × ℕ)} {e : AppError}
    (he : e.Classified classes) : ∀ h ∈ errorHeaders e.statusCode, ∀ value,
      (h.1, value) ∈ e.headers ++ [jsonContentType] → h.2.Admits value := by
  intro h hh value hvalue
  unfold errorHeaders at hh
  split_ifs at hh with hstatus
  · obtain rfl := List.mem_singleton.mp hh
    obtain ⟨n, hn, hheaders⟩ := he.wait hstatus
    rw [hheaders] at hvalue
    simp only [List.cons_append, List.nil_append, List.mem_cons, Prod.mk.injEq, true_and,
      jsonContentType, List.not_mem_nil, or_false, String.reduceEq, false_and] at hvalue
    exact ⟨n, hn, hvalue⟩
  · cases hh

/-- An internal error is declared nowhere. -/
lemma not_documents_of_status {op : Operation} {toJson : β → Json} {r : Response β}
    (h : r.status = 500 ∨ r.status = 502) : ¬ op.Documents toJson r := by
  rintro ⟨declared, hdeclared, hadmits⟩
  obtain ⟨h500, h502⟩ := status_of_mem_responses op declared hdeclared
  rcases h with h | h
  · exact h500 (hadmits.status.symm.trans h)
  · exact h502 (hadmits.status.symm.trans h)

/-- **A raised error** is documented unless it is an internal or an upstream one. -/
lemma documents_error_iff {op : Operation} {classes : List (String × ℕ)}
    (hop : op.DeclaresErrors classes) {toJson : β → Json} {x : Except PyException (Response β)}
    (hx : RaisesClassified classes x) {e : PyException} (he : x = .error e) (requestId : Text) :
    op.Documents toJson (respond rt requestId x) ↔
      (respond rt requestId x).status ≠ 500 ∧ (respond rt requestId x).status ≠ 502 := by
  refine ⟨fun h => ⟨fun hs => not_documents_of_status (Or.inl hs) h,
    fun hs => not_documents_of_status (Or.inr hs) h⟩, ?_⟩
  rintro ⟨h500, h502⟩
  rcases hx e he with ⟨a, rfl, ha⟩ | ⟨b, rfl⟩
  · obtain rfl := he
    cases hencodable : rt.encodableDetails a.details with
    | false =>
      rw [respond_appError_of_not_encodable rt requestId hencodable] at h500
      exact absurd rfl h500
    | true =>
      rw [respond_appError_status rt requestId hencodable] at h502
      obtain ⟨hcode, hdeclared⟩ := hop _ ha.listed
      rw [respond_appError rt requestId hencodable, ← respond_ok rt,
        documents_respond_ok_iff (hdeclared h502) rfl ha.headers_admit]
      exact Option.Rel.some (error_errorBody hcode _ _ _)
  · obtain rfl := he
    exact absurd rfl h500

/-- A request that fails validation gets a documented answer unless that is an internal error. -/
lemma documents_rejected_iff {op : Operation} (hop : badRequest ∈ op.responses)
    {toJson : β → Json} {errors : List FieldError} {x : Except PyException (Response β)}
    (hx : x = .error (.requestValidation errors)) (requestId : Text) :
    op.Documents toJson (respond rt requestId x) ↔
      (respond rt requestId x).status ≠ 500 ∧ (respond rt requestId x).status ≠ 502 := by
  subst hx
  refine ⟨fun h => ⟨fun hs => not_documents_of_status (Or.inl hs) h,
    fun hs => not_documents_of_status (Or.inr hs) h⟩, fun ⟨h500, _⟩ => ?_⟩
  cases hhandled : (validationErrorHandler rt (some requestId) errors :
      Except PyException (Response β)) with
  | error e =>
    simp only [respond, exceptionMiddleware, hhandled] at h500
    exact absurd rfl h500
  | ok r =>
    have hrespond : respond rt requestId (.error (.requestValidation errors)) =
        respond rt requestId (.ok r) := by
      simp only [respond, exceptionMiddleware, hhandled]
    unfold validationErrorHandler jsonResponse at hhandled
    simp only at hhandled
    split at hhandled
    · obtain rfl := Except.ok.inj hhandled
      rw [hrespond, documents_respond_ok_iff hop rfl fun h hh => by cases hh]
      exact Option.Rel.some (error_errorBody (by simp [errorCodes]) _ _ _)
    · cases hhandled

/-! ## Successes -/

/-- The answers of the operations, when nothing is raised. -/
inductive Succeeds : IssuesRequest → IssuesResponse → Prop
  | created (payload : IssueCreate) (location : Text) (issue : Issue Text) :
      Succeeds (.createIssue payload) ⟨201, [("Location", location)], .model (.issue issue)⟩
  | page (p : ListIssuesParams) {xCache : String} {etag link : List (String × Text)}
      (issues : List (Issue Text)) (hcache : xCache ∈ ["HIT", "MISS"])
      (hetag : ∀ h ∈ etag, h.1 = "ETag") (hlink : ∀ h ∈ link, h.1 = "Link") :
      Succeeds (.listIssues p) ⟨200,
        [("X-Cache", xCache.toList)] ++ etag ++ link ++ pageHeaders p.page p.perPage,
        .model (.issues issues)⟩
  | notModified (p : ListIssuesParams) (tag : Text) :
      Succeeds (.listIssues p) ⟨304, [("ETag", tag)], .empty⟩
  | found (number : ℕ) (issue : Issue Text) :
      Succeeds (.getIssue number) ⟨200, [], .model (.issue issue)⟩
  | updated (number : ℕ) (payload : IssuePatch) (issue : Issue Text) :
      Succeeds (.updateIssue number payload) ⟨200, [], .model (.issue issue)⟩
  | commented (number : ℕ) (payload : CommentCreate) (location : Text) (comment : Comment Text) :
      Succeeds (.createComment number payload)
        ⟨201, [("Location", location)], .model (.comment comment)⟩
  | comments (number : ℕ) (p : PageParams) {link : List (String × Text)}
      (comments : List (Comment Text)) (hlink : ∀ h ∈ link, h.1 = "Link") :
      Succeeds (.listComments number p)
        ⟨200, link ++ pageHeaders p.page p.perPage, .model (.comments comments)⟩

/-- An optional header is of its name. -/
lemma name_of_optionalHeader {name : String} {value : Option Text} {hs : List (String × Text)}
    (h : optionalHeader name value = .ok hs) : ∀ header ∈ hs, header.1 = name := by
  unfold optionalHeader at h
  split at h
  · obtain rfl := Except.ok.inj h
    simp
  · next v _ =>
    cases hencode : encodeHeader v with
    | error e =>
      rw [hencode] at h
      cases h
    | ok encoded =>
      rw [hencode] at h
      obtain rfl := Except.ok.inj h
      simp

lemma succeeds_renderPage {p : ListIssuesParams} {xCache : String} {entry : CachedList}
    {r : IssuesResponse} (hcache : xCache ∈ ["HIT", "MISS"])
    (h : renderPage rt p xCache entry = .ok r) : Succeeds (.listIssues p) r := by
  obtain ⟨etag, hetag, h⟩ := bind_eq_ok.mp h
  obtain ⟨_, -, h⟩ := bind_eq_ok.mp h
  obtain ⟨link, hlink, h⟩ := bind_eq_ok.mp h
  obtain ⟨_, -, h⟩ := bind_eq_ok.mp h
  obtain ⟨issues, -, h⟩ := bind_eq_ok.mp h
  obtain rfl := Except.ok.inj h
  exact .page p issues hcache (name_of_optionalHeader hetag) (name_of_optionalHeader hlink)

lemma issueOrNotFound_ok {number : ℕ} {data : Json} {r : IssuesResponse}
    (h : issueOrNotFound rt number data = .ok r) :
    ∃ issue, r = ⟨200, [], .model (.issue issue)⟩ := by
  obtain ⟨isPr, -, h⟩ := bind_eq_ok.mp h
  cases isPr with
  | true => cases h
  | false =>
    obtain ⟨issue, -, h⟩ := bind_eq_ok.mp h
    exact ⟨issue, (Except.ok.inj h).symm⟩

/-- What a handler returns is a success of its request. -/
lemma succeeds_receive {now : ℚ} {call : Call} {cache : ResponseCache}
    {outcome : UpstreamOutcome} {r : IssuesResponse}
    (h : (receive rt settings now call cache outcome).1 = .ok r) : Succeeds call.request r := by
  unfold receive at h
  split at h
  · next payload hreq =>
    obtain ⟨result, -, h⟩ := bind_eq_ok.mp h
    obtain ⟨_, -, h⟩ := bind_eq_ok.mp h
    obtain ⟨issue, -, h⟩ := bind_eq_ok.mp h
    obtain rfl := Except.ok.inj h
    exact hreq ▸ .created payload _ issue
  · next p hreq =>
    rw [hreq]
    unfold receiveList at h
    split at h
    · cases h
    · split at h
      · obtain rfl := Except.ok.inj h
        exact .notModified p _
      · exact succeeds_renderPage (by simp) h
      · split at h
        · cases h
        · exact succeeds_renderPage (by simp) h
  · next number hreq =>
    obtain ⟨result, -, h⟩ := bind_eq_ok.mp h
    obtain ⟨issue, rfl⟩ := issueOrNotFound_ok h
    exact hreq ▸ .found number issue
  · next number payload hreq =>
    obtain ⟨result, -, h⟩ := bind_eq_ok.mp h
    obtain ⟨issue, rfl⟩ := issueOrNotFound_ok h
    exact hreq ▸ .updated number payload issue
  · next number payload hreq =>
    obtain ⟨result, -, h⟩ := bind_eq_ok.mp h
    obtain ⟨comment, -, h⟩ := bind_eq_ok.mp h
    obtain rfl := Except.ok.inj h
    exact hreq ▸ .commented number payload _ comment
  · next number p hreq =>
    obtain ⟨result, -, h⟩ := bind_eq_ok.mp h
    obtain ⟨_, -, h⟩ := bind_eq_ok.mp h
    obtain ⟨link, hlink, h⟩ := bind_eq_ok.mp h
    obtain ⟨_, -, h⟩ := bind_eq_ok.mp h
    obtain ⟨comments, -, h⟩ := bind_eq_ok.mp h
    obtain rfl := Except.ok.inj h
    exact hreq ▸ .comments number p comments (name_of_optionalHeader hlink)

/-- The page headers hold numbers. -/
lemma integer_of_pageHeaders {page perPage : ℕ} {name : String} {value : Text}
    (h : (name, value) ∈ pageHeaders page perPage) : HeaderForm.integer.Admits value := by
  simp only [pageHeaders, List.mem_cons, Prod.mk.injEq, List.not_mem_nil, or_false] at h
  rcases h with ⟨-, rfl⟩ | ⟨-, rfl⟩
  · exact ⟨page, rfl⟩
  · exact ⟨perPage, rfl⟩

/-- The headers of a page are as declared. -/
lemma page_headers_admit {page perPage : ℕ} {xCache : String} {etag link : List (String × Text)}
    (hcache : xCache ∈ ["HIT", "MISS"]) (hetag : ∀ h ∈ etag, h.1 = "ETag")
    (hlink : ∀ h ∈ link, h.1 = "Link") {name : String} {value : Text}
    (h : (name, value) ∈ [("X-Cache", xCache.toList)] ++ etag ++ link ++ pageHeaders page perPage) :
    (name = "X-Cache" → (HeaderForm.oneOf ["HIT", "MISS"]).Admits value) ∧
      (name = "X-Page" ∨ name = "X-Per-Page" → HeaderForm.integer.Admits value) := by
  rcases List.mem_append.mp h with h | hpage
  · rcases List.mem_append.mp h with h | h
    · rcases List.mem_append.mp h with h | h
      · obtain ⟨rfl, rfl⟩ := Prod.mk.inj (List.mem_singleton.mp h)
        exact ⟨fun _ => ⟨xCache, hcache, rfl⟩, by simp⟩
      · obtain rfl : name = "ETag" := hetag _ h
        simp
    · obtain rfl : name = "Link" := hlink _ h
      simp
  · refine ⟨?_, fun _ => integer_of_pageHeaders hpage⟩
    rintro rfl
    simp [pageHeaders] at hpage

/-- The issues an answer shows. -/
def Response.shownIssues (r : IssuesResponse) : List (Issue Text) :=
  match r.body with
  | .model (.issue issue) => [issue]
  | .model (.issues issues) => issues
  | _ => []

/-- **A success** is documented exactly when the issues it shows are in range. -/
lemma documents_succeeds_iff {req : IssuesRequest} {r : IssuesResponse} (h : Succeeds req r)
    (requestId : Text) :
    (operationOf req).Documents (IssuesBody.toJson iso) (respond rt requestId (.ok r)) ↔
      ∀ issue ∈ r.shownIssues, issue.InRange := by
  cases h with
  | created payload location issue =>
    rw [documents_respond_ok_iff (List.mem_cons_self ..) rfl (by simp [HeaderForm.Admits])]
    simp [Declared.AdmitsBody, Body.content, IssuesBody.toJson, issue_toJson,
      Response.shownIssues]
  | page p issues hcache hetag hlink =>
    rw [documents_respond_ok_iff (List.mem_cons_self ..) rfl ?_]
    · simp [Declared.AdmitsBody, Body.content, IssuesBody.toJson, issue_toJson,
        Response.shownIssues]
    · intro h hh value hvalue
      obtain ⟨hxCache, hpage⟩ := page_headers_admit hcache hetag hlink hvalue
      simp only [List.mem_cons, List.not_mem_nil, or_false] at hh
      rcases hh with rfl | rfl | rfl | rfl | rfl | rfl
      · trivial
      · trivial
      · exact hpage (Or.inl rfl)
      · exact hpage (Or.inr rfl)
      · exact hxCache rfl
      · trivial
  | notModified p tag =>
    rw [documents_respond_ok_iff (List.mem_cons_of_mem _ (List.mem_cons_self ..)) rfl
      (by simp [HeaderForm.Admits])]
    simp [Declared.AdmitsBody, Body.content, Response.shownIssues]
  | found number issue =>
    rw [documents_respond_ok_iff (List.mem_cons_self ..) rfl (by simp [HeaderForm.Admits])]
    simp [Declared.AdmitsBody, Body.content, IssuesBody.toJson, issue_toJson,
      Response.shownIssues]
  | updated number payload issue =>
    rw [documents_respond_ok_iff (List.mem_cons_self ..) rfl (by simp)]
    simp [Declared.AdmitsBody, Body.content, IssuesBody.toJson, issue_toJson,
      Response.shownIssues]
  | commented number payload location comment =>
    rw [documents_respond_ok_iff (List.mem_cons_self ..) rfl (by simp [HeaderForm.Admits])]
    simp [Declared.AdmitsBody, Body.content, IssuesBody.toJson, comment_toJson,
      Response.shownIssues]
  | @comments number p link comments hlink =>
    rw [documents_respond_ok_iff (List.mem_cons_self ..) rfl ?_]
    · simp [Declared.AdmitsBody, Body.content, IssuesBody.toJson, comment_toJson,
        Response.shownIssues]
    · intro h hh value hvalue
      have hmem : (h.1, value) ∈
          [("X-Cache", "HIT".toList)] ++ [] ++ link ++ pageHeaders p.page p.perPage :=
        List.mem_cons_of_mem _ hvalue
      obtain ⟨-, hpage⟩ := page_headers_admit (List.mem_cons_self ..) (by simp) hlink hmem
      simp only [List.mem_cons, List.not_mem_nil, or_false] at hh
      rcases hh with rfl | rfl | rfl
      · trivial
      · exact hpage (Or.inl rfl)
      · exact hpage (Or.inr rfl)

lemma Succeeds.status_lt {req : IssuesRequest} {r : IssuesResponse} (h : Succeeds req r) :
    r.status < 400 := by
  cases h <;> simp

/-- A failed request shows no issue. -/
lemma shownIssues_of_error (requestId : Text) (e : PyException) :
    (respond rt requestId (.error e) : IssuesResponse).shownIssues = [] := by
  have hjson (status : ℕ) (content : Json) (headers : List (String × Text)) :
      (serverErrorMiddleware (some requestId) (echoRequestId requestId
        (jsonResponse rt status content headers)) : IssuesResponse).shownIssues = [] := by
    unfold jsonResponse
    split <;> rfl
  cases e with
  | appError e => exact hjson _ _ _
  | requestValidation errors => exact hjson _ _ _
  | httpException statusCode detail headers => exact hjson _ _ _
  | builtin e => rfl

/-! ## The GitHub-backed operations -/

/-- What FastAPI raises for a body that `json` fails to read with anything but a
`JSONDecodeError`. -/
def bodyParsingError : PyException :=
  .httpException 400 "There was an error parsing the body".toList []

/-- An answer of an operation that reaches GitHub: to a request that failed validation, to one
whose body could not be read, or to an accepted one, whatever came of the call. -/
inductive IssuesAnswer (rt : Runtime) (requestId : Text) : Operation → IssuesResponse → Prop
  | rejected {op : Operation} (hop : op.reachesGitHub = true) (errors : List FieldError) :
      IssuesAnswer rt requestId op (respond rt requestId (.error (.requestValidation errors)))
  | unread {op : Operation} (hop : op ∈ [.createIssue, .updateIssue, .createComment]) :
      IssuesAnswer rt requestId op (respond rt requestId (.error bodyParsingError))
  | handled (settings : Settings) (now : ℚ) (call : Call) (cache : ResponseCache)
      (outcome : UpstreamOutcome) :
      IssuesAnswer rt requestId (operationOf call.request)
        (respond rt requestId (receive rt settings now call cache outcome).1)

lemma badRequest_mem_responses {op : Operation} (hop : op.reachesGitHub = true) :
    badRequest ∈ op.responses := by
  cases op <;> simp_all [Operation.reachesGitHub, Operation.responses, githubErrors]

/-- That a body could not be read is documented. -/
lemma documents_bodyParsingError {op : Operation} (hop : badRequest ∈ op.responses)
    (toJson : β → Json) (rt : Runtime) (requestId : Text) :
    op.Documents toJson (respond rt requestId (.error bodyParsingError)) := by
  have hencodable : rt.encodableDetails .null = true :=
    encodableDetails_of_shallow rt rfl (Nat.zero_le _)
  have hrespond : (respond rt requestId (.error bodyParsingError) : Response β) =
      respond rt requestId (.ok ⟨400, [jsonContentType], .json (errorBody "http_error"
        "There was an error parsing the body".toList .null (some requestId))⟩) := by
    simp [respond, exceptionMiddleware, bodyParsingError, httpErrorHandler, httpErrorCode,
      jsonResponse, hencodable]
  rw [hrespond, documents_respond_ok_iff hop rfl fun h hh => by cases hh]
  exact Option.Rel.some (error_errorBody (by simp [errorCodes]) _ _ _)

/-- **Answers are as documented.**  The operations that reach GitHub declare every answer they
give, except those of status 500 and 502 and those that show an issue whose number is below one
or whose number of comments is negative. -/
theorem issuesAnswer_documented_iff {requestId : Text} {op : Operation} {answer : IssuesResponse}
    (h : IssuesAnswer rt requestId op answer) :
    op.Documents (IssuesBody.toJson iso) answer ↔
      answer.status ≠ 500 ∧ answer.status ≠ 502 ∧ ∀ issue ∈ answer.shownIssues, issue.InRange := by
  cases h with
  | rejected hop errors =>
    rw [documents_rejected_iff (badRequest_mem_responses hop) rfl, shownIssues_of_error]
    simp
  | unread hop =>
    have hgithub : op.reachesGitHub = true := by
      simp only [List.mem_cons, List.not_mem_nil, or_false] at hop
      rcases hop with rfl | rfl | rfl <;> rfl
    have hdocuments := documents_bodyParsingError (badRequest_mem_responses hgithub)
      (IssuesBody.toJson iso) rt requestId
    refine iff_of_true hdocuments ⟨fun h => not_documents_of_status (Or.inl h) hdocuments,
      fun h => not_documents_of_status (Or.inr h) hdocuments, ?_⟩
    simp [shownIssues_of_error]
  | handled settings now call cache outcome =>
    cases hx : (receive rt settings now call cache outcome).1 with
    | error e =>
      have hraises := @receive_raises rt settings now call cache outcome
      rw [hx] at hraises
      rw [documents_error_iff (declaresErrors_operationOf _) hraises rfl, shownIssues_of_error]
      simp
    | ok r =>
      have hsucceeds := succeeds_receive hx
      have hlt := hsucceeds.status_lt
      rw [documents_succeeds_iff hsucceeds, respond_ok, Response.withHeader_status]
      have hshown : (r.withHeader requestIdHeader requestId).shownIssues = r.shownIssues := rfl
      rw [hshown]
      exact ⟨fun hrange => ⟨by omega, by omega, hrange⟩, fun hall => hall.2.2⟩

/-- GitHub's answer with an issue of number zero. -/
def issueZero : UpstreamOutcome :=
  .response ⟨200, [], utf8Encode ("\x7b\"number\":0,\"created_at\":\"1970-01-01T00:00:00Z\"," ++
    "\"updated_at\":\"1970-01-01T00:00:00Z\"\x7d").toList, "OK".toList⟩

/-- What the client gets of it. -/
def issueZeroAnswer : IssuesResponse :=
  respond .reference ['1'] (receive .reference .reference 0 ⟨.getIssue 1, none⟩
    (.new 1 Nat.one_pos) issueZero).1

/-- It is passed on as a success, which is not documented. -/
theorem issueZero_not_documented : issueZeroAnswer.status = 200 ∧
    ¬ Operation.getIssue.Documents (IssuesBody.toJson fun _ => []) issueZeroAnswer := by
  have hrange : ¬ ∀ issue ∈ issueZeroAnswer.shownIssues, issue.InRange := by decide +kernel
  refine ⟨by decide +kernel, fun h => hrange ?_⟩
  exact ((issuesAnswer_documented_iff (.handled .reference 0 ⟨.getIssue 1, none⟩
    (.new 1 Nat.one_pos) issueZero)).mp h).2.2

/-! ## The other operations -/

/-- An answer of the webhook route is documented unless it is an internal error. -/
lemma documents_webhook_iff {db db' : Database} {x : Exchange}
    (hstep : webhookStep hmac rt settings db x db') (toJson : Empty → Json) :
    Operation.receiveWebhook.Documents toJson x.response ↔ x.response.status ≠ 500 := by
  have hresponse : x.response = respond rt x.requestId
      (receiveWebhook hmac rt settings x.now x.request db).1 := (congrArg Prod.fst hstep).symm
  have hraises := @receiveWebhook_raises rt hmac settings x.now x.request db
  rw [hresponse]
  cases hx : (receiveWebhook hmac rt settings x.now x.request db).1 with
  | error e =>
    rw [hx] at hraises
    rw [documents_error_iff declaresErrors_receiveWebhook hraises rfl, and_iff_left_iff_imp]
    intro _ h502
    rcases hraises e rfl with ⟨a, rfl, ha⟩ | ⟨b, rfl⟩
    · have hlisted := ha.listed
      simp only [webhookErrorClasses, List.mem_cons, Prod.mk.injEq, List.not_mem_nil,
        or_false] at hlisted
      rcases respond_classified Empty rt x.requestId a with hs | hs <;> omega
    · rw [respond_builtin, unhandledHandler_status] at h502
      omega
  | ok r =>
    obtain rfl : r = ⟨204, [], .empty⟩ := by
      rcases receiveWebhook_cases hmac rt settings x.now x.request db with
        ⟨e, he⟩ | ⟨d, row, -, -, hok⟩
      · rw [he] at hx
        cases hx
      · rw [hok] at hx
        exact (Except.ok.inj hx).symm
    rw [documents_respond_ok_iff (List.mem_cons_self ..) rfl (by simp)]
    simp [Declared.AdmitsBody, Body.content]

/-- What a run keeps of the rows, so that each can be shown as declared. -/
structure Showable (db : Database) : Prop where
  timestamped : Timestamped db
  supported : ∀ row ∈ db.rows, memberOf row.event supportedEvents = true

lemma showable_step {db db' : Database} {x : Exchange} (h : Showable db)
    (hstep : webhookStep hmac rt settings db x db') : Showable db' := by
  refine ⟨timestamped_step h.timestamped hstep, fun r hr => ?_⟩
  rcases webhookStep_row hstep with ⟨-, -, rfl⟩ | ⟨row, hoffer, -, rfl⟩
  · exact h.supported r hr
  · rcases mem_recordRow hr with hold | rfl
    · exact h.supported r hold
    · obtain ⟨d, hd, hrow⟩ := Exchange.row_eq_some.mp hoffer
      obtain ⟨-, -, hsupported, -⟩ := verifiedDelivery_ok_iff.mp hd
      rw [(rowOf_holds hrow).event]
      exact hsupported

/-- The log is documented whenever it can be shown. -/
lemma documents_events_iff {db : Database} (h : Showable db) (p : EventsParams)
    (requestId : Text) :
    Operation.listEvents.Documents (eventsToJson iso) (getEvents rt settings requestId p db) ↔
      int64 (min p.limit settings.eventsMaxLimit) = true := by
  have hmem : ∀ row ∈ listedRows settings p db, row ∈ db.rows := fun row hrow =>
    Database.mem_newestFirst.mp (mem_of_mem_limitTo hrow)
  unfold getEvents
  constructor
  · intro hdocuments
    cases hlist : listEvents settings p db with
    | error e =>
      obtain ⟨b, rfl⟩ := listEvents_builtin settings p db e hlist
      rw [hlist] at hdocuments
      exact absurd hdocuments (not_documents_of_status (Or.inl rfl))
    | ok records => exact (listEvents_ok_iff.mp hlist).1
  · intro hlimit
    obtain ⟨records, hrecords⟩ := h.timestamped.exists_records hmem
    have hsupported : ∀ r ∈ records, memberOf r.event supportedEvents = true := by
      refine forall_of_forall₂ hrecords fun row hrow r hr => ?_
      obtain ⟨timestamp, -, rfl⟩ := eventRecord_ok_iff.mp hr
      exact h.supported row (hmem row hrow)
    rw [listEvents_ok_iff.mpr ⟨hlimit, hrecords⟩]
    show Operation.listEvents.Documents (eventsToJson iso) (respond rt requestId (.ok _))
    rw [documents_respond_ok_iff (List.mem_cons_self ..) rfl (by simp)]
    simpa [Declared.AdmitsBody, Body.content, eventsToJson, eventRecord_toJson] using hsupported

lemma documents_healthz (requestId : Text) :
    Operation.healthz.Documents id (getHealthz rt settings requestId) := by
  refine (documents_respond_ok_iff (List.mem_cons_self ..) rfl (by simp) requestId).mpr ?_
  refine Option.Rel.some ?_
  show health (healthz settings) = true
  rw [health, healthz, object_iff]
  have hstatus : Schema.allOf [Schema.type [.string], Schema.const (.lit "ok")] (.lit "ok") =
      true := rfl
  simp [List.lookup_cons, hstatus]

/-- **The operations the service answers on its own, over a run.**  Every answer of
`POST /webhook` is a declared one, unless it is an internal error; and after any run
`GET /events` gives a declared answer exactly when the configured cap is not below SQLite's
range, and `GET /healthz` always does. -/
theorem localAnswers_documented_iff {history : List Exchange} {db : Database}
    (hrun : Run (webhookStep hmac rt settings) .empty history db) (toJson : Empty → Json)
    (p : EventsParams) (requestId : Text) :
    (∀ x ∈ history, Operation.receiveWebhook.Documents toJson x.response ↔
      x.response.status ≠ 500) ∧
    (Operation.listEvents.Documents (eventsToJson iso) (getEvents rt settings requestId p db) ↔
      -2 ^ 63 ≤ settings.eventsMaxLimit) ∧
    Operation.healthz.Documents id (getHealthz rt settings requestId) := by
  have hkept : (∀ x ∈ history, Operation.receiveWebhook.Documents toJson x.response ↔
      x.response.status ≠ 500) ∧ Showable db := by
    apply hrun.invariant
    · exact ⟨by simp, timestamped_empty, by simp [Database.empty, Database.rows]⟩
    · rintro history s x t _ ⟨hall, hshow⟩ hstep
      refine ⟨?_, showable_step hshow hstep⟩
      rw [List.forall_mem_append, List.forall_mem_singleton]
      exact ⟨hall, documents_webhook_iff hstep toJson⟩
  exact ⟨hkept.1, (documents_events_iff hkept.2 p requestId).trans (int64_capped_iff p _),
    documents_healthz requestId⟩

/-- After a ping. -/
theorem ping_documented :
    Operation.receiveWebhook.Documents (fun _ => .null) pingExchange.response ∧
      Operation.listEvents.Documents (eventsToJson fun _ => [])
        (getEvents .reference .reference ['2'] .default pingStore) := by
  have hrun : Run (webhookStep (fun _ _ => []) .reference .reference) .empty [pingExchange]
      pingStore := Run.next Run.start (a := pingExchange) (t := pingStore) rfl
  obtain ⟨hanswers, hevents, -⟩ :=
    localAnswers_documented_iff hrun (fun _ => .null) .default ['2']
  exact ⟨(hanswers pingExchange (by simp)).mpr (by decide +kernel), hevents.mpr (by decide)⟩

end IssuesApi

import IssuesApi.Properties.Deliveries

/-!
# Correlation of responses

A response is correlated when it carries the request id: in `X-Request-ID`, where it is the
client's own if one was sent, and in the envelope if the body is one.  `correlated_iff` goes
through the stack of `respondTo` outcome by outcome.  The middleware puts the header on what comes
back from inside; an exception no handler inside it turns into a response passes it by, and the
outermost error middleware answers without the header.  A `Host` header that makes the URL of the
request one that cannot be split fails the middleware itself, whatever the route.
-/

namespace IssuesApi

variable {β : Type} {rt : Runtime}

/-- The `request_id` of an error envelope. -/
def envelopeRequestId : Json → Option Json
  | .obj fields =>
    match dictGet fields "error" with
    | some (.obj error) => dictGet error "request_id"
    | _ => none
  | _ => none

/-- The `request_id` of the envelope a body is, if it is one. -/
def Body.requestId : Body β → Option Json
  | .json value => envelopeRequestId value
  | _ => none

/-- The response a client that sent `supplied` can correlate. -/
def Correlated (supplied : Option Text) (r : Response β) : Prop :=
  ∃ id, r.header requestIdHeader = some id ∧
    (∀ own ∈ supplied, own ≠ [] → id = own) ∧
    ∀ requestId ∈ r.body.requestId, requestId = .text id

/-- What a route returned or raised is answered inside the middleware: it is a response without
an envelope of its own, or an exception with a handler whose envelope can be sent. -/
def AnsweredInside (rt : Runtime) (requestId : Text) :
    Except PyException (Response β) → Prop
  | .ok r => ∀ id ∈ r.body.requestId, id = .text requestId
  | .error (.appError e) => rt.encodableDetails e.details = true
  | .error (.requestValidation errors) =>
    rt.encodableDetails (.arr (errors.map fun err =>
      .obj [(py "location", .arr err.location), (py "message", .text err.message),
        (py "type", .text err.type)])) = true
  | .error (.httpException _ _ _) => True
  | .error (.builtin _) => False

/-! ## The pieces -/

lemma Response.header_withHeader (r : Response β) (name : String) (value : Text) :
    (r.withHeader name value).header name = some value := by
  have hnone : (r.headers.filter fun h => h.1 ≠ name).find? (fun h => h.1 = name) = none := by
    rw [List.find?_eq_none]
    intro h hmem
    simpa using (List.mem_filter.mp hmem).2
  rw [Response.header, Response.withHeader, List.find?_append, hnone]
  simp

@[simp] lemma envelopeRequestId_errorBody (code : String) (message : Text) (details : Json)
    (requestId : Option Text) :
    envelopeRequestId (errorBody code message details requestId) = some (optText requestId) := rfl

lemma requestIdOf_supplied {supplied : Option Text} {own uuid : Text} (h : own ∈ supplied)
    (hne : own ≠ []) : requestIdOf supplied uuid = own := by
  obtain rfl : supplied = some own := h
  exact if_pos hne

/-- What the middleware has put the header on is correlated, up to its body. -/
lemma correlated_withHeader_iff (supplied : Option Text) (uuid : Text) (r : Response β) :
    Correlated supplied (r.withHeader requestIdHeader (requestIdOf supplied uuid)) ↔
      ∀ id ∈ r.body.requestId, id = .text (requestIdOf supplied uuid) := by
  constructor
  · rintro ⟨id, hid, -, hbody⟩
    rw [Response.header_withHeader] at hid
    obtain rfl := Option.some.inj hid
    exact hbody
  · intro hbody
    refine ⟨_, Response.header_withHeader .., fun own hown hne => ?_, hbody⟩
    exact requestIdOf_supplied hown hne

/-- An internal error has no `X-Request-ID`. -/
lemma not_correlated_unhandled (supplied : Option Text) (requestId : Option Text) :
    ¬ Correlated supplied (unhandledHandler requestId : Response β) := by
  rintro ⟨id, hid, -⟩
  cases hid

/-- An envelope of the service reaches the client correlated exactly when it can be encoded. -/
lemma correlated_jsonResponse_iff (supplied : Option Text) (uuid : Text) (status : ℕ)
    (code : String) (message : Text) (details : Json) (headers : List (String × Text)) :
    let requestId := requestIdOf supplied uuid
    Correlated supplied (serverErrorMiddleware (some requestId)
      (echoRequestId requestId (jsonResponse rt status
        (errorBody code message details (some requestId)) headers :
          Except PyException (Response β)))) ↔
      rt.encodableDetails details = true := by
  intro requestId
  unfold jsonResponse
  by_cases h : rt.encodableDetails details = true
  · simp only [encodable_errorBody, h, if_true, iff_true]
    refine (correlated_withHeader_iff supplied uuid _).mpr ?_
    rintro id hid
    exact (Option.some.inj hid).symm
  · simp only [encodable_errorBody, h]
    exact iff_of_false (not_correlated_unhandled supplied _) (by simp)

/-- The response to a request whose URL can be split. -/
lemma correlated_respond_iff (supplied : Option Text) (uuid : Text)
    (outcome : Except PyException (Response β)) :
    Correlated supplied (respond rt (requestIdOf supplied uuid) outcome) ↔
      AnsweredInside rt (requestIdOf supplied uuid) outcome := by
  match outcome with
  | .ok r => exact correlated_withHeader_iff supplied uuid r
  | .error (.appError e) => exact correlated_jsonResponse_iff supplied uuid _ _ _ _ _
  | .error (.requestValidation errors) => exact correlated_jsonResponse_iff supplied uuid _ _ _ _ _
  | .error (.httpException statusCode detail headers) =>
    refine (correlated_jsonResponse_iff supplied uuid _ _ _ _ _).trans ?_
    refine iff_of_true (encodableDetails_of_shallow rt rfl ?_) trivial
    exact Nat.zero_le _
  | .error (.builtin e) =>
    exact iff_of_false (not_correlated_unhandled supplied _) (fun h => h)

/-- **When a response is correlated**: exactly when the URL of the request can be split and the
outcome of the route is answered inside the middleware. -/
theorem correlated_iff (rt : Runtime) (url : Option Text) (supplied : Option Text) (uuid : Text)
    (outcome : Except PyException (Response β)) :
    Correlated supplied (respondTo rt url (requestIdOf supplied uuid) outcome) ↔
      (∃ path, urlPath rt.netloc url = some path) ∧
        AnsweredInside rt (requestIdOf supplied uuid) outcome := by
  cases hurl : urlPath rt.netloc url with
  | none =>
    rw [respondTo_of_not_split hurl]
    exact iff_of_false (not_correlated_unhandled supplied none) (by simp)
  | some path =>
    rw [respondTo_of_split hurl, correlated_respond_iff]
    exact (and_iff_right ⟨path, rfl⟩).symm

/-- The client's id is lost on a correctly signed ping whose body is the byte `0xFF`, and likewise
when its URL is the one that comes of `Host: [`. -/
theorem undecodable_not_correlated :
    let req := signedRequest (fun _ _ => []) "secret".toList [0xFF] (some "ping".toList)
      (some "1".toList)
    let outcome := (receiveWebhook (fun _ _ => []) .reference .reference epoch req .empty).1
    let supplied := some "client-id".toList
    ¬ Correlated supplied (respondTo .reference (some "http://localhost/webhook".toList)
        (requestIdOf supplied []) outcome) ∧
      ¬ Correlated supplied (respondTo .reference (some "http://[/webhook".toList)
        (requestIdOf supplied []) outcome) := by
  intro req outcome supplied
  have hnone (url : String) (h : (respondTo .reference (some url.toList) (requestIdOf supplied [])
      outcome).header requestIdHeader = none) : ¬ Correlated supplied (respondTo .reference
        (some url.toList) (requestIdOf supplied []) outcome) := by
    rintro ⟨id, hid, -⟩
    rw [h] at hid
    cases hid
  exact ⟨hnone _ (by decide +kernel), hnone _ (by decide +kernel)⟩

end IssuesApi

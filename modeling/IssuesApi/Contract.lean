import IssuesApi.Lib.JsonSchema

/-!
# The published contract (`openapi.yaml`)

The schemas of the three request bodies and of the responses, keyword by keyword, and the
responses each operation declares.  Descriptions, examples and `format`, which is an annotation
in OpenAPI 3.1, assert nothing and are left out.
-/

namespace IssuesApi.Contract

open Schema

/-- `IssueState`. -/
def issueState : Schema := allOf [type [.string], enum [.lit "open", .lit "closed"]]

/-- The title of a request. -/
def title : Schema := allOf [type [.string], minLength 1, maxLength 256]

def issueCreateProperties : List (String × Schema) :=
  [("title", title),
    ("body", allOf [type [.string, .null], maxLength 65536]),
    ("labels", allOf [type [.array, .null], maxItems 100,
      items (allOf [type [.string], minLength 1])])]

/-- `IssueCreate`. -/
def issueCreate : Schema :=
  allOf [type [.object], properties issueCreateProperties,
    additionalPropertiesFalse issueCreateProperties, required ["title"]]

def issuePatchProperties : List (String × Schema) :=
  [("title", title),
    ("body", allOf [type [.string], maxLength 65536]),
    ("state", issueState)]

/-- `IssuePatch`. -/
def issuePatch : Schema :=
  allOf [type [.object], properties issuePatchProperties,
    additionalPropertiesFalse issuePatchProperties, minProperties 1]

def commentCreateProperties : List (String × Schema) :=
  [("body", allOf [type [.string], minLength 1, maxLength 65536])]

/-- `CommentCreate`. -/
def commentCreate : Schema :=
  allOf [type [.object], properties commentCreateProperties,
    additionalPropertiesFalse commentCreateProperties, required ["body"]]

/-! ## Response bodies -/

/-- `Issue`. -/
def issue : Schema :=
  allOf [type [.object],
    required ["number", "title", "state", "labels", "html_url", "comments", "created_at",
      "updated_at"],
    properties [("number", allOf [integer, minimum 1]),
      ("title", type [.string]),
      ("body", type [.string, .null]),
      ("state", type [.string]),
      ("labels", allOf [type [.array], items (type [.string])]),
      ("html_url", type [.string]),
      ("user", type [.string, .null]),
      ("comments", allOf [integer, minimum 0]),
      ("created_at", type [.string]),
      ("updated_at", type [.string]),
      ("closed_at", type [.string, .null])]]

/-- `Comment`. -/
def comment : Schema :=
  allOf [type [.object],
    required ["id", "body", "html_url", "created_at"],
    properties [("id", integer),
      ("body", type [.string]),
      ("user", type [.string, .null]),
      ("html_url", type [.string]),
      ("created_at", type [.string]),
      ("updated_at", type [.string, .null]),
      ("issue_number", anyOf [integer, type [.null]])]]

/-- `EventRecord`. -/
def eventRecord : Schema :=
  allOf [type [.object],
    required ["id", "event", "timestamp"],
    properties [("id", type [.string]),
      ("event", allOf [type [.string],
        enum [.lit "issues", .lit "issue_comment", .lit "ping"]]),
      ("action", type [.string, .null]),
      ("issue_number", anyOf [integer, type [.null]]),
      ("timestamp", type [.string])]]

/-- What `healthz` answers. -/
def health : Schema :=
  allOf [type [.object],
    required ["status", "version", "repo"],
    properties [("status", allOf [type [.string], const (.lit "ok")]),
      ("version", type [.string]),
      ("repo", type [.string])]]

/-- The codes of `ErrorDetail`. -/
def errorCodes : List String :=
  ["validation_error", "unauthorized", "forbidden", "not_found", "method_not_allowed",
    "rate_limited", "upstream_error", "upstream_unavailable", "internal_error", "http_error"]

/-- `ErrorDetail`. -/
def errorDetail : Schema :=
  allOf [type [.object],
    required ["code", "message"],
    properties [("code", allOf [type [.string], enum (errorCodes.map .lit)]),
      ("message", type [.string]),
      ("request_id", type [.string, .null])]]

/-- `Error`. -/
def error : Schema :=
  allOf [type [.object], required ["error"], properties [("error", errorDetail)]]

/-! ## Responses -/

/-- What is said of a header. -/
inductive HeaderForm where
  | string
  | integer
  | integerFrom (low : ℤ)
  | oneOf (values : List String)
  deriving DecidableEq

/-- A header has the form. -/
def HeaderForm.Admits : HeaderForm → Text → Prop
  | .string, _ => True
  | .integer, value => ∃ n : ℤ, value = decimalInt n
  | .integerFrom low, value => ∃ n : ℤ, low ≤ n ∧ value = decimalInt n
  | .oneOf values, value => ∃ v ∈ values, value = v.toList

/-- A declared response.  No header is required; a response without a body has no content. -/
structure Declared where
  status : ℕ
  headers : List (String × HeaderForm)
  body : Option Schema

/-- The operations, by their `operationId`. -/
inductive Operation where
  | healthz
  | createIssue
  | listIssues
  | getIssue
  | updateIssue
  | createComment
  | listComments
  | receiveWebhook
  | listEvents
  deriving DecidableEq

/-- The operations under `githubToken`. -/
def Operation.reachesGitHub : Operation → Bool
  | .healthz | .receiveWebhook | .listEvents => false
  | _ => true

/-- `BadRequest` and `Unauthorized`, and the two of the webhook. -/
def badRequest : Declared := ⟨400, [], some error⟩

def unauthorized : Declared := ⟨401, [], some error⟩

/-- What every operation that reaches GitHub declares. -/
def githubErrors : List Declared :=
  [badRequest, unauthorized, ⟨403, [], some error⟩, ⟨404, [], some error⟩,
    ⟨429, [("Retry-After", .integerFrom 1)], some error⟩, ⟨503, [], some error⟩]

/-- The responses of an operation. -/
def Operation.responses : Operation → List Declared
  | .healthz => [⟨200, [], some health⟩]
  | .createIssue =>
    ⟨201, [("Location", .string), ("X-Request-ID", .string)], some issue⟩ :: githubErrors
  | .listIssues =>
    ⟨200, [("Link", .string), ("ETag", .string), ("X-Page", .integer), ("X-Per-Page", .integer),
        ("X-Cache", .oneOf ["HIT", "MISS"]), ("X-Request-ID", .string)],
      some (allOf [type [.array], items issue])⟩ ::
    ⟨304, [("ETag", .string)], none⟩ :: githubErrors
  | .getIssue => ⟨200, [("X-Request-ID", .string)], some issue⟩ :: githubErrors
  | .updateIssue => ⟨200, [], some issue⟩ :: githubErrors
  | .createComment => ⟨201, [("Location", .string)], some comment⟩ :: githubErrors
  | .listComments =>
    ⟨200, [("Link", .string), ("X-Page", .integer), ("X-Per-Page", .integer)],
      some (allOf [type [.array], items comment])⟩ :: githubErrors
  | .receiveWebhook => [⟨204, [("X-Request-ID", .string)], none⟩, badRequest, unauthorized]
  | .listEvents => [⟨200, [], some (allOf [type [.array], items eventRecord])⟩, badRequest]

end IssuesApi.Contract

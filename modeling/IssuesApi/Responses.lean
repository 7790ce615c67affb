import IssuesApi.Contract
import IssuesApi.Routers.Issues
import IssuesApi.Routers.Webhooks

/-!
# Responses as the client reads them

The framework serialises the model a route returns.  `toJson` is that serialisation: every field
is a member, an absent value is null, and a date is what `isoformat` writes, which is a
parameter here.  `Contract.Documents` says that an operation declares a response: its status,
what its body looks like and the form of its headers.
-/

namespace IssuesApi

variable {β : Type}

/-! ## Serialised models -/

section ToJson

variable (isoformat : DateTime → Text)

/-- An optional date. -/
def optDate : Option DateTime → Json
  | none => .null
  | some d => .text (isoformat d)

def Issue.toJson (i : Issue Text) : Json :=
  Schema.object [("number", .int i.number), ("title", .text i.title), ("body", optText i.body),
    ("state", .text i.state), ("labels", .arr (i.labels.map .text)),
    ("html_url", .text i.htmlUrl), ("user", optText i.user), ("comments", .int i.comments),
    ("created_at", .text (isoformat i.createdAt)), ("updated_at", .text (isoformat i.updatedAt)),
    ("closed_at", optDate isoformat i.closedAt)]

/-- An optional integer. -/
def optInt : Option ℤ → Json
  | none => .null
  | some n => .int n

def Comment.toJson (c : Comment Text) : Json :=
  Schema.object [("id", .int c.id), ("body", .text c.body), ("user", optText c.user),
    ("html_url", .text c.htmlUrl), ("created_at", .text (isoformat c.createdAt)),
    ("updated_at", optDate isoformat c.updatedAt),
    ("issue_number", optInt (c.issueNumber.map Int.ofNat))]

def EventRecord.toJson (r : EventRecord) : Json :=
  Schema.object [("id", .text r.id), ("event", .text r.event), ("action", optText r.action),
    ("issue_number", optInt r.issueNumber), ("timestamp", .text (isoformat r.timestamp))]

/-- The body of an answered request to the GitHub-backed routes. -/
def IssuesBody.toJson : IssuesBody → Json
  | .issue i => i.toJson isoformat
  | .issues is => .arr (is.map (Issue.toJson isoformat))
  | .comment c => c.toJson isoformat
  | .comments cs => .arr (cs.map (Comment.toJson isoformat))

/-- The body of an answered `GET /events`. -/
def eventsToJson (records : List EventRecord) : Json :=
  .arr (records.map (EventRecord.toJson isoformat))

end ToJson

/-- The document a body holds. -/
def Body.content (toJson : β → Json) : Body β → Option Json
  | .empty => none
  | .model value => some (toJson value)
  | .json value => some value

/-- `API_VERSION`. -/
def apiVersion : Text := "0.1.0".toList

/-- `healthz`. -/
def healthz (settings : Settings) : Json :=
  Schema.object [("status", .lit "ok"), ("version", .text apiVersion),
    ("repo", .text settings.repoSlug)]

/-- `GET /healthz`, as the client sees it. -/
def getHealthz (rt : Runtime) (settings : Settings) (requestId : Text) : Response Json :=
  respond rt requestId (.ok ⟨200, [], .model (healthz settings)⟩)

/-- `GET /events`, as the client sees it. -/
def getEvents (rt : Runtime) (settings : Settings) (requestId : Text) (p : EventsParams)
    (db : Database) : Response (List EventRecord) :=
  respond rt requestId ((listEvents settings p db).map fun records => ⟨200, [], .model records⟩)

namespace Contract

/-- The operation an accepted request is for. -/
def operationOf : IssuesRequest → Operation
  | .createIssue _ => .createIssue
  | .listIssues _ => .listIssues
  | .getIssue _ => .getIssue
  | .updateIssue _ _ => .updateIssue
  | .createComment _ _ => .createComment
  | .listComments _ _ => .listComments

/-- The body is as declared. -/
def Declared.AdmitsBody (declared : Declared) (content : Option Json) : Prop :=
  Option.Rel (fun value schema => schema value = true) content declared.body

/-- The response is the declared one. -/
structure Declared.Admits (declared : Declared) (toJson : β → Json) (r : Response β) : Prop where
  status : r.status = declared.status
  body : declared.AdmitsBody (r.body.content toJson)
  headers : ∀ h ∈ declared.headers, ∀ value ∈ r.header h.1, h.2.Admits value

/-- The operation declares the response. -/
def Operation.Documents (op : Operation) (toJson : β → Json) (r : Response β) : Prop :=
  ∃ declared ∈ op.responses, declared.Admits toJson r

end Contract

end IssuesApi

import IssuesApi.Errors
import IssuesApi.Runtime

/-!
# Request and response models (`app/schemas.py`)

The request models carry what their validators guarantee: a title or a comment is stripped,
nonempty and short, labels are stripped and nonempty, a patch names at least one field.  The
projections `toIssue` and `toComment` read GitHub's JSON; they fail like the Python code does,
with `KeyError` on a missing required key, `TypeError` on a value that is no object, and
`pydantic.ValidationError` on a field of the wrong type.

Pydantic looks into a string only when its length is bounded.  So a title, a body or a comment of
a request is Unicode text, while a label, and every string of a response model, may hold lone
surrogates.  A response that does cannot be encoded.
-/

namespace IssuesApi

/-- `IssueState`. -/
inductive IssueState where
  | OPEN
  | CLOSED
  deriving DecidableEq, Repr

/-- `IssueStateFilter`. -/
inductive IssueStateFilter where
  | OPEN
  | CLOSED
  | ALL
  deriving DecidableEq, Repr

def IssueState.value : IssueState → String
  | .OPEN => "open"
  | .CLOSED => "closed"

def IssueStateFilter.value : IssueStateFilter → String
  | .OPEN => "open"
  | .CLOSED => "closed"
  | .ALL => "all"

/-- `IssueStateFilter(text)`. -/
def IssueStateFilter.ofText (t : Text) : Option IssueStateFilter :=
  [IssueStateFilter.OPEN, .CLOSED, .ALL].find? (fun s => s.value.toList = t)

lemma IssueStateFilter.value_injective {s t : IssueStateFilter} (h : s.value = t.value) :
    s = t := by
  cases s <;> cases t <;> first | rfl | exact absurd h (by decide)

/-! ## Dumps -/

/-- A member of a dumped model: left out when the value is `None`. -/
def dumpField (key : String) : Option Json → List (PyStr × Json)
  | none => []
  | some value => [(py key, value)]

/-- The members of a model, `None` left out. -/
def dumpAll (values : List (String × Option Json)) : List (PyStr × Json) :=
  values.flatMap fun v => dumpField v.1 v.2

lemma dumpAll_cons (name : String) (value : Option Json) (values : List (String × Option Json)) :
    dumpAll ((name, value) :: values) = dumpField name value ++ dumpAll values := rfl

lemma mem_dumpField {name : String} {value : Option Json} {f : PyStr × Json} :
    f ∈ dumpField name value ↔ f.1 = py name ∧ value = some f.2 := by
  cases value with
  | none => simp [dumpField]
  | some value => simp [dumpField, Prod.ext_iff, eq_comm]

lemma mem_dumpAll {values : List (String × Option Json)} {f : PyStr × Json} :
    f ∈ dumpAll values ↔ ∃ v ∈ values, f.1 = py v.1 ∧ v.2 = some f.2 := by
  simp [dumpAll, mem_dumpField]

/-- Where keys are distinct, looking one up finds the member there is. -/
lemma dictGet_eq_some_iff {fields : List (PyStr × Json)} (hkeys : (fields.map (·.1)).Nodup)
    {name : String} {value : Json} :
    dictGet fields name = some value ↔ (py name, value) ∈ fields := by
  constructor
  · intro h
    obtain ⟨f, hf, rfl⟩ := Option.map_eq_some_iff.mp h
    have hkey : f.1 = py name := by simpa using List.find?_some hf
    exact hkey ▸ List.mem_of_find?_eq_some hf
  · intro hmem
    cases hfind : fields.find? fun f => f.1 = py name with
    | none => exact absurd (decide_eq_true rfl) (List.find?_eq_none.mp hfind _ hmem)
    | some f =>
      have hkey : f.1 = py name := by simpa using List.find?_some hfind
      obtain rfl := List.inj_on_of_nodup_map hkeys (List.mem_of_find?_eq_some hfind) hmem hkey
      rw [dictGet, hfind]
      rfl

/-- The keys of a dump are distinct. -/
lemma nodup_dumpAll {values : List (String × Option Json)} (hnames : (values.map (·.1)).Nodup) :
    ((dumpAll values).map (·.1)).Nodup := by
  induction values with
  | nil => exact List.nodup_nil
  | cons v values ih =>
    rw [List.map_cons, List.nodup_cons] at hnames
    rw [dumpAll_cons, List.map_append, List.nodup_append']
    refine ⟨?_, ih hnames.2, ?_⟩
    · cases v.2 <;> simp [dumpField]
    · intro key hkey hrest
      obtain ⟨f, hf, rfl⟩ := List.mem_map.mp hkey
      obtain ⟨g, hg, hgf⟩ := List.mem_map.mp hrest
      obtain ⟨w, hw, hname, -⟩ := mem_dumpAll.mp hg
      rw [hname, (mem_dumpField.mp hf).1] at hgf
      exact hnames.1 (List.mem_map.mpr ⟨w, hw, py_injective hgf⟩)

/-- A member that is dumped is found again. -/
lemma dictGet_dumpAll {values : List (String × Option Json)}
    (hnames : (values.map (·.1)).Nodup) {name : String} {value : Option Json}
    (h : (name, value) ∈ values) : dictGet (dumpAll values) name = value := by
  refine Option.ext fun dumped => ?_
  rw [dictGet_eq_some_iff (nodup_dumpAll hnames), mem_dumpAll]
  constructor
  · rintro ⟨v, hv, hname, hdumped⟩
    obtain rfl := List.inj_on_of_nodup_map hnames hv h (py_injective hname).symm
    exact hdumped
  · intro hdumped
    exact ⟨_, h, rfl, hdumped⟩

/-! ## Requests -/

/-- What `value.strip()` returns when it is accepted as a title or a comment. -/
def Stripped (t : Text) : Prop := strip t = t ∧ t ≠ []

/-- What `label.strip()` returns when it is accepted. -/
def StrippedLabel (l : PyStr) : Prop := PyStr.strip l = l ∧ l ≠ []

/-- A validated `IssueCreate`. -/
structure IssueCreate where
  title : Text
  body : Option Text
  labels : Option (List PyStr)
  title_valid : Stripped title ∧ title.length ≤ 256
  body_valid : ∀ b ∈ body, b.length ≤ 65536
  labels_valid : ∀ ls ∈ labels, ls.length ≤ 100 ∧ ∀ l ∈ ls, StrippedLabel l

/-- A validated `IssuePatch`. -/
structure IssuePatch where
  title : Option Text
  body : Option Text
  state : Option IssueState
  title_valid : ∀ t ∈ title, Stripped t ∧ t.length ≤ 256
  body_valid : ∀ b ∈ body, b.length ≤ 65536
  at_least_one : title ≠ none ∨ body ≠ none ∨ state ≠ none

/-- A validated `CommentCreate`. -/
structure CommentCreate where
  body : Text
  body_valid : Stripped body ∧ body.length ≤ 65536

/-- `model_dump(exclude_none=True)`. -/
def IssueCreate.modelDump (p : IssueCreate) : Json :=
  .obj ((py "title", .text p.title) :: dumpField "body" (p.body.map .text) ++
    dumpField "labels" (p.labels.map fun ls => .arr (ls.map .str)))

/-- `IssuePatch.to_github_payload`. -/
def IssuePatch.toGithubPayload (p : IssuePatch) : Json :=
  .obj (dumpField "title" (p.title.map .text) ++ dumpField "body" (p.body.map .text) ++
    dumpField "state" (p.state.map fun s => .lit s.value))

/-- A patch is an object of strings without lone surrogates. -/
lemma IssuePatch.toGithubPayload_strict (p : IssuePatch) : p.toGithubPayload.strict = true := by
  obtain ⟨title, body, state⟩ := p
  cases title <;> cases body <;> cases state <;>
    simp [toGithubPayload, dumpField, Json.strict, Json.strictFields]

lemma IssuePatch.toGithubPayload_depth (p : IssuePatch) : p.toGithubPayload.depth = 1 := by
  obtain ⟨title, body, state⟩ := p
  cases title <;> cases body <;> cases state <;>
    simp [toGithubPayload, dumpField, Json.depth, Json.depthFields]

/-! ## Responses -/

/-- `Issue`, by the type of its strings: `PyStr` in the model, `Text` once it is encoded. -/
structure Issue (σ : Type) where
  number : ℤ
  title : σ
  body : Option σ
  state : σ
  labels : List σ
  htmlUrl : σ
  user : Option σ
  comments : ℤ
  createdAt : DateTime
  updatedAt : DateTime
  closedAt : Option DateTime
  deriving DecidableEq

/-- `Comment`, likewise. -/
structure Comment (σ : Type) where
  id : ℤ
  body : σ
  user : Option σ
  htmlUrl : σ
  createdAt : DateTime
  updatedAt : Option DateTime
  issueNumber : Option ℕ
  deriving DecidableEq

/-- `EventRecord`. -/
structure EventRecord where
  id : Text
  event : Text
  action : Option Text
  issueNumber : Option ℤ
  timestamp : DateTime
  deriving DecidableEq

/-! ## Projections -/

/-- `is_pull_request`: Python's `"pull_request" in payload` on any JSON value. -/
def isPullRequest : Json → Except PyException Bool
  | .obj fields => .ok (dictHas fields "pull_request")
  | .arr items => .ok (items.any (fun item => item = .lit "pull_request"))
  | .str s => .ok (s.tails.any (fun t => (py "pull_request").isPrefixOf t))
  | _ => raiseBuiltin .typeError

/-- `payload[key]`. -/
def getItem (fields : List (PyStr × Json)) (key : String) : Except PyException Json :=
  match dictGet fields key with
  | some value => .ok value
  | none => raiseBuiltin .keyError

/-- What iterating over a JSON value yields. -/
def iterate : Json → Except PyException (List Json)
  | .arr items => .ok items
  | .obj fields => .ok (fields.map (fun f => .str f.1))
  | .str s => .ok (s.map (fun c => .str [c]))
  | _ => raiseBuiltin .typeError

/-- `value or []`, iterated. -/
def iterateOrEmpty (value : Json) : Except PyException (List Json) :=
  if value.truthy then iterate value else .ok []

/-- Iterating over an array, empty or not. -/
lemma iterateOrEmpty_arr (items : List Json) : iterateOrEmpty (.arr items) = .ok items := by
  cases items <;> rfl

/-- The name of one label. -/
def labelName : Json → Option PyStr
  | .obj fields =>
    match dictGet fields "name" with
    | some (.str name) => some name
    | _ => none
  | .str name => some name
  | _ => none

/-- `_label_names`. -/
def labelNames (fields : List (PyStr × Json)) : Except PyException (List PyStr) := do
  let labels ← iterateOrEmpty ((dictGet fields "labels").getD .null)
  return labels.filterMap labelName

/-- `_login`. -/
def login (fields : List (PyStr × Json)) : Option PyStr :=
  match dictGet fields "user" with
  | some (.obj user) =>
    match dictGet user "login" with
    | some (.str name) => some name
    | _ => none
  | _ => none

/-- Pydantic's `str` field without bounds: any string. -/
def strField : Json → Option PyStr
  | .str s => some s
  | _ => none

/-- An `X | None` field. -/
def optionalField {α : Type} (field : Json → Option α) : Json → Option (Option α)
  | .null => some none
  | value => (field value).map some

lemma optionalField_of_ne_null {α : Type} {field : Json → Option α} {value : Json}
    (h : value ≠ .null) : optionalField field value = (field value).map some := by
  cases value <;> first | rfl | exact absurd rfl h

/-- The failure of a model constructor. -/
def validated {α : Type} : Option α → Except PyException α
  | some model => .ok model
  | none => raiseBuiltin .pydanticError

/-- `to_issue`. -/
def toIssue (rt : Runtime) : Json → Except PyException (Issue PyStr)
  | .obj fields => do
    let number ← getItem fields "number"
    let labels ← labelNames fields
    let createdAt ← getItem fields "created_at"
    let updatedAt ← getItem fields "updated_at"
    let get := fun key default => (dictGet fields key).getD default
    -- `payload.get("comments", 0) or 0`
    let comments := get "comments" (.int 0)
    validated do
      let number ← rt.intField number
      let title ← strField (get "title" (.lit ""))
      let body ← optionalField strField (get "body" .null)
      let state ← strField (get "state" (.lit "open"))
      let htmlUrl ← strField (get "html_url" (.lit ""))
      let comments ← rt.intField (if comments.truthy then comments else .int 0)
      let createdAt ← rt.datetimeField createdAt
      let updatedAt ← rt.datetimeField updatedAt
      let closedAt ← optionalField rt.datetimeField (get "closed_at" .null)
      return { number, title, body, state, labels, htmlUrl, user := login fields, comments,
               createdAt, updatedAt, closedAt }
  | _ => raiseBuiltin .typeError

/-- `to_comment`. -/
def toComment (rt : Runtime) (issueNumber : Option ℕ) :
    Json → Except PyException (Comment PyStr)
  | .obj fields => do
    let id ← getItem fields "id"
    let createdAt ← getItem fields "created_at"
    let get := fun key default => (dictGet fields key).getD default
    validated do
      let id ← rt.intField id
      let body ← strField (get "body" (.lit ""))
      let htmlUrl ← strField (get "html_url" (.lit ""))
      let createdAt ← rt.datetimeField createdAt
      let updatedAt ← optionalField rt.datetimeField (get "updated_at" .null)
      return { id, body, user := login fields, htmlUrl, createdAt, updatedAt, issueNumber }
  | _ => raiseBuiltin .typeError

/-! ## Encoding

What the framework does with a model that a handler has returned: a string without a text raises
`UnicodeEncodeError`. -/

/-- The text of an optional string. -/
def optionalText? : Option PyStr → Option (Option Text)
  | none => some none
  | some s => s.toText?.map some

/-- The outcome of encoding a model. -/
def encodedOrRaise {α : Type} : Option α → Except PyException α
  | some encoded => .ok encoded
  | none => raiseBuiltin .unicodeEncodeError

def Issue.encoded (i : Issue PyStr) : Except PyException (Issue Text) :=
  encodedOrRaise do
    let title ← i.title.toText?
    let body ← optionalText? i.body
    let state ← i.state.toText?
    let labels ← i.labels.mapM PyStr.toText?
    let htmlUrl ← i.htmlUrl.toText?
    let user ← optionalText? i.user
    return { i with title, body, state, labels, htmlUrl, user }

def Comment.encoded (c : Comment PyStr) : Except PyException (Comment Text) :=
  encodedOrRaise do
    let body ← c.body.toText?
    let user ← optionalText? c.user
    let htmlUrl ← c.htmlUrl.toText?
    return { c with body, user, htmlUrl }

/-- An issue as the client is sent it. -/
def encodedIssue (rt : Runtime) (value : Json) : Except PyException (Issue Text) := do
  let issue ← toIssue rt value
  issue.encoded

/-- A comment as the client is sent it. -/
def encodedComment (rt : Runtime) (issueNumber : Option ℕ) (value : Json) :
    Except PyException (Comment Text) := do
  let comment ← toComment rt issueNumber value
  comment.encoded

/-- All issues of a list are built before the first one is encoded. -/
def encodedIssues (rt : Runtime) (items : List Json) : Except PyException (List (Issue Text)) := do
  let issues ← items.mapM (toIssue rt)
  issues.mapM Issue.encoded

/-- So are all comments. -/
def encodedComments (rt : Runtime) (issueNumber : Option ℕ) (items : List Json) :
    Except PyException (List (Comment Text)) := do
  let comments ← items.mapM (toComment rt issueNumber)
  comments.mapM Comment.encoded

/-- A list can be sent when each of its issues can. -/
lemma encodedIssues_eq_ok {rt : Runtime} {items : List Json} {issues : List (Issue Text)} :
    encodedIssues rt items = .ok issues ↔ items.mapM (encodedIssue rt) = .ok issues :=
  mapM_bind_mapM_eq_ok

lemma encodedComments_eq_ok {rt : Runtime} {issueNumber : Option ℕ} {items : List Json}
    {comments : List (Comment Text)} :
    encodedComments rt issueNumber items = .ok comments ↔
      items.mapM (encodedComment rt issueNumber) = .ok comments :=
  mapM_bind_mapM_eq_ok

lemma optionalText?_toPyStr (value : Option Text) :
    optionalText? (value.map Text.toPyStr) = some value := by
  cases value with
  | none => rfl
  | some t => rw [Option.map_some, optionalText?, PyStr.toText?_toPyStr, Option.map_some]

lemma mapM_toText?_toPyStr : ∀ ts : List Text,
    (ts.map Text.toPyStr).mapM PyStr.toText? = some ts
  | [] => rfl
  | t :: ts => by simp [List.mapM_cons, mapM_toText?_toPyStr ts]

/-! The projections raise nothing the handlers would turn into an answer of their own, and
neither does encoding. -/

lemma isPullRequest_builtin (value : Json) : OnlyBuiltin (isPullRequest value) := by
  cases value <;> first | exact OnlyBuiltin.ok _ | exact OnlyBuiltin.raise _

lemma getItem_builtin (fields : List (PyStr × Json)) (key : String) :
    OnlyBuiltin (getItem fields key) := by
  unfold getItem
  split
  · exact OnlyBuiltin.ok _
  · exact OnlyBuiltin.raise _

lemma iterateOrEmpty_builtin (value : Json) : OnlyBuiltin (iterateOrEmpty value) := by
  refine OnlyBuiltin.ite (fun _ => ?_) fun _ => OnlyBuiltin.ok _
  cases value <;> first | exact OnlyBuiltin.ok _ | exact OnlyBuiltin.raise _

lemma validated_builtin {α : Type} (model : Option α) : OnlyBuiltin (validated model) := by
  cases model
  · exact OnlyBuiltin.raise _
  · exact OnlyBuiltin.ok _

lemma toIssue_builtin (rt : Runtime) (value : Json) : OnlyBuiltin (toIssue rt value) := by
  cases value with
  | obj fields =>
    refine (getItem_builtin fields _).bind fun _ => ?_
    refine ((iterateOrEmpty_builtin _).bind fun _ => OnlyBuiltin.ok _).bind fun _ => ?_
    refine (getItem_builtin fields _).bind fun _ => (getItem_builtin fields _).bind fun _ => ?_
    exact validated_builtin _
  | _ => exact OnlyBuiltin.raise _

lemma toComment_builtin (rt : Runtime) (issueNumber : Option ℕ) (value : Json) :
    OnlyBuiltin (toComment rt issueNumber value) := by
  cases value with
  | obj fields =>
    refine (getItem_builtin fields _).bind fun _ => (getItem_builtin fields _).bind fun _ => ?_
    exact validated_builtin _
  | _ => exact OnlyBuiltin.raise _

lemma encodedOrRaise_builtin {α : Type} (encoded : Option α) :
    OnlyBuiltin (encodedOrRaise encoded) := by
  cases encoded
  · exact OnlyBuiltin.raise _
  · exact OnlyBuiltin.ok _

lemma encodedIssue_builtin (rt : Runtime) (value : Json) : OnlyBuiltin (encodedIssue rt value) :=
  (toIssue_builtin rt value).bind fun _ => encodedOrRaise_builtin _

lemma encodedComment_builtin (rt : Runtime) (issueNumber : Option ℕ) (value : Json) :
    OnlyBuiltin (encodedComment rt issueNumber value) :=
  (toComment_builtin rt issueNumber value).bind fun _ => encodedOrRaise_builtin _

lemma encodedIssues_builtin (rt : Runtime) (items : List Json) :
    OnlyBuiltin (encodedIssues rt items) :=
  (OnlyBuiltin.mapM (toIssue_builtin rt) items).bind fun issues =>
    OnlyBuiltin.mapM (fun _ => encodedOrRaise_builtin _) issues

lemma encodedComments_builtin (rt : Runtime) (issueNumber : Option ℕ) (items : List Json) :
    OnlyBuiltin (encodedComments rt issueNumber items) :=
  (OnlyBuiltin.mapM (toComment_builtin rt issueNumber) items).bind fun comments =>
    OnlyBuiltin.mapM (fun _ => encodedOrRaise_builtin _) comments

end IssuesApi

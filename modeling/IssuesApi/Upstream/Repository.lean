import IssuesApi.Routers.Issues

/-!
# The repository on GitHub

The issue tracker behind the service, as a map from numbers to items.  An item is an issue or a
pull request; `PATCH /issues/{n}` and `POST /issues/{n}/comments` apply to both, which is what
`DESIGN.md` says of GitHub and what the tests stub.

How GitHub writes its answers is a parameter.  The one thing the results use of it is the law
`itemJson_spec`: an item is written as a JSON object, with a `pull_request` key exactly when it
is a pull request.
-/

namespace IssuesApi

/-- An issue or a pull request. -/
structure Item where
  pullRequest : Bool
  title : Text
  body : Option Text
  state : IssueState
  comments : List Text
  deriving DecidableEq

/-- A text member of a payload. -/
def textField (fields : List (PyStr × Json)) (key : String) : Option Text :=
  match dictGet fields key with
  | some (.str s) => s.toText?
  | _ => none

/-- A state, as payloads write it. -/
def IssueState.ofText (t : Text) : Option IssueState :=
  [IssueState.OPEN, .CLOSED].find? (fun s => s.value.toList = t)

/-- The issue a payload creates. -/
def Item.create : Json → Item
  | .obj fields => ⟨false, (textField fields "title").getD [], textField fields "body", .OPEN, []⟩
  | _ => ⟨false, [], none, .OPEN, []⟩

/-- The item after a patch: the members of the payload replace its fields. -/
def Item.patch (payload : Json) (item : Item) : Item :=
  match payload with
  | .obj fields =>
    { item with
      title := (textField fields "title").getD item.title
      body := (textField fields "body").orElse fun _ => item.body
      state := ((textField fields "state").bind IssueState.ofText).getD item.state }
  | _ => item

/-- The item after a comment. -/
def Item.addComment (comment : Text) (item : Item) : Item :=
  { item with comments := item.comments ++ [comment] }

@[simp] lemma Item.create_pullRequest (payload : Json) :
    (Item.create payload).pullRequest = false := by
  cases payload <;> rfl

@[simp] lemma Item.patch_pullRequest (payload : Json) (item : Item) :
    (item.patch payload).pullRequest = item.pullRequest := by
  cases payload <;> rfl

@[simp] lemma Item.addComment_pullRequest (comment : Text) (item : Item) :
    (item.addComment comment).pullRequest = item.pullRequest := rfl

/-- A comment is never without effect. -/
lemma Item.addComment_ne (comment : Text) (item : Item) : item.addComment comment ≠ item := by
  intro h
  have := congrArg (fun i => i.comments.length) h
  simp [Item.addComment] at this

/-- The tracker: its items, and the number the next one gets. -/
structure Repo where
  items : ℕ → Option Item
  next : ℕ
  fresh : ∀ n, next ≤ n → items n = none

namespace Repo

@[ext] lemma ext {repo repo' : Repo} (hi : repo.items = repo'.items)
    (hn : repo.next = repo'.next) : repo = repo' := by
  cases repo; cases repo'; cases hi; cases hn; rfl

/-- File a new item. -/
def add (repo : Repo) (item : Item) : Repo where
  items := fun n => if n = repo.next then some item else repo.items n
  next := repo.next + 1
  fresh := fun n hn => by
    rw [if_neg (by omega)]
    exact repo.fresh n (by omega)

/-- Change an item, if there is one. -/
def modify (repo : Repo) (number : ℕ) (f : Item → Item) : Repo where
  items := fun n => if n = number then (repo.items n).map f else repo.items n
  next := repo.next
  fresh := fun n hn => by
    rw [repo.fresh n hn]
    simp

lemma modify_items (repo : Repo) (number : ℕ) (f : Item → Item) (n : ℕ) :
    (repo.modify number f).items n =
      if n = number then (repo.items n).map f else repo.items n := rfl

/-- Changing nothing is no change. -/
lemma modify_eq_self {repo : Repo} {number : ℕ} {f : Item → Item}
    (h : ∀ item ∈ repo.items number, f item = item) : repo.modify number f = repo := by
  ext1
  · funext n
    rw [modify_items]
    split
    · next hn =>
      subst hn
      cases hitem : repo.items n with
      | none => rfl
      | some item => rw [Option.map_some, h item hitem]
    · rfl
  · rfl

/-- The pull requests of the tracker. -/
def pullRequests (repo : Repo) (n : ℕ) : Option Item := (repo.items n).filter (·.pullRequest)

/-- New issues are no pull requests. -/
lemma pullRequests_add (repo : Repo) {item : Item} (h : item.pullRequest = false) :
    (repo.add item).pullRequests = repo.pullRequests := by
  funext n
  by_cases hn : n = repo.next
  · subst hn
    simp [pullRequests, add, h, repo.fresh repo.next (le_refl _)]
  · simp [pullRequests, add, hn]

/-- A change that spares pull requests leaves all of them alone. -/
lemma pullRequests_modify {repo : Repo} {number : ℕ} {f : Item → Item}
    (hkind : ∀ item, (f item).pullRequest = item.pullRequest)
    (hspare : ∀ item ∈ repo.items number, item.pullRequest = true → f item = item) :
    (repo.modify number f).pullRequests = repo.pullRequests := by
  funext n
  simp only [pullRequests, modify_items]
  split
  · next hn =>
    subst hn
    cases hitem : repo.items n with
    | none => rfl
    | some item =>
      cases hpr : item.pullRequest with
      | false => simp [Option.filter_some, hkind, hpr]
      | true => rw [Option.map_some, hspare item hitem hpr]
  · rfl

end Repo

/-- How GitHub writes its answers. -/
structure GitHub (rt : Runtime) where
  /-- The body for an item. -/
  itemJson : ℕ → Item → Bytes
  /-- The body for a comment. -/
  commentJson : ℕ → Text → Bytes
  /-- The body for a number that does not exist. -/
  missingJson : Bytes
  /-- The answer to a list of issues. -/
  issueList : (ℕ → Option Item) → ListQuery → Option Text → UpstreamResponse
  /-- The answer to a list of comments. -/
  commentList : List Text → ℕ → ℕ → UpstreamResponse
  /-- Items are objects, marked when they are pull requests. -/
  itemJson_spec : ∀ n item, ∃ fields, rt.loads (itemJson n item) = .ok (.obj fields) ∧
    dictHas fields "pull_request" = item.pullRequest

namespace GitHub

variable {rt : Runtime} (gh : GitHub rt)

/-- A successful answer. -/
def success (statusCode : ℕ) (content : Bytes) : UpstreamOutcome :=
  .response ⟨statusCode, [], content, []⟩

/-- The answer about an item, 404 when there is none. -/
def about (repo : Repo) (number : ℕ) (answer : Item → UpstreamOutcome) : UpstreamOutcome :=
  match repo.items number with
  | none => success 404 gh.missingJson
  | some item => answer item

/-- A call that GitHub gets: its answer, and the tracker afterwards. -/
def handle (repo : Repo) : UpstreamRequest → UpstreamOutcome × Repo
  | .createIssue payload =>
    (success 201 (gh.itemJson repo.next (.create payload)), repo.add (.create payload))
  | .listIssues query etag => (.response (gh.issueList repo.items query etag), repo)
  | .getIssue number =>
    (gh.about repo number fun item => success 200 (gh.itemJson number item), repo)
  | .updateIssue number payload =>
    (gh.about repo number fun item => success 200 (gh.itemJson number (item.patch payload)),
      repo.modify number (Item.patch payload))
  | .createComment number body =>
    (gh.about repo number fun _ => success 201 (gh.commentJson number body),
      repo.modify number (Item.addComment body))
  | .listComments number page perPage =>
    (gh.about repo number fun item => .response (gh.commentList item.comments page perPage), repo)

/-- A call, and the tracker afterwards.  GitHub gets it when httpx can encode it. -/
def serve (repo : Repo) (call : UpstreamRequest) : UpstreamOutcome × Repo :=
  if call.encodable rt then gh.handle repo call else (.unencodable, repo)

lemma serve_of_encodable {repo : Repo} {call : UpstreamRequest} (h : call.encodable rt = true) :
    gh.serve repo call = gh.handle repo call := if_pos h

lemma serve_createIssue_snd (repo : Repo) (payload : Json) :
    (gh.serve repo (.createIssue payload)).2 =
      if (UpstreamRequest.createIssue payload).encodable rt then repo.add (.create payload)
      else repo :=
  apply_ite Prod.snd ..

/-- The call of a list request can be sent when its tag can, and never touches the tracker. -/
lemma serve_listIssues (repo : Repo) (query : ListQuery) (tag : Option Text) :
    gh.serve repo (.listIssues query tag) =
      (if tag.all isAscii then .response (gh.issueList repo.items query tag) else .unencodable,
        repo) := by
  have hencodable : (UpstreamRequest.listIssues query tag).encodable rt = tag.all isAscii := by
    cases tag <;> simp [UpstreamRequest.encodable, UpstreamRequest.headers, UpstreamRequest.json]
  rw [serve, hencodable]
  split <;> rfl

end GitHub

end IssuesApi

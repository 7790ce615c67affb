import IssuesApi.Client
import IssuesApi.Lib.Paging
import IssuesApi.Reference
import IssuesApi.Upstream.Coherence
import Mathlib.Data.List.Sublists

/-!
# GitHub's issue listings, page by page

An unchanging GitHub that holds, for every state and label filter, an ordered list of issues and
pull requests, and serves the pages of these lists.  An item comes with the JSON object GitHub
writes for it, as a comment does in `CommentPages`.
-/

namespace IssuesApi

/-- An issue or a pull request of a listing, with the members of the object GitHub writes for
it. -/
structure GitHubItem (rt : Runtime) where
  issue : Issue Text
  pullRequest : Bool
  fields : List (PyStr × Json)
  marked : dictHas fields "pull_request" = pullRequest
  number_field : ∃ v, dictGet fields "number" = some v ∧ rt.intField v = some issue.number
  title_field : dictGet fields "title" = some (.text issue.title)
  body_field : dictGet fields "body" = some (issue.body.elim .null .text)
  state_field : dictGet fields "state" = some (.text issue.state)
  labels_field : labelNames fields = .ok (issue.labels.map Text.toPyStr)
  htmlUrl_field : dictGet fields "html_url" = some (.text issue.htmlUrl)
  user_field : login fields = issue.user.map Text.toPyStr
  comments_field : ∃ v, dictGet fields "comments" = some v ∧
    rt.intField (if v.truthy then v else .int 0) = some issue.comments
  createdAt_field : ∃ v, dictGet fields "created_at" = some v ∧
    rt.datetimeField v = some issue.createdAt
  updatedAt_field : ∃ v, dictGet fields "updated_at" = some v ∧
    rt.datetimeField v = some issue.updatedAt
  closedAt_field : ∃ v, dictGet fields "closed_at" = some v ∧
    optionalField rt.datetimeField v = some issue.closedAt

namespace GitHubItem

variable {rt : Runtime}

/-- What the service shows of an item: nothing of a pull request. -/
def shown (i : GitHubItem rt) : Option (Issue Text) := if i.pullRequest then none else some i.issue

/-- What the client is sent for an item is that item. -/
lemma encodedIssue (i : GitHubItem rt) : encodedIssue rt (.obj i.fields) = .ok i.issue := by
  obtain ⟨number, hnumber, hnumber'⟩ := i.number_field
  obtain ⟨comments, hcomments, hcomments'⟩ := i.comments_field
  obtain ⟨created, hcreated, hcreated'⟩ := i.createdAt_field
  obtain ⟨updated, hupdated, hupdated'⟩ := i.updatedAt_field
  obtain ⟨closed, hclosed, hclosed'⟩ := i.closedAt_field
  have hbody : optionalField strField (i.issue.body.elim .null .text) =
      some (i.issue.body.map Text.toPyStr) := by
    cases i.issue.body <;> rfl
  have hproject : toIssue rt (.obj i.fields) = .ok { i.issue with
      title := i.issue.title.toPyStr, body := i.issue.body.map Text.toPyStr,
      state := i.issue.state.toPyStr, labels := i.issue.labels.map Text.toPyStr,
      htmlUrl := i.issue.htmlUrl.toPyStr, user := i.issue.user.map Text.toPyStr } := by
    simp only [toIssue, getItem, hnumber, i.labels_field, hcreated, hupdated, ok_bind, hnumber',
      i.title_field, i.body_field, hbody, i.state_field, i.htmlUrl_field, i.user_field, hcomments,
      hcomments', hcreated', hupdated', hclosed, hclosed', Option.getD_some]
    rfl
  rw [IssuesApi.encodedIssue, hproject, ok_bind]
  simp only [Issue.encoded, PyStr.toText?_toPyStr, optionalText?_toPyStr, mapM_toText?_toPyStr]
  rfl

/-- Leaving out the pull requests of a list. -/
lemma withoutPullRequests (items : List (GitHubItem rt)) :
    withoutPullRequests (items.map fun i => .obj i.fields) =
      .ok ((items.filter fun i => !i.pullRequest).map fun i => .obj i.fields) := by
  induction items with
  | nil => rfl
  | cons i items ih =>
    have hmarked : isPullRequest (.obj i.fields) = .ok i.pullRequest :=
      congrArg Except.ok i.marked
    rw [List.map_cons, IssuesApi.withoutPullRequests, hmarked, ok_bind, ih, ok_bind]
    cases hpr : i.pullRequest <;> simp [hpr, pure, Except.pure]

/-- The issues of a list. -/
lemma filterMap_shown (items : List (GitHubItem rt)) :
    items.filterMap shown = (items.filter fun i => !i.pullRequest).map (·.issue) := by
  induction items with
  | nil => rfl
  | cons i items ih => cases hpr : i.pullRequest <;> simp [shown, hpr, ih]

end GitHubItem

/-- The listings, and how GitHub serves their pages. -/
structure IssuePages (rt : Runtime) where
  items : IssueStateFilter → Option Text → List (GitHubItem rt)
  content : ListQuery → Bytes
  headers : ListQuery → Headers
  links : ListQuery → List GitHubLink
  /-- The body of a page is the array of its items. -/
  content_spec : ∀ q, 1 ≤ q.page → 1 ≤ q.perPage → q.perPage ≤ maxPerPage →
    rt.loads (content q) =
      .ok (.arr ((pageOf q.perPage q.page (items q.state q.labels)).map fun i => .obj i.fields))
  /-- The `Link` header of a page holds its links. -/
  headers_spec : ∀ q, 1 ≤ q.page → 1 ≤ q.perPage → q.perPage ≤ maxPerPage →
    (headers q).get "link" = linkHeader ((links q).map GitHubLink.link)
  /-- A page is linked to the next one exactly when there are items left. -/
  links_spec : ∀ q, 1 ≤ q.page → 1 ≤ q.perPage → q.perPage ≤ maxPerPage →
    PageLinks (links q) q.page q.perPage (q.page * q.perPage < (items q.state q.labels).length)
  /-- The number of its last page is one that `int()` reads. -/
  length_spec : ∀ state labels, (decimal (items state labels).length).length ≤ maxStrDigits
  /-- Entity tags are ASCII. -/
  etag_spec : ∀ q, ∀ tag ∈ (headers q).get "etag", isAscii tag = true

/-- The state GitHub is in all the time. -/
def IssuePages.world {rt : Runtime} (gh : IssuePages rt) : World :=
  fun q => .page (gh.content q) (gh.headers q)

lemma IssuePages.asciiTags {rt : Runtime} (gh : IssuePages rt) : AsciiTags {gh.world} := by
  intro w hw query content headers hpage tag htag
  rw [Set.mem_singleton_iff] at hw
  subst hw
  obtain ⟨-, rfl⟩ := Listing.page.inj hpage
  exact gh.etag_spec query tag htag

/-! ## Two closed issues

A repository with two closed issues and no open ones. -/

/-- A closed issue without an author, written at the epoch. -/
def GitHubItem.sample (number : ℕ) : GitHubItem .reference where
  issue :=
    { number, title := "A".toList, body := none, state := "closed".toList, labels := [],
      htmlUrl := [], user := none, comments := 0, createdAt := ⟨epoch, some 0⟩,
      updatedAt := ⟨epoch, some 0⟩, closedAt := some ⟨epoch, some 0⟩ }
  pullRequest := false
  fields := [(py "number", .int number), (py "title", .lit "A"), (py "body", .null),
    (py "state", .lit "closed"), (py "labels", .arr []), (py "html_url", .lit ""),
    (py "comments", .int 0), (py "created_at", .lit epochText),
    (py "updated_at", .lit epochText), (py "closed_at", .lit epochText)]
  marked := rfl
  number_field := ⟨_, rfl, rfl⟩
  title_field := rfl
  body_field := rfl
  state_field := rfl
  labels_field := rfl
  htmlUrl_field := rfl
  user_field := rfl
  comments_field := ⟨_, rfl, rfl⟩
  createdAt_field := ⟨_, rfl, rfl⟩
  updatedAt_field := ⟨_, rfl, rfl⟩
  closedAt_field := ⟨_, rfl, rfl⟩

/-- The array of issues with these numbers. -/
def issueArray (numbers : List ℕ) : Json :=
  .arr (numbers.map fun number => .obj (GitHubItem.sample number).fields)

/-- What GitHub writes for it. -/
def issueContent (numbers : List ℕ) : Bytes :=
  utf8Encode (dumps Runtime.reference.floatRepr (issueArray numbers))

lemma loads_issueContent {numbers : List ℕ} (h : numbers ∈ [1, 2].sublists) :
    Runtime.reference.loads (issueContent numbers) = .ok (issueArray numbers) := by
  have hall : ∀ numbers ∈ [1, 2].sublists,
      (Runtime.reference.loads (issueContent numbers)).toOption = some (issueArray numbers) := by
    decide +kernel
  exact Runtime.loads_of_toOption (hall numbers h)

/-- The URLs of the pages of a listing, which carry its state. -/
def issuesUrl (state : IssueStateFilter) : ListingUrl where
  base := "https://api.github.com/repositories/1/issues".toList
  extra := ("state".toList, state.value.toList)
  base_url := by decide
  extra_raw := by cases state <;> decide
  extra_url := by cases state <;> decide
  extra_other := by cases state <;> decide

/-- The numbers of the issues under a filter. -/
def closedNumbers (state : IssueStateFilter) (labels : Option Text) : List ℕ :=
  if state = .CLOSED ∧ labels = none then [1, 2] else []

/-- Closed issues 1 and 2, and the pages of the listings. -/
def IssuePages.closed : IssuePages .reference where
  items := fun state labels => (closedNumbers state labels).map GitHubItem.sample
  content := fun q => issueContent (pageOf q.perPage q.page (closedNumbers q.state q.labels))
  headers := fun q =>
    (linkHeader (((issuesUrl q.state).links (closedNumbers q.state q.labels).length q.page
      q.perPage).map GitHubLink.link)).toList.map fun v => ("link", v)
  links := fun q => (issuesUrl q.state).links (closedNumbers q.state q.labels).length q.page
    q.perPage
  content_spec := fun q _ _ _ => by
    have hsub : (closedNumbers q.state q.labels).Sublist [1, 2] := by
      unfold closedNumbers
      split_ifs
      · exact List.Sublist.refl _
      · exact List.nil_sublist _
    have hpage := (pageOf_sublist q.perPage q.page _).trans hsub
    rw [loads_issueContent (List.mem_sublists.mpr hpage), pageOf_map, issueArray, List.map_map]
    rfl
  length_spec := fun state labels => by
    unfold closedNumbers
    split_ifs <;> decide
  headers_spec := fun _ _ _ _ => Headers.get_link _
  links_spec := fun q _ _ _ => by
    rw [List.length_map]
    exact (issuesUrl q.state).pageLinks _ q.page q.perPage
  etag_spec := fun q tag htag => by
    exfalso
    revert htag
    cases linkHeader (((issuesUrl q.state).links (closedNumbers q.state q.labels).length q.page
      q.perPage).map GitHubLink.link) <;> simp [Headers.get]

end IssuesApi

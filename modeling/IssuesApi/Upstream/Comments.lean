import IssuesApi.Client
import IssuesApi.Lib.Paging
import IssuesApi.Reference
import Mathlib.Data.List.Sublists

/-!
# GitHub's comment listings

The comments of one issue, in order and unchanging, and the pages GitHub serves of them.  A
comment comes with the JSON object GitHub writes for it; what that object says about the fields
the service reads is part of the structure, and it may say anything else besides.
-/

namespace IssuesApi

/-- A comment on GitHub, with the members of the object GitHub writes for it. -/
structure GitHubComment (rt : Runtime) where
  id : ℤ
  body : Text
  user : Option Text
  htmlUrl : Text
  createdAt : DateTime
  updatedAt : DateTime
  fields : List (PyStr × Json)
  id_field : ∃ v, dictGet fields "id" = some v ∧ rt.intField v = some id
  body_field : dictGet fields "body" = some (.text body)
  user_field : login fields = user.map Text.toPyStr
  htmlUrl_field : dictGet fields "html_url" = some (.text htmlUrl)
  createdAt_field : ∃ v, dictGet fields "created_at" = some v ∧
    rt.datetimeField v = some createdAt
  updatedAt_field : ∃ v, dictGet fields "updated_at" = some v ∧ v ≠ .null ∧
    rt.datetimeField v = some updatedAt

/-- The comment as the service shows it under an issue. -/
def GitHubComment.shown {rt : Runtime} (c : GitHubComment rt) (number : ℕ) : Comment Text :=
  ⟨c.id, c.body, c.user, c.htmlUrl, c.createdAt, some c.updatedAt, some number⟩

/-- What the client is sent for a comment is that comment. -/
lemma GitHubComment.encodedComment {rt : Runtime} (c : GitHubComment rt) (number : ℕ) :
    encodedComment rt (some number) (.obj c.fields) = .ok (c.shown number) := by
  obtain ⟨id, hid, hid'⟩ := c.id_field
  obtain ⟨created, hcreated, hcreated'⟩ := c.createdAt_field
  obtain ⟨updated, hupdated, hne, hupdated'⟩ := c.updatedAt_field
  have hproject : toComment rt (some number) (.obj c.fields) = .ok
      ⟨c.id, c.body.toPyStr, c.user.map Text.toPyStr, c.htmlUrl.toPyStr, c.createdAt,
        some c.updatedAt, some number⟩ := by
    simp only [toComment, getItem, hid, hcreated, ok_bind, hid', hcreated', c.body_field,
      c.htmlUrl_field, hupdated, Option.getD_some, c.user_field, optionalField_of_ne_null hne,
      hupdated', Option.map_some]
    rfl
  rw [IssuesApi.encodedComment, hproject, ok_bind]
  simp only [Comment.encoded, PyStr.toText?_toPyStr, optionalText?_toPyStr]
  rfl

/-- The comments of an issue, and how GitHub serves their pages. -/
structure CommentPages (rt : Runtime) where
  comments : List (GitHubComment rt)
  content : ℕ → ℕ → Bytes
  headers : ℕ → ℕ → Headers
  links : ℕ → ℕ → List GitHubLink
  /-- The body of a page is the array of its comments. -/
  content_spec : ∀ page perPage, 1 ≤ page → 1 ≤ perPage → perPage ≤ maxPerPage →
    rt.loads (content page perPage) =
      .ok (.arr ((pageOf perPage page comments).map fun c => .obj c.fields))
  /-- The `Link` header of a page holds its links. -/
  headers_spec : ∀ page perPage, 1 ≤ page → 1 ≤ perPage → perPage ≤ maxPerPage →
    (headers page perPage).get "link" = linkHeader ((links page perPage).map GitHubLink.link)
  /-- A page is linked to the next one exactly when there are comments left. -/
  links_spec : ∀ page perPage, 1 ≤ page → 1 ≤ perPage → perPage ≤ maxPerPage →
    PageLinks (links page perPage) page perPage (page * perPage < comments.length)

/-- The answer to a request for a page. -/
def CommentPages.answer {rt : Runtime} (gh : CommentPages rt) (page perPage : ℕ) :
    UpstreamOutcome :=
  .response ⟨200, gh.headers page perPage, gh.content page perPage, []⟩

/-! ## Up to three comments

An issue with some of three comments, whose pages GitHub writes in compact JSON. -/

/-- A comment by `octo` at the epoch. -/
def GitHubComment.sample (id : ℕ) : GitHubComment .reference where
  id := id
  body := "Hi".toList
  user := some "octo".toList
  htmlUrl := []
  createdAt := ⟨epoch, some 0⟩
  updatedAt := ⟨epoch, some 0⟩
  fields := [(py "id", .int id), (py "body", .lit "Hi"),
    (py "user", .obj [(py "login", .lit "octo")]), (py "html_url", .lit ""),
    (py "created_at", .lit epochText), (py "updated_at", .lit epochText)]
  id_field := ⟨_, rfl, rfl⟩
  body_field := rfl
  user_field := rfl
  htmlUrl_field := rfl
  createdAt_field := ⟨_, rfl, rfl⟩
  updatedAt_field := ⟨_, rfl, by decide, rfl⟩

/-- The array of comments with these ids. -/
def commentArray (ids : List ℕ) : Json :=
  .arr (ids.map fun id => .obj (GitHubComment.sample id).fields)

/-- What GitHub writes for it. -/
def commentContent (ids : List ℕ) : Bytes :=
  utf8Encode (dumps Runtime.reference.floatRepr (commentArray ids))

lemma loads_commentContent {ids : List ℕ} (h : ids ∈ [1, 2, 3].sublists) :
    Runtime.reference.loads (commentContent ids) = .ok (commentArray ids) := by
  have hall : ∀ ids ∈ [1, 2, 3].sublists,
      (Runtime.reference.loads (commentContent ids)).toOption = some (commentArray ids) := by
    decide +kernel
  exact Runtime.loads_of_toOption (hall ids h)

/-- The URLs of its pages, with a comma in the query. -/
def commentsUrl : ListingUrl where
  base := "https://api.github.com/repositories/1/issues/7/comments".toList
  extra := ("fields".toList, "id,body".toList)
  base_url := by decide
  extra_raw := by decide
  extra_url := by decide
  extra_other := by decide

/-- Comments with these ids, and their pages. -/
def CommentPages.sample (ids : List ℕ) (hids : ids.Sublist [1, 2, 3]) :
    CommentPages .reference where
  comments := ids.map GitHubComment.sample
  content := fun page perPage => commentContent (pageOf perPage page ids)
  headers := fun page perPage =>
    (linkHeader ((commentsUrl.links ids.length page perPage).map GitHubLink.link)).toList.map
      fun v => ("link", v)
  links := commentsUrl.links ids.length
  content_spec := fun page perPage _ _ _ => by
    have hsub := (pageOf_sublist perPage page ids).trans hids
    rw [loads_commentContent (List.mem_sublists.mpr hsub), pageOf_map, commentArray, List.map_map]
    rfl
  headers_spec := fun _ _ _ _ _ => Headers.get_link _
  links_spec := fun page perPage _ _ _ => by
    simpa using commentsUrl.pageLinks ids.length page perPage

/-- Comments 1 and 2. -/
def CommentPages.two : CommentPages .reference := .sample [1, 2] (by decide)

end IssuesApi

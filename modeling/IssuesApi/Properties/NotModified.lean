import IssuesApi.Lib.EntityTag
import IssuesApi.Properties.CacheTransparency

/-!
# What a 304 says

GitHub as HTTP has it: every page has an entity tag, and a conditional request for it is
answered 304 exactly when its `If-None-Match` matches the tag, be it `*`, a list, or a tag of
the other strength.

`namesTag_iff` compares what the service makes of that with what it should: a client is
answered 304 exactly when its own `If-None-Match` matches, and the `ETag` of the 304 is the
current one.  The first fails for a value that is not ASCII: the call is never sent.  And the
handler writes the client's field value into the `ETag` header, so the second holds only of a
value that is the current tag to the letter.
-/

namespace IssuesApi

/-! ## GitHub -/

/-- A page with its current entity tag. -/
structure TaggedPage where
  content : Bytes
  headers : Headers
  tag : EntityTag
  headers_tag : headers.get "etag" = some tag.render

/-- GitHub's answer to a request for the page, conditional when a field value is given. -/
def TaggedPage.answer (page : TaggedPage) (condition : Option Text) : UpstreamOutcome :=
  if condition.any (fieldMatches · page.tag) then .response ⟨304, page.headers, [], []⟩
  else .response ⟨200, page.headers, page.content, []⟩

/-- What the request comes to: that answer, when the field value can be encoded. -/
def TaggedPage.outcome (page : TaggedPage) (condition : Option Text) : UpstreamOutcome :=
  if condition.all isAscii then page.answer condition else .unencodable

/-! ## The answer -/

/-- What a client is answered when the request had read `cached`. -/
def conditionalAnswer (rt : Runtime) (settings : Settings) (now : ℚ) (requestId : Text)
    (p : ListIssuesParams) (cached : Option CachedList) (cache : ResponseCache)
    (page : TaggedPage) : IssuesResponse :=
  respond rt requestId (receive rt settings now ⟨.listIssues p, cached⟩ cache
    (page.outcome (nonempty (conditionalEtag p cached)))).1

/-- The answer is 304 exactly when the client's field value matches the tag, and then its `ETag`
is the tag: a field value with that one tag, which a later request can carry. -/
structure NamesTag (condition : Option Text) (tag : EntityTag) (answer : IssuesResponse) :
    Prop where
  status : answer.status = 304 ↔ condition.any (fieldMatches · tag) = true
  header : answer.status = 304 → answer.header "ETag" = some tag.render
  reusable : answer.status = 304 → ∃ value, answer.header "ETag" = some value ∧
    readTags .between value = some [tag] ∧ fieldMatches value tag = true

variable {rt : Runtime} {settings : Settings} {now : ℚ} {requestId : Text}
  {p : ListIssuesParams} {cached : Option CachedList} {cache : ResponseCache} {page : TaggedPage}

/-- An empty field value matches nothing. -/
lemma any_nonempty (condition : Option Text) (tag : EntityTag) :
    (nonempty condition).any (fieldMatches · tag) = condition.any (fieldMatches · tag) := by
  match condition with
  | none => rfl
  | some [] => rfl
  | some (c :: value) => rfl

/-- A page that is rendered, or fails to be, is no 304. -/
lemma respond_renderPage_status (xCache : String) (entry : CachedList) :
    (respond rt requestId (renderPage rt p xCache entry)).status ≠ 304 := by
  cases hrender : renderPage rt p xCache entry with
  | ok a => simp [(renderPage_eq_ok hrender).1]
  | error e =>
    obtain ⟨b, rfl⟩ := renderPage_builtin rt p xCache entry e hrender
    simp [unhandledHandler_status]

/-- Neither is the answer to a 200. -/
lemma respond_page_status (headers : Headers) (content : Bytes) :
    (respond rt requestId (receiveList rt settings now p cached cache
      (.response ⟨200, headers, content, []⟩)).1).status ≠ 304 := by
  rw [receiveList_page]
  cases hread : readPage rt content with
  | ok data => exact respond_renderPage_status _ _
  | error e =>
    obtain ⟨b, rfl⟩ := readPage_builtin rt content e hread
    simp [unhandledHandler_status]

/-- A request that is never sent is no 304 either. -/
lemma respond_unencodable_status :
    (respond rt requestId
      (receiveList rt settings now p cached cache .unencodable).1).status ≠ 304 := by
  rw [receiveList_of_error rfl, respond_builtin]
  simp [unhandledHandler_status]

/-- The list handler, after a call. -/
lemma conditionalAnswer_eq :
    conditionalAnswer rt settings now requestId p cached cache page =
      respond rt requestId (receiveList rt settings now p cached cache
        (page.outcome (nonempty (conditionalEtag p cached)))).1 := rfl

/-- A value of the client's own that matches and is ASCII is answered 304, with that value. -/
lemma conditionalAnswer_of_match {value : Text} (hvalue : p.ifNoneMatch = some value)
    (hmatch : fieldMatches value page.tag = true) (hascii : isAscii value = true) :
    conditionalAnswer rt settings now requestId p cached cache page =
      (⟨304, [("ETag", value)], .empty⟩ : IssuesResponse).withHeader requestIdHeader requestId := by
  have hcaller : nonempty p.ifNoneMatch = some value := by
    rw [hvalue, nonempty_some]
    rintro rfl
    cases hmatch
  obtain ⟨hsent, hanswers⟩ := conditionalEtag_of_caller hcaller cached
  have houtcome : page.outcome (some value) = .response ⟨304, page.headers, [], []⟩ := by
    rw [TaggedPage.outcome, if_pos (Option.all_some .. ▸ hascii)]
    exact if_pos hmatch
  rw [conditionalAnswer_eq, hsent, houtcome, receiveList_of_caller hanswers]
  rfl

/-- One that is not ASCII is not. -/
lemma conditionalAnswer_of_not_ascii {value : Text} (hvalue : p.ifNoneMatch = some value)
    (hascii : isAscii value = false) :
    (conditionalAnswer rt settings now requestId p cached cache page).status ≠ 304 := by
  have hcaller : nonempty p.ifNoneMatch = some value := by
    rw [hvalue, nonempty_some]
    rintro rfl
    cases hascii
  have houtcome : page.outcome (some value) = .unencodable := by
    simp [TaggedPage.outcome, hascii]
  rw [conditionalAnswer_eq, (conditionalEtag_of_caller hcaller cached).1, houtcome]
  exact respond_unencodable_status

/-- Any other request is not answered 304, whatever was cached for it. -/
lemma conditionalAnswer_of_no_match
    (hmatch : p.ifNoneMatch.any (fieldMatches · page.tag) = false) :
    (conditionalAnswer rt settings now requestId p cached cache page).status ≠ 304 := by
  rw [conditionalAnswer_eq, TaggedPage.outcome]
  split_ifs with hsendable
  · rw [TaggedPage.answer]
    split_ifs with hcurrent
    · -- the tag that matched is the cached one
      cases hcaller : nonempty p.ifNoneMatch with
      | some value =>
        rw [(conditionalEtag_of_caller hcaller cached).1, ← hcaller, any_nonempty, hmatch]
          at hcurrent
        cases hcurrent
      | none =>
        obtain ⟨hsent, hanswers⟩ := conditionalEtag_of_cached hcaller cached
        cases cached with
        | none =>
          rw [hsent] at hcurrent
          cases hcurrent
        | some entry =>
          rw [receiveList_of_hit hanswers]
          exact respond_renderPage_status _ _
    · exact respond_page_status _ _
  · exact respond_unencodable_status

/-- **When a 304 names the current entity tag.**  For every page, every request for it and every
state of the cache, a client is answered 304 exactly when its `If-None-Match` matches the current
tag, and with that tag, if and only if its value, in case it matches, is ASCII and the tag to the
letter. -/
theorem namesTag_iff (rt : Runtime) (settings : Settings) (now : ℚ) (requestId : Text)
    (p : ListIssuesParams) (cached : Option CachedList) (cache : ResponseCache)
    (page : TaggedPage) :
    NamesTag p.ifNoneMatch page.tag
        (conditionalAnswer rt settings now requestId p cached cache page) ↔
      ∀ value ∈ p.ifNoneMatch, fieldMatches value page.tag = true →
        isAscii value = true ∧ value = page.tag.render := by
  constructor
  · intro h value hvalue hmatch
    have h304 := h.status.mpr ((Option.any_eq_true ..).mpr ⟨value, hvalue, hmatch⟩)
    cases hascii : isAscii value with
    | false => exact absurd h304 (conditionalAnswer_of_not_ascii hvalue hascii)
    | true =>
      have hheader := h.header h304
      rw [conditionalAnswer_of_match hvalue hmatch hascii] at hheader
      exact ⟨rfl, Option.some.inj hheader⟩
  · intro h
    by_cases hmatch : p.ifNoneMatch.any (fieldMatches · page.tag) = true
    · obtain ⟨value, hvalue, hvalueMatch⟩ := (Option.any_eq_true ..).mp hmatch
      obtain ⟨hascii, rfl⟩ := h value hvalue hvalueMatch
      rw [conditionalAnswer_of_match hvalue hvalueMatch hascii]
      exact ⟨iff_of_true rfl hmatch, fun _ => rfl, fun _ =>
        ⟨_, rfl, readTags_single _, hvalueMatch⟩⟩
    · have hstatus := @conditionalAnswer_of_no_match rt settings now requestId p cached cache page
        (by simpa using hmatch)
      exact ⟨iff_of_false hstatus hmatch, fun h304 => absurd h304 hstatus, fun h304 =>
        absurd h304 hstatus⟩

/-- The page of an issue and a pull request, with the tag `"1"`. -/
def mixedPage : TaggedPage where
  content := mixedContent
  headers := [("etag", "\"1\"".toList)]
  tag := ⟨false, ['1'], by decide⟩
  headers_tag := rfl

/-- `GET /issues`, unless there is anything at all. -/
def anyIssues : ListIssuesParams := { firstIssues with ifNoneMatch := some ['*'] }

/-- The 304 comes with `*` for a tag. -/
theorem wildcard_not_named :
    let answer := conditionalAnswer .reference .reference 0 ['1'] anyIssues none (.new 1 le_rfl)
      mixedPage
    answer.status = 304 ∧ answer.header "ETag" = some ['*'] ∧
      mixedPage.tag.render = "\"1\"".toList ∧
        ¬ NamesTag anyIssues.ifNoneMatch mixedPage.tag answer := by
  intro answer
  have hstatus : answer.status = 304 := by decide +kernel
  have hheader : answer.header "ETag" = some ['*'] := by decide +kernel
  refine ⟨hstatus, hheader, by decide, fun h => ?_⟩
  have hnamed := h.header hstatus
  rw [hheader] at hnamed
  exact absurd hnamed (by decide)

end IssuesApi

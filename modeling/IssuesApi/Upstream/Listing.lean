import IssuesApi.Routers.Issues
import Mathlib.Data.Set.Basic

/-!
# GitHub's issue listings

What GitHub answers to a list request, as a function of the state it is in at the moment it
computes the answer.  Per query that state is either a page, with its headers, or a failure; it
may change at any time, which is modelled where the listings are used.

A conditional request is answered 304 exactly when its tag is the page's current entity tag.
Different pages of one query never share a tag; that is `UniqueTags`, a property of the set of
states GitHub goes through.  So is `AsciiTags`, that every tag can be sent back: a request that
carries another one is never sent.
-/

namespace IssuesApi

/-- The failures of a call that was sent, which `_request` turns into an error. -/
def UpstreamOutcome.Failed : UpstreamOutcome → Prop
  | .unencodable => False
  | .response r => 400 ≤ r.statusCode
  | _ => True

/-- What GitHub has for one query. -/
inductive Listing where
  | page (content : Bytes) (headers : Headers)
  | failure (outcome : UpstreamOutcome) (failed : outcome.Failed)

/-- What GitHub has for every query. -/
abbrev World := ListQuery → Listing

/-- GitHub's answer to a list request, conditional when a tag is given. -/
def World.answer (world : World) (query : ListQuery) (tag : Option Text) : UpstreamOutcome :=
  match world query with
  | .failure outcome _ => outcome
  | .page content headers =>
    if tag ≠ none ∧ headers.get "etag" = tag then .response ⟨304, headers, [], []⟩
    else .response ⟨200, headers, content, []⟩

/-- What a list request comes to: GitHub's answer, when its tag can be encoded. -/
def World.list (world : World) (query : ListQuery) (tag : Option Text) : UpstreamOutcome :=
  if tag.all isAscii then world.answer query tag else .unencodable

/-- Throughout the given states, a tag identifies the body and the `Link` of its query. -/
def UniqueTags (worlds : Set World) : Prop :=
  ∀ w ∈ worlds, ∀ w' ∈ worlds, ∀ query content headers content' headers' tag,
    w query = .page content headers → w' query = .page content' headers' →
    headers.get "etag" = some tag → headers'.get "etag" = some tag →
    content = content' ∧ headers.get "link" = headers'.get "link"

/-- Throughout the given states, the tags are ASCII. -/
def AsciiTags (worlds : Set World) : Prop :=
  ∀ w ∈ worlds, ∀ query content headers, w query = .page content headers →
    ∀ tag ∈ headers.get "etag", isAscii tag = true

/-- One state never changes its tags. -/
lemma uniqueTags_singleton (world : World) : UniqueTags {world} := by
  intro w hw w' hw' query content headers content' headers' tag hpage hpage' _ _
  rw [Set.mem_singleton_iff] at hw hw'
  subst hw
  subst hw'
  obtain ⟨rfl, rfl⟩ := Listing.page.inj (hpage.symm.trans hpage')
  exact ⟨rfl, rfl⟩

section

variable {world : World} {query : ListQuery}

lemma World.list_of_all {tag : Option Text} (h : tag.all isAscii = true) :
    world.list query tag = world.answer query tag := if_pos h

lemma World.list_unencodable {tag : Text} (h : isAscii tag = false) :
    world.list query (some tag) = .unencodable := by
  simp [World.list, h]

lemma World.list_failure {outcome : UpstreamOutcome} {failed : outcome.Failed}
    (h : world query = .failure outcome failed) {tag : Option Text}
    (hascii : tag.all isAscii = true) : world.list query tag = outcome := by
  simp [World.list_of_all hascii, World.answer, h]

/-- A request without a tag is answered with the page. -/
lemma World.list_plain {content : Bytes} {headers : Headers}
    (h : world query = .page content headers) :
    world.list query none = .response ⟨200, headers, content, []⟩ := by
  rw [World.list_of_all (by rfl), World.answer, h]
  rfl

/-- So is one with another tag. -/
lemma World.list_fresh {content : Bytes} {headers : Headers}
    (h : world query = .page content headers) {tag : Text} (hascii : isAscii tag = true)
    (htag : headers.get "etag" ≠ some tag) :
    world.list query (some tag) = .response ⟨200, headers, content, []⟩ := by
  rw [World.list_of_all (Option.all_some .. ▸ hascii), World.answer, h]
  exact if_neg fun hand => htag hand.2

lemma World.list_current {content : Bytes} {headers : Headers}
    (h : world query = .page content headers) {tag : Text} (hascii : isAscii tag = true)
    (htag : headers.get "etag" = some tag) :
    world.list query (some tag) = .response ⟨304, headers, [], []⟩ := by
  rw [World.list_of_all (Option.all_some .. ▸ hascii), World.answer, h]
  exact if_pos ⟨by simp, htag⟩

end

/-- A failure of GitHub is an error of the call. -/
lemma request_of_failed (rt : Runtime) (now : ℚ) {outcome : UpstreamOutcome}
    (h : outcome.Failed) : ∃ e, request rt now outcome = .error e := by
  cases outcome with
  | unencodable => exact h.elim
  | timeout => exact ⟨_, rfl⟩
  | transportError name => exact ⟨_, rfl⟩
  | response r =>
    have hstatus : 400 ≤ r.statusCode := h
    rw [request, if_pos hstatus]
    cases mapError rt now r with
    | ok e => exact ⟨_, rfl⟩
    | error e => exact ⟨e, rfl⟩

/-- The result of an unconditional answer. -/
lemma request_page (rt : Runtime) (now : ℚ) (headers : Headers) (content : Bytes)
    (reasonPhrase : Text) :
    request rt now (.response ⟨200, headers, content, reasonPhrase⟩) =
      (decode rt ⟨200, [], content, []⟩).map fun data => ⟨200, data, headers⟩ := by
  have hdecode : decode rt ⟨200, headers, content, reasonPhrase⟩ =
      decode rt ⟨200, [], content, []⟩ := rfl
  rw [request, if_neg (by simp)]
  dsimp only
  rw [hdecode]
  cases decode rt ⟨200, [], content, []⟩ <;> rfl

/-- The result of a 304. -/
lemma request_notModified (rt : Runtime) (now : ℚ) (headers : Headers) :
    request rt now (.response ⟨304, headers, [], []⟩) = .ok ⟨304, .null, headers⟩ := by
  rw [request, if_neg (by simp)]
  rfl

end IssuesApi

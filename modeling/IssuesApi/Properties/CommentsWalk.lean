import IssuesApi.Reference
import IssuesApi.Upstream.Comments

/-!
# Walking the comments of an issue

A client requests the first page of `GET /issues/{n}/comments` and then the target of
`rel="next"` until there is none.  `comments_walk` says that it is never refused, that it stops,
and that it has then been shown the comments of the issue, each once and in order.

Of the service the proof uses what one page does: `listComments_page` computes the response, and
`fetch_comments` what the client makes of it.  The rest is the general walk `follow_pages`.
-/

namespace IssuesApi

variable {rt : Runtime} {gh : CommentPages rt} {number : ℕ}

/-- The handler's answer to a page. -/
lemma receiveListComments_page (gh : CommentPages rt) (number : ℕ) (p : PageParams) (now : ℚ) :
    (request rt now (gh.answer p.page p.perPage) >>= receiveListComments rt number p) =
      .ok ⟨200, (linkHeader (repointed (.comments number) (gh.links p.page p.perPage))).toList.map
          (fun v => ("Link", v)) ++ pageHeaders p.page p.perPage,
        .model (.comments ((pageOf p.perPage p.page gh.comments).map (·.shown number)))⟩ := by
  have hpage := p.page_valid
  obtain ⟨hmin, hmax⟩ := p.perPage_valid
  have hlink : GitHubResult.link ⟨200, .arr ((pageOf p.perPage p.page gh.comments).map
      fun c => .obj c.fields), gh.headers p.page p.perPage⟩ =
      linkHeader ((gh.links p.page p.perPage).map GitHubLink.link) :=
    gh.headers_spec _ _ hpage hmin hmax
  have hrewrite := (gh.links_spec _ _ hpage hmin hmax).rewrite rt.netloc (.comments number)
  have hcomments : encodedComments rt (some number)
      ((pageOf p.perPage p.page gh.comments).map fun c => Json.obj c.fields) =
      .ok ((pageOf p.perPage p.page gh.comments).map (·.shown number)) := by
    rw [encodedComments_eq_ok, mapM_eq_ok, List.forall₂_map_left_iff, List.forall₂_map_right_iff,
      List.forall₂_same]
    exact fun c _ => c.encodedComment number
  rw [CommentPages.answer, request_of_loads (gh.content_spec _ _ hpage hmin hmax), ok_bind,
    receiveListComments, hlink]
  show (rewriteLinkHeader rt.netloc _ (LocalPath.comments number).text >>= _) = _
  rw [hrewrite, ok_bind, optionalHeader_linkHeader, ok_bind, iterateOrEmpty_arr, ok_bind,
    hcomments, ok_bind]
  rfl

/-- The `Link` header the client sees. -/
lemma header_link (value : Option Text) (page perPage : ℕ) (body : Body IssuesBody)
    (requestId : Text) :
    (respond rt requestId (.ok ⟨200, value.toList.map (fun v => ("Link", v)) ++
      pageHeaders page perPage, body⟩) : IssuesResponse).header "Link" = value := by
  cases value <;> simp [Response.header, Response.withHeader, pageHeaders, requestIdHeader]

/-- **One page.**  The client is shown the comments of the page, and the page after it is its
next request, as long as there is one. -/
lemma fetch_comments {github : UpstreamRequest → UpstreamOutcome}
    (hserves : ∀ page perPage, github (.listComments number page perPage) =
      gh.answer page perPage)
    (hnumber : 1 ≤ number ∧ (decimal number).length ≤ maxStrDigits) (settings : Settings)
    (schedule : Schedule) (s : Session) {perPage : ℕ}
    (hperPage : 1 ≤ perPage ∧ perPage ≤ maxPerPage) {n : ℕ}
    (hnext : (n + 1) * perPage < gh.comments.length →
      (decimal (n + 1 + 1)).length ≤ maxStrDigits) :
    fetchPage rt settings github schedule shownComments s
        (.listComments number ⟨n + 1, perPage, by omega, hperPage⟩) =
      (some ((pageOf perPage (n + 1) gh.comments).map (·.shown number),
        if (n + 1) * perPage < gh.comments.length then
          some (.listComments number ⟨n + 1 + 1, perPage, by omega, hperPage⟩) else none),
        ⟨s.made + 1, s.cache⟩) := by
  have hlinks := gh.links_spec (n + 1) perPage (by omega) hperPage.1 hperPage.2
  have hanswer : s.answer rt settings github schedule
      (.listComments number ⟨n + 1, perPage, by omega, hperPage⟩) =
      (respond rt (schedule.requestId s.made) (.ok ⟨200,
        (linkHeader (repointed (.comments number) (gh.links (n + 1) perPage))).toList.map
          (fun v => ("Link", v)) ++ pageHeaders (n + 1) perPage,
        .model (.comments ((pageOf perPage (n + 1) gh.comments).map (·.shown number)))⟩),
        ⟨s.made + 1, s.cache⟩) := by
    have hreceive := receiveListComments_page gh number ⟨n + 1, perPage, by omega, hperPage⟩
      (schedule.now s.made)
    simp only [Session.answer, send, receive, Call.upstream, hserves]
    rw [hreceive]
  rw [fetchPage, hanswer]
  dsimp only
  rw [hlinks.nextRequest rt (.comments number) (header_link _ _ _ _ _)]
  split_ifs with hmore
  · rw [parseGet_comments rt hnumber (by omega) hperPage (hnext hmore)]
    rfl
  · rfl

/-- **The walk.**  A client that starts at page 1 and follows `rel="next"` stops after
`⌈length / perPage⌉` requests, or one when there are no comments, none of which is refused, and
has been shown exactly the comments of the issue, in order.  The numbers in the URLs are ones
that `int()` reads: that of the issue, and those of the pages that are linked to. -/
theorem comments_walk (gh : CommentPages rt) {github : UpstreamRequest → UpstreamOutcome}
    {number : ℕ} (hserves : ∀ page perPage, github (.listComments number page perPage) =
      gh.answer page perPage)
    (hnumber : 1 ≤ number ∧ (decimal number).length ≤ maxStrDigits) (settings : Settings)
    (schedule : Schedule) (s : Session) {perPage : ℕ}
    (hperPage : 1 ≤ perPage ∧ perPage ≤ maxPerPage)
    (hpages : ∀ page, page * perPage < gh.comments.length →
      (decimal (page + 1)).length ≤ maxStrDigits) :
    ∃ start, parseGet rt (localTarget (commentsPath number) (pageParams 1 perPage)) =
        some start ∧
      ∀ fuel, 1 ≤ fuel → gh.comments.length ≤ fuel * perPage →
        ∃ pages, follow (fetchPage rt settings github schedule shownComments) fuel s start =
            some pages ∧
          pages.flatten = gh.comments.map (·.shown number) ∧
          ∀ c ∈ pages.flatten, c.issueNumber = some number := by
  refine ⟨_, parseGet_comments rt hnumber (le_refl 1) hperPage (by decide),
    fun fuel hfuel hcover => ?_⟩
  have hfetch : ∀ (s : Session) (n : ℕ), True → 0 ≤ n → ∃ t, True ∧
      fetchPage rt settings github schedule shownComments s
        (.listComments number ⟨n + 1, perPage, by omega, hperPage⟩) =
      (some ((pageOf perPage (n + 1) gh.comments).filterMap fun c => some (c.shown number),
        if (n + 1) * perPage < gh.comments.length then
          some (.listComments number ⟨n + 1 + 1, perPage, by omega, hperPage⟩) else none), t) := by
    intro s n _ _
    rw [fetch_comments hserves hnumber settings schedule s hperPage (hpages (n + 1)),
      List.filterMap_eq_map']
    exact ⟨_, trivial, rfl⟩
  obtain ⟨pages, hfollow, hflat⟩ :=
    follow_pages hfetch hfuel (s := s) trivial (le_refl 0) (by simpa using hcover)
  rw [Nat.zero_mul, List.drop_zero, List.filterMap_eq_map'] at hflat
  refine ⟨pages, hfollow, hflat, fun c hc => ?_⟩
  rw [hflat] at hc
  obtain ⟨comment, -, rfl⟩ := List.mem_map.mp hc
  rfl

/-- A GitHub that answers about the comments of one issue only. -/
def commentsOnly (number : ℕ) : UpstreamRequest → UpstreamOutcome
  | .listComments n page perPage =>
    if n = number then CommentPages.two.answer page perPage else .timeout
  | _ => .timeout

lemma commentsOnly_listComments (number page perPage : ℕ) :
    commentsOnly number (.listComments number page perPage) =
      CommentPages.two.answer page perPage :=
  if_pos rfl

/-- Two comments in pages of one. -/
theorem comments_walk_two :
    ∃ start pages,
      parseGet .reference (localTarget (commentsPath 7) (pageParams 1 1)) = some start ∧
      follow (fetchPage .reference .reference (commentsOnly 7) ⟨fun _ => 0, fun _ => []⟩
        shownComments) 2 ⟨0, .new 1 (by decide)⟩ start = some pages ∧
      pages.flatten.map (·.id) = [1, 2] := by
  have hpages : ∀ page, page * 1 < CommentPages.two.comments.length →
      (decimal (page + 1)).length ≤ maxStrDigits := by
    intro page hpage
    have hlast : page + 1 ≤ 2 := by simpa [CommentPages.two, CommentPages.sample] using hpage
    exact (length_decimal_mono hlast).trans (by decide)
  obtain ⟨start, hstart, hwalk⟩ := comments_walk CommentPages.two (commentsOnly_listComments 7)
    (by decide) .reference ⟨fun _ => 0, fun _ => []⟩ ⟨0, .new 1 (by decide)⟩ (by decide) hpages
  obtain ⟨pages, hpages, hflat, -⟩ := hwalk 2 (by decide) (by decide)
  refine ⟨start, pages, hstart, hpages, ?_⟩
  rw [hflat]
  rfl

/-- A number of one digit more than `int()` reads. -/
@[irreducible] def longNumber : ℕ := 10 ^ maxStrDigits

lemma le_longNumber : 10 ^ maxStrDigits ≤ longNumber := by
  unfold longNumber
  exact le_rfl

lemma intParam_longNumber : Runtime.reference.intParam (decimal longNumber) = none :=
  plainIntParam_of_large le_longNumber

/-- Of an issue with so large a number the first request is refused already, and so is that of a
page with so large a number. -/
theorem comments_walk_longNumber :
    (∀ page perPage, commentsOnly longNumber (.listComments longNumber page perPage) =
      CommentPages.two.answer page perPage) ∧
    (∀ perPage, parseGet .reference
      (localTarget (commentsPath longNumber) (pageParams 1 perPage)) = none) ∧
    ∀ perPage, parseGet .reference
      (localTarget (commentsPath 7) (pageParams longNumber perPage)) = none :=
  ⟨commentsOnly_listComments longNumber,
    parseGet_comments_of_unread .reference intParam_longNumber 1,
    parseGet_comments_of_unreadPage .reference intParam_longNumber 7⟩

end IssuesApi

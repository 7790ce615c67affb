import IssuesApi.Upstream.IssuePages

/-!
# Walking the issue listing

A client requests the first page of `GET /issues` under some filter and then the target of
`rel="next"` until there is none.  By design a rewritten link carries `page` and `per_page` only
(`DESIGN.md`, "Pagination"), so from the second request on the filter is the default one, open
issues with any label.  The walk shows the first page of the requested listing and then, if
that was not all, the default listing from its second page on (`issues_walk`); under the default
filter this is the whole listing.

The cache takes part: a page may be answered from it.  It is enough that its entries are
coherent with the unchanging GitHub, because then the answer is the one the service without a
cache gives (`listAnswer_alike`).
-/

namespace IssuesApi

variable {rt : Runtime} {gh : IssuePages rt}

/-- The array of a page, as the handler reads it. -/
lemma readPage_content (gh : IssuePages rt) (p : ListIssuesParams) :
    readPage rt (gh.content p.upstream) =
      .ok ((pageOf p.perPage p.page (gh.items p.state (nonempty p.labels))).map
        fun i => .obj i.fields) := by
  have hloads := gh.content_spec p.upstream p.page_valid p.perPage_valid.1 p.perPage_valid.2
  rw [readPage, decode_of_loads hloads, ok_bind, iterateOrEmpty_arr]
  rfl

/-- The response to a page that is not answered from the cache. -/
def pageResponse (gh : IssuePages rt) (p : ListIssuesParams) : IssuesResponse :=
  ⟨200, [("X-Cache", "MISS".toList)] ++
      (nonempty ((gh.headers p.upstream).get "etag")).toList.map (fun v => ("ETag", v)) ++
      (linkHeader (repointed .issues (gh.links p.upstream))).toList.map (fun v => ("Link", v)) ++
      pageHeaders p.page p.perPage,
    .model (.issues ((pageOf p.perPage p.page (gh.items p.state (nonempty p.labels))).filterMap
      GitHubItem.shown))⟩

/-- The rendering of a page GitHub has served. -/
lemma renderPage_content (gh : IssuePages rt) (p : ListIssuesParams) :
    renderPage rt p "MISS" (freshEntry (gh.headers p.upstream)
      ((pageOf p.perPage p.page (gh.items p.state (nonempty p.labels))).map
        fun i => .obj i.fields)) = .ok (pageResponse gh p) := by
  have hlink : (gh.headers p.upstream).get "link" =
      linkHeader ((gh.links p.upstream).map GitHubLink.link) :=
    gh.headers_spec _ p.page_valid p.perPage_valid.1 p.perPage_valid.2
  have hrewrite := (gh.links_spec p.upstream p.page_valid p.perPage_valid.1
    p.perPage_valid.2).rewrite rt.netloc .issues
  have htag : nonempty (some (((gh.headers p.upstream).get "etag").getD [])) =
      nonempty ((gh.headers p.upstream).get "etag") := nonempty_eq_of_getD_eq rfl
  have hascii : ∀ v ∈ nonempty (some (((gh.headers p.upstream).get "etag").getD [])),
      isAscii v = true := by
    intro v hv
    rw [htag] at hv
    exact gh.etag_spec _ v (mem_of_mem_nonempty hv)
  have hissues : ∀ items : List (GitHubItem rt),
      encodedIssues rt (items.map fun i => Json.obj i.fields) = .ok (items.map (·.issue)) := by
    intro items
    rw [encodedIssues_eq_ok, mapM_eq_ok, List.forall₂_map_left_iff, List.forall₂_map_right_iff,
      List.forall₂_same]
    exact fun i _ => i.encodedIssue
  rw [renderPage, freshEntry, optionalHeader_of_ascii "ETag" hascii, htag, ok_bind, hlink]
  show (rewriteLinkHeader rt.netloc _ LocalPath.issues.text >>= _) = _
  rw [hrewrite, ok_bind, optionalHeader_linkHeader, ok_bind, GitHubItem.withoutPullRequests,
    ok_bind, hissues, ok_bind, ← GitHubItem.filterMap_shown]
  rfl

/-- What the service without a cache answers to a page. -/
lemma uncachedAnswer_page (gh : IssuePages rt) (settings : Settings) (now : ℚ)
    (requestId : Text) {p : ListIssuesParams} (hp : p.ifNoneMatch = none) :
    uncachedAnswer rt settings gh.world now requestId p =
      respond rt requestId (.ok (pageResponse gh p)) := by
  have htag : nonempty (conditionalEtag p none) = none := by
    rw [conditionalEtag, hp]
    rfl
  have hpage : gh.world p.upstream =
    .page (gh.content p.upstream) (gh.headers p.upstream) := rfl
  rw [uncachedAnswer_eq, listAnswer, htag, World.list_plain hpage,
    receiveList_page, readPage_content]
  dsimp only
  rw [renderPage_content]

/-! ## What the client sees -/

/-- The `Link` header of a page. -/
lemma header_link_pageResponse (gh : IssuePages rt) (p : ListIssuesParams) (requestId : Text) :
    (respond rt requestId (.ok (pageResponse gh p)) : IssuesResponse).header "Link" =
      linkHeader (repointed .issues (gh.links p.upstream)) := by
  rw [respond_ok, pageResponse]
  cases nonempty ((gh.headers p.upstream).get "etag") <;>
    cases linkHeader (repointed .issues (gh.links p.upstream)) <;>
    simp [Response.header, Response.withHeader, pageHeaders, requestIdHeader]

/-- Answers that are alike show the same and lead to the same request. -/
lemma Alike.client {r r' : IssuesResponse} (h : Alike r r') :
    shownIssues r = shownIssues r' ∧ nextRequest rt r = nextRequest rt r' := by
  constructor
  · rw [shownIssues, shownIssues, h.status, h.body]
  · rw [nextRequest, nextRequest, h.header "Link" (by decide)]

/-- **One page.**  Whatever coherent cache answers it, the client is shown the issues of the
page, and its next request is the following page of the default listing, as long as the
requested listing has more. -/
lemma fetch_issues {github : UpstreamRequest → UpstreamOutcome}
    (hserves : ∀ q tag, github (.listIssues q tag) = gh.world.list q tag)
    (settings : Settings) (schedule : Schedule) {s : Session}
    (hcache : CoherentCache rt {gh.world} s.cache) {p : ListIssuesParams}
    (hp : p.ifNoneMatch = none) :
    ∃ t : Session, CoherentCache rt {gh.world} t.cache ∧
      fetchPage rt settings github schedule shownIssues s (.listIssues p) =
        (some ((pageOf p.perPage p.page (gh.items p.state (nonempty p.labels))).filterMap
            GitHubItem.shown,
          if p.page * p.perPage < (gh.items p.state (nonempty p.labels)).length then
            some (.listIssues ⟨.OPEN, none, p.page + 1, p.perPage, none, by omega,
              p.perPage_valid⟩) else none), t) := by
  have hworld := Set.mem_singleton gh.world
  have hlinks : PageLinks (gh.links p.upstream) p.page p.perPage
      (p.page * p.perPage < (gh.items p.state (nonempty p.labels)).length) :=
    gh.links_spec p.upstream p.page_valid p.perPage_valid.1 p.perPage_valid.2
  obtain ⟨hread, hsent⟩ := coherent_send settings hcache p
  have hrequest := send_request settings s.cache (.listIssues p)
  set call := (send settings s.cache (.listIssues p)).1
  set sent := (send settings s.cache (.listIssues p)).2
  set now := schedule.now s.made
  set requestId := schedule.requestId s.made
  have halike := listAnswer_alike settings (uniqueTags_singleton gh.world) gh.asciiTags hworld
    hread now requestId sent
  rw [uncachedAnswer_page gh settings now requestId hp] at halike
  have hanswer : s.answer rt settings github schedule (.listIssues p) =
      ((listAnswer rt settings gh.world now requestId p call.cached sent).1,
        ⟨s.made + 1, (listAnswer rt settings gh.world now requestId p call.cached sent).2⟩) := by
    have hupstream : github call.upstream =
        gh.world.list p.upstream (nonempty (conditionalEtag p call.cached)) := by
      rw [← hserves, Call.upstream, hrequest]
    rw [← receive_eq_listAnswer settings hrequest, ← hupstream]
    rfl
  refine ⟨⟨s.made + 1, _⟩,
    coherent_listAnswer settings hworld p call.cached hsent now requestId, ?_⟩
  obtain ⟨hshown, hnext⟩ := halike.client
  rw [fetchPage, hanswer]
  dsimp only
  rw [hshown, hnext, hlinks.nextRequest rt .issues (header_link_pageResponse gh p _)]
  split_ifs with hmore
  · have hlast : p.page + 1 ≤ (gh.items p.state (nonempty p.labels)).length :=
      (Nat.le_mul_of_pos_right p.page p.perPage_valid.1).trans_lt hmore
    have hdigits := (length_decimal_mono hlast).trans (gh.length_spec _ _)
    rw [parseGet_issues rt (by omega) p.perPage_valid hdigits]
    rfl
  · rfl

/-- The walk through the default listing, from any of its pages. -/
lemma follow_default {github : UpstreamRequest → UpstreamOutcome}
    (hserves : ∀ q tag, github (.listIssues q tag) = gh.world.list q tag)
    (settings : Settings) (schedule : Schedule) {s : Session}
    (hcache : CoherentCache rt {gh.world} s.cache) {perPage : ℕ}
    (hperPage : 1 ≤ perPage ∧ perPage ≤ maxPerPage) {fuel : ℕ} (hfuel : 1 ≤ fuel) {n : ℕ}
    (hcover : (gh.items .OPEN none).length ≤ (n + fuel) * perPage) :
    ∃ pages, follow (fetchPage rt settings github schedule shownIssues) fuel s
        (.listIssues ⟨.OPEN, none, n + 1, perPage, none, by omega, hperPage⟩) = some pages ∧
      pages.flatten = ((gh.items .OPEN none).drop (n * perPage)).filterMap GitHubItem.shown := by
  have hfetch : ∀ (s : Session) (n : ℕ), CoherentCache rt {gh.world} s.cache → 0 ≤ n →
      ∃ t : Session, CoherentCache rt {gh.world} t.cache ∧
        fetchPage rt settings github schedule shownIssues s
          (.listIssues ⟨.OPEN, none, n + 1, perPage, none, by omega, hperPage⟩) =
        (some ((pageOf perPage (n + 1) (gh.items .OPEN none)).filterMap GitHubItem.shown,
          if (n + 1) * perPage < (gh.items .OPEN none).length then
            some (.listIssues ⟨.OPEN, none, n + 1 + 1, perPage, none, by omega, hperPage⟩)
          else none), t) := by
    intro s n hs _
    exact fetch_issues hserves settings schedule hs rfl
  exact follow_pages hfetch hfuel hcache (Nat.zero_le n) hcover

/-- **The walk.**  A client that requests page 1 under a filter and then follows `rel="next"`
is never refused and stops.  It has been shown the issues of the first page of the listing it
asked for and, when that has more items than fit on a page, the issues of the default listing
from its second page on.  Under the default filter these are the issues of the listing. -/
theorem issues_walk (gh : IssuePages rt) {github : UpstreamRequest → UpstreamOutcome}
    (hserves : ∀ q tag, github (.listIssues q tag) = gh.world.list q tag)
    (settings : Settings) (schedule : Schedule) {s : Session}
    (hcache : CoherentCache rt {gh.world} s.cache) (state : IssueStateFilter)
    (labels : Option Text) {perPage : ℕ} (hperPage : 1 ≤ perPage ∧ perPage ≤ maxPerPage)
    {fuel : ℕ} (hfuel : 2 ≤ fuel)
    (hcover : (gh.items .OPEN none).length ≤ fuel * perPage) :
    ∃ pages, follow (fetchPage rt settings github schedule shownIssues) fuel s
        (.listIssues ⟨state, labels, 1, perPage, none, le_refl 1, hperPage⟩) = some pages ∧
      pages.flatten =
        ((gh.items state (nonempty labels)).take perPage).filterMap GitHubItem.shown ++
          (if perPage < (gh.items state (nonempty labels)).length then
            (gh.items .OPEN none).drop perPage else []).filterMap GitHubItem.shown ∧
      (state = .OPEN → nonempty labels = none →
        pages.flatten = (gh.items state (nonempty labels)).filterMap GitHubItem.shown) := by
  have hwalk : ∃ pages, follow (fetchPage rt settings github schedule shownIssues) fuel s
        (.listIssues ⟨state, labels, 1, perPage, none, le_refl 1, hperPage⟩) = some pages ∧
      pages.flatten =
        ((gh.items state (nonempty labels)).take perPage).filterMap GitHubItem.shown ++
          (if perPage < (gh.items state (nonempty labels)).length then
            (gh.items .OPEN none).drop perPage else []).filterMap GitHubItem.shown := by
    obtain ⟨fuel, rfl⟩ := Nat.exists_eq_add_of_le' (Nat.le_of_succ_le hfuel)
    obtain ⟨t, ht, hpage⟩ := fetch_issues hserves settings schedule hcache
      (p := ⟨state, labels, 1, perPage, none, le_refl 1, hperPage⟩) rfl
    simp only [Nat.one_mul] at hpage
    by_cases hmore : perPage < (gh.items state (nonempty labels)).length
    · rw [if_pos hmore] at hpage ⊢
      have hpos : 1 ≤ fuel := by omega
      obtain ⟨pages, hfollow, hflat⟩ := follow_default hserves settings schedule ht hperPage hpos
        (n := 1) (by rwa [Nat.add_comm 1 fuel])
      refine ⟨_, by rw [follow_next hpage, hfollow, Option.map_some], ?_⟩
      rw [List.flatten_cons, hflat, Nat.one_mul]
      simp [pageOf]
    · rw [if_neg hmore] at hpage ⊢
      refine ⟨_, follow_last hpage fuel, ?_⟩
      simp [pageOf]
  obtain ⟨pages, hfollow, hflat⟩ := hwalk
  refine ⟨pages, hfollow, hflat, ?_⟩
  rintro rfl hlabels
  rw [hflat, hlabels, ← List.filterMap_append]
  congr 1
  split_ifs with hmore
  · rw [List.take_append_drop]
  · rw [List.append_nil, List.take_of_length_le (Nat.not_lt.mp hmore)]

/-- A GitHub that answers list requests only. -/
def listingsOnly (gh : IssuePages rt) : UpstreamRequest → UpstreamOutcome
  | .listIssues q tag => gh.world.list q tag
  | _ => .timeout

/-- The walk through two closed issues, one to a page. -/
theorem issues_walk_closed :
    ∃ pages, follow (fetchPage .reference .reference (listingsOnly .closed)
        ⟨fun _ => 0, fun _ => []⟩ shownIssues) 2 ⟨0, .new 1 (by decide)⟩
        (.listIssues ⟨.CLOSED, none, 1, 1, none, by decide, by decide⟩) = some pages ∧
      pages.flatten.map (·.number) = [1] := by
  obtain ⟨pages, hfollow, hflat, -⟩ := @issues_walk .reference .closed (listingsOnly .closed)
    (fun _ _ => rfl) .reference ⟨fun _ => 0, fun _ => []⟩ ⟨0, .new 1 (by decide)⟩
    (coherentCache_new 1 (by decide)) .CLOSED none 1 (by decide) 2 (by decide) (by decide)
  refine ⟨pages, hfollow, ?_⟩
  rw [hflat]
  rfl

/-- The same walk loses the filter: GitHub links the first page of closed issues to the second
one, but the walk never shows what is there. -/
theorem issues_walk_loses_filter :
    ((IssuePages.closed.headers ⟨.CLOSED, none, 1, 1⟩).get "link" =
      some ("<https://api.github.com/repositories/1/issues?state=closed&page=1&per_page=1>; " ++
        "rel=\"first\", " ++
        "<https://api.github.com/repositories/1/issues?state=closed&page=2&per_page=1>; " ++
        "rel=\"next\"").toList) ∧
    ∀ fuel pages, follow (fetchPage .reference .reference (listingsOnly .closed)
        ⟨fun _ => 0, fun _ => []⟩ shownIssues) fuel ⟨0, .new 1 (by decide)⟩
        (.listIssues ⟨.CLOSED, none, 1, 1, none, by decide, by decide⟩) = some pages →
      pages.flatten ≠ (IssuePages.closed.items .CLOSED none).filterMap GitHubItem.shown := by
  refine ⟨by decide +kernel, fun fuel pages hpages => ?_⟩
  have htwo : follow (fetchPage .reference .reference (listingsOnly .closed)
      ⟨fun _ => 0, fun _ => []⟩ shownIssues) 2 ⟨0, .new 1 (by decide)⟩
      (.listIssues ⟨.CLOSED, none, 1, 1, none, by decide, by decide⟩) =
      some [[(GitHubItem.sample 1).issue], []] := by
    decide +kernel
  rw [follow_unique hpages htwo]
  decide

end IssuesApi

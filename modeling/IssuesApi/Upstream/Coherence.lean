import IssuesApi.Upstream.Listing

/-!
# Cache coherence

What one `GET /issues` does to the cache and what it is answered, for a cache all of whose
entries are `Coherent`: GitHub once served the entry's body and `Link` together, under its tag,
for the query of its key.  The key determines the query, and a tag identifies its page, so a 304
means that the cached page is the current one, and the answer is the one of the service without
a cache (`listAnswer_alike`).
-/

namespace IssuesApi

variable {rt : Runtime} {settings : Settings} {worlds : Set World}

/-! ## The service without a cache -/

/-- The answer of the service with `cache_enabled=False`, when GitHub is in the given state. -/
def uncachedAnswer (rt : Runtime) (settings : Settings) (world : World) (now : ℚ)
    (requestId : Text) (p : ListIssuesParams) : IssuesResponse :=
  let cache := ResponseCache.new settings.cacheMaxEntries settings.cacheMaxEntries_pos
  let (call, cache) := send settings.withoutCache cache (.listIssues p)
  let outcome := world.list p.upstream (nonempty (conditionalEtag p call.cached))
  respond rt requestId (receive rt settings.withoutCache now call cache outcome).1

/-- Two answers that differ at most in `X-Cache`. -/
structure Alike (r r' : IssuesResponse) : Prop where
  status : r.status = r'.status
  body : r.body = r'.body
  header : ∀ name, name ≠ "X-Cache" → r.header name = r'.header name

lemma Alike.refl (r : IssuesResponse) : Alike r r := ⟨rfl, rfl, fun _ _ => rfl⟩

/-! ## Coherence -/

/-- The items of a page, as `list_issues` reads them. -/
def readPage (rt : Runtime) (content : Bytes) : Except PyException (List Json) := do
  let data ← decode rt ⟨200, [], content, []⟩
  iterateOrEmpty data

lemma readPage_builtin (rt : Runtime) (content : Bytes) : OnlyBuiltin (readPage rt content) :=
  (decode_builtin rt _).bind fun data => iterateOrEmpty_builtin data

/-- GitHub once served the entry for the query of the key. -/
structure Coherent (rt : Runtime) (worlds : Set World) (key : CacheKey) (entry : CachedList) :
    Prop where
  tagged : entry.etag ≠ []
  served : ∀ p, cacheKey p = key → ∃ w ∈ worlds, ∃ content headers,
    w p.upstream = .page content headers ∧ headers.get "etag" = some entry.etag ∧
    headers.get "link" = entry.link ∧ readPage rt content = .ok entry.data

/-- Every entry of the cache is coherent. -/
def CoherentCache (rt : Runtime) (worlds : Set World) (cache : ResponseCache) : Prop :=
  ∀ key entry, (key, entry) ∈ cache.entries → Coherent rt worlds key entry

/-- An entry that a request has read is coherent. -/
def CoherentRead (rt : Runtime) (worlds : Set World) (p : ListIssuesParams)
    (cached : Option CachedList) : Prop :=
  ∀ entry ∈ cached, Coherent rt worlds (cacheKey p) entry

lemma nonempty_eq_of_getD_eq {s t : Option Text} (h : s.getD [] = t.getD []) :
    nonempty s = nonempty t := by
  match s, t with
  | none, none => rfl
  | none, some [] => rfl
  | none, some (c :: t) => cases h
  | some [], none => rfl
  | some (c :: t), none => cases h
  | some s, some t => exact congrArg (fun x => nonempty (some x)) h

/-- The key determines the upstream query. -/
lemma upstream_eq_of_cacheKey_eq {p q : ListIssuesParams} (h : cacheKey p = cacheKey q) :
    p.upstream = q.upstream := by
  simp only [cacheKey, Prod.mk.injEq] at h
  obtain ⟨hstate, hlabels, hpage, hperPage⟩ := h
  simp only [ListIssuesParams.upstream, IssueStateFilter.value_injective hstate,
    nonempty_eq_of_getD_eq hlabels, hpage, hperPage]

lemma coherentCache_new (n : ℕ) (h : 1 ≤ n) : CoherentCache rt worlds (.new n h) := by
  intro key entry hmem
  cases hmem

/-- Reading the cache gives something coherent and keeps the cache coherent. -/
lemma coherent_send (settings : Settings) {cache : ResponseCache}
    (h : CoherentCache rt worlds cache) (p : ListIssuesParams) :
    CoherentRead rt worlds p (send settings cache (.listIssues p)).1.cached ∧
      CoherentCache rt worlds (send settings cache (.listIssues p)).2 := by
  unfold send
  dsimp only
  split
  · refine ⟨fun entry hentry => h _ _ (ResponseCache.mem_of_get hentry), fun key entry hmem => ?_⟩
    exact h _ _ (ResponseCache.mem_get_entries.mp hmem)
  · exact ⟨fun entry hentry => (by cases hentry), h⟩

/-- Storing a page that GitHub has just served keeps the cache coherent. -/
lemma coherentCache_set {cache : ResponseCache} (h : CoherentCache rt worlds cache)
    {p : ListIssuesParams} {entry : CachedList} (hentry : Coherent rt worlds (cacheKey p) entry) :
    CoherentCache rt worlds (cache.set (cacheKey p) entry) := by
  intro key e hmem
  rcases ResponseCache.mem_set_entries hmem with heq | hold
  · obtain ⟨rfl, rfl⟩ := Prod.mk.inj heq
    exact hentry
  · exact h key e hold

/-! ## The answer to one request -/

/-- The page a 200 makes. -/
def freshEntry (headers : Headers) (data : List Json) : CachedList :=
  ⟨(headers.get "etag").getD [], data, headers.get "link"⟩

/-- A handler that gets a 200 renders the page it carries. -/
lemma receiveList_page {p : ListIssuesParams} {cached : Option CachedList}
    {cache : ResponseCache} {now : ℚ} {content : Bytes} {headers : Headers}
    {reasonPhrase : Text} :
    receiveList rt settings now p cached cache (.response ⟨200, headers, content, reasonPhrase⟩) =
      match readPage rt content with
      | .error e => (.error e, cache)
      | .ok data =>
        (renderPage rt p "MISS" (freshEntry headers data),
          if settings.cacheEnabled ∧ (freshEntry headers data).etag ≠ [] then
            cache.recordMiss.set (cacheKey p) (freshEntry headers data)
          else cache.recordMiss) := by
  unfold receiveList readPage
  rw [request_page]
  cases decode rt ⟨200, [], content, []⟩ with
  | error e => rfl
  | ok data =>
    have hfresh : (⟨200, data, headers⟩ : GitHubResult).notModified = false := rfl
    simp only [ok_bind, Except.map, hfresh]
    cases iterateOrEmpty data <;> rfl

/-- A page is rendered the same from the cache. -/
lemma renderPage_alike (p : ListIssuesParams) (entry : CachedList) (requestId : Text)
    (x y : String) :
    Alike (respond rt requestId (renderPage rt p x entry))
      (respond rt requestId (renderPage rt p y entry)) := by
  unfold renderPage
  cases optionalHeader "ETag" (some entry.etag) with
  | error e => exact Alike.refl _
  | ok etag =>
  rw [ok_bind, ok_bind]
  cases rewriteLinkHeader rt.netloc entry.link issuesPath with
  | error e => exact Alike.refl _
  | ok forwarded =>
  rw [ok_bind, ok_bind]
  cases optionalHeader "Link" forwarded with
  | error e => exact Alike.refl _
  | ok link =>
  rw [ok_bind, ok_bind]
  cases withoutPullRequests entry.data with
  | error e => exact Alike.refl _
  | ok items =>
  rw [ok_bind, ok_bind]
  cases encodedIssues rt items with
  | error e => exact Alike.refl _
  | ok issues =>
  refine ⟨rfl, rfl, fun name hname => ?_⟩
  have hne : ¬ "X-Cache" = name := fun h => hname h.symm
  simp [pure, Except.pure, Response.header, Response.withHeader, requestIdHeader, hne]

/-- The tag the service sends, when it is the caller's. -/
lemma conditionalEtag_of_caller {p : ListIssuesParams} {tag : Text}
    (h : nonempty p.ifNoneMatch = some tag) (cached : Option CachedList) :
    nonempty (conditionalEtag p cached) = some tag ∧ answersCaller p cached = some tag := by
  have hcond : conditionalEtag p cached = some tag := by rw [conditionalEtag, h]
  refine ⟨by rw [hcond, nonempty_some (ne_nil_of_nonempty h)], ?_⟩
  rw [answersCaller, h]
  exact if_pos hcond

/-- The tag the service sends otherwise is the cached one. -/
lemma conditionalEtag_of_cached {p : ListIssuesParams} (h : nonempty p.ifNoneMatch = none)
    (cached : Option CachedList) :
    conditionalEtag p cached = cached.map (·.etag) ∧ answersCaller p cached = none := by
  constructor
  · rw [conditionalEtag, h]
  · rw [answersCaller, h]

lemma receiveList_of_error {p : ListIssuesParams} {cached : Option CachedList}
    {cache : ResponseCache} {now : ℚ} {outcome : UpstreamOutcome} {e : PyException}
    (h : request rt now outcome = .error e) :
    receiveList rt settings now p cached cache outcome = (.error e, cache) := by
  rw [receiveList, h]

/-- A 304 that answers the caller's own tag. -/
lemma receiveList_of_caller {p : ListIssuesParams} {cached : Option CachedList}
    {cache : ResponseCache} {now : ℚ} {headers : Headers} {tag : Text}
    (h : answersCaller p cached = some tag) :
    receiveList rt settings now p cached cache (.response ⟨304, headers, [], []⟩) =
      (.ok ⟨304, [("ETag", tag)], .empty⟩, cache) := by
  have h304 : (⟨304, .null, headers⟩ : GitHubResult).notModified = true := rfl
  simp only [receiveList, request_notModified, h, h304]

/-- A 304 that answers the cached tag. -/
lemma receiveList_of_hit {p : ListIssuesParams} {entry : CachedList} {cache : ResponseCache}
    {now : ℚ} {headers : Headers} (h : answersCaller p (some entry) = none) :
    receiveList rt settings now p (some entry) cache (.response ⟨304, headers, [], []⟩) =
      (renderPage rt p "HIT" entry, cache.recordHit) := by
  have h304 : (⟨304, .null, headers⟩ : GitHubResult).notModified = true := rfl
  simp only [receiveList, request_notModified, h, h304]

/-- What a request for a page comes to, and why. -/
lemma World.list_page_cases {world : World} {p : ListIssuesParams} {content : Bytes}
    {headers : Headers} (hw : world p.upstream = .page content headers)
    (cached : Option CachedList) :
    let outcome := world.list p.upstream (nonempty (conditionalEtag p cached))
    outcome = .unencodable ∨ outcome = .response ⟨200, headers, content, []⟩ ∨
      outcome = .response ⟨304, headers, [], []⟩ ∧
        ((∃ tag, nonempty p.ifNoneMatch = some tag ∧ headers.get "etag" = some tag) ∨
          nonempty p.ifNoneMatch = none ∧
            ∃ entry, cached = some entry ∧ headers.get "etag" = some entry.etag) := by
  dsimp only
  cases htag : nonempty (conditionalEtag p cached) with
  | none => exact Or.inr (Or.inl (World.list_plain hw))
  | some tag =>
    cases hascii : isAscii tag with
    | false => exact Or.inl (World.list_unencodable hascii)
    | true =>
      by_cases hcurrent : headers.get "etag" = some tag
      · refine Or.inr (Or.inr ⟨World.list_current hw hascii hcurrent, ?_⟩)
        cases hcaller : nonempty p.ifNoneMatch with
        | some tag' =>
          obtain rfl :=
            Option.some.inj ((conditionalEtag_of_caller hcaller cached).1.symm.trans htag)
          exact Or.inl ⟨_, rfl, hcurrent⟩
        | none =>
          rw [(conditionalEtag_of_cached hcaller cached).1] at htag
          obtain ⟨entry, rfl, rfl⟩ := Option.map_eq_some_iff.mp (mem_of_mem_nonempty htag)
          exact Or.inr ⟨rfl, entry, rfl, hcurrent⟩
      · exact Or.inr (Or.inl (World.list_fresh hw hascii hcurrent))

/-- A tag that GitHub once served can be sent back, when its tags are ASCII. -/
lemma Coherent.ascii {p : ListIssuesParams} {entry : CachedList}
    (h : Coherent rt worlds (cacheKey p) entry) (hascii : AsciiTags worlds) :
    isAscii entry.etag = true := by
  obtain ⟨w, hw, content, headers, hpage, htag, -⟩ := h.served p rfl
  exact hascii w hw _ content headers hpage entry.etag htag

/-- What the service answers to a request that has read `cached`. -/
def listAnswer (rt : Runtime) (settings : Settings) (world : World) (now : ℚ) (requestId : Text)
    (p : ListIssuesParams) (cached : Option CachedList) (cache : ResponseCache) :
    IssuesResponse × ResponseCache :=
  let outcome := world.list p.upstream (nonempty (conditionalEtag p cached))
  let (answer, cache) := receiveList rt settings now p cached cache outcome
  (respond rt requestId answer, cache)

lemma uncachedAnswer_eq (rt : Runtime) (settings : Settings) (world : World) (now : ℚ)
    (requestId : Text) (p : ListIssuesParams) :
    uncachedAnswer rt settings world now requestId p =
      (listAnswer rt settings.withoutCache world now requestId p none
        (.new settings.cacheMaxEntries settings.cacheMaxEntries_pos)).1 := rfl

/-- A 200 is answered alike, whatever the settings, the cache and what was read from it. -/
lemma receiveList_page_fst {p : ListIssuesParams} {cached cached' : Option CachedList}
    {cache cache' : ResponseCache} {settings' : Settings} {now : ℚ} {content : Bytes}
    {headers : Headers} :
    (receiveList rt settings now p cached cache (.response ⟨200, headers, content, []⟩)).1 =
      (receiveList rt settings' now p cached' cache'
        (.response ⟨200, headers, content, []⟩)).1 := by
  rw [receiveList_page, receiveList_page]
  cases readPage rt content <;> rfl

/-- **One request.**  A request whose read of the cache is coherent is answered like the
service without a cache would, given GitHub's state when GitHub answered. -/
lemma listAnswer_alike (settings : Settings) (hunique : UniqueTags worlds)
    (hascii : AsciiTags worlds) {world : World} (hworld : world ∈ worlds) {p : ListIssuesParams}
    {cached : Option CachedList} (hread : CoherentRead rt worlds p cached) (now : ℚ)
    (requestId : Text) (cache : ResponseCache) :
    Alike (listAnswer rt settings world now requestId p cached cache).1
      (uncachedAnswer rt settings world now requestId p) := by
  rw [uncachedAnswer_eq]
  unfold listAnswer
  dsimp only
  cases hcaller : nonempty p.ifNoneMatch with
  | some tag =>
    -- the caller's tag is sent whether or not something was cached
    obtain ⟨htag, hans⟩ := conditionalEtag_of_caller hcaller cached
    obtain ⟨htag', hans'⟩ := conditionalEtag_of_caller hcaller none
    rw [htag, htag']
    cases hsent : isAscii tag with
    | false =>
      rw [World.list_unencodable hsent, receiveList_of_error rfl, receiveList_of_error rfl]
      exact Alike.refl _
    | true =>
      cases hw : world p.upstream with
      | failure outcome failed =>
        obtain ⟨e, he⟩ := request_of_failed rt now failed
        rw [World.list_failure hw (by simpa using hsent), receiveList_of_error he,
          receiveList_of_error he]
        exact Alike.refl _
      | page content headers =>
        by_cases hcurrent : headers.get "etag" = some tag
        · rw [World.list_current hw hsent hcurrent, receiveList_of_caller hans,
            receiveList_of_caller hans']
          exact Alike.refl _
        · rw [World.list_fresh hw hsent hcurrent, receiveList_page_fst]
          exact Alike.refl _
  | none =>
    obtain ⟨hcond, hans⟩ := conditionalEtag_of_cached hcaller cached
    have hnone : nonempty (conditionalEtag p none) = none := by
      rw [(conditionalEtag_of_cached hcaller none).1]
      rfl
    rw [hnone, hcond]
    cases cached with
    | none =>
      have hempty : nonempty (Option.map CachedList.etag none) = none := rfl
      rw [hempty]
      cases hw : world p.upstream with
      | failure outcome failed =>
        obtain ⟨e, he⟩ := request_of_failed rt now failed
        rw [World.list_failure hw rfl, receiveList_of_error he, receiveList_of_error he]
        exact Alike.refl _
      | page content headers =>
        rw [World.list_plain hw, receiveList_page_fst]
        exact Alike.refl _
    | some entry =>
      have hcoh := hread entry rfl
      have hsent : isAscii entry.etag = true := hcoh.ascii hascii
      rw [Option.map_some, nonempty_some hcoh.tagged]
      cases hw : world p.upstream with
      | failure outcome failed =>
        obtain ⟨e, he⟩ := request_of_failed rt now failed
        rw [World.list_failure hw (by simpa using hsent), World.list_failure hw rfl,
          receiveList_of_error he, receiveList_of_error he]
        exact Alike.refl _
      | page content headers =>
        rw [World.list_plain hw]
        by_cases hcurrent : headers.get "etag" = some entry.etag
        · -- the cached page is the current one
          obtain ⟨w, hwmem, content', headers', hpage, htag', hlink, hdata⟩ := hcoh.served p rfl
          obtain ⟨rfl, hlinks⟩ := hunique _ hworld _ hwmem _ _ _ _ _ _ hw hpage hcurrent htag'
          have hentry : freshEntry headers entry.data = entry := by
            rw [freshEntry, hcurrent, hlinks, hlink]
            rfl
          rw [World.list_current hw hsent hcurrent, receiveList_of_hit hans, receiveList_page,
            hdata]
          dsimp only
          rw [hentry]
          exact renderPage_alike p entry requestId "HIT" "MISS"
        · rw [World.list_fresh hw hsent hcurrent, receiveList_page_fst]
          exact Alike.refl _

/-- Storing the current page of a listing keeps the cache coherent. -/
lemma coherent_receiveList_page (settings : Settings) {world : World} (hworld : world ∈ worlds)
    {p : ListIssuesParams} {content : Bytes} {headers : Headers}
    (hw : world p.upstream = .page content headers) (cached : Option CachedList)
    {cache : ResponseCache} (h : CoherentCache rt worlds cache) (now : ℚ) :
    CoherentCache rt worlds (receiveList rt settings now p cached cache
      (.response ⟨200, headers, content, []⟩)).2 := by
  rw [receiveList_page]
  cases hdata : readPage rt content with
  | error e => exact h
  | ok data =>
    dsimp only
    split_ifs with hset
    · have hmiss : CoherentCache rt worlds cache.recordMiss := h
      refine coherentCache_set hmiss ⟨hset.2, fun q hq => ?_⟩
      have hetag : headers.get "etag" = some (freshEntry headers data).etag := by
        cases htag : headers.get "etag" with
        | none => exact absurd (by simp [freshEntry, htag]) hset.2
        | some tag => simp [freshEntry, htag]
      rw [upstream_eq_of_cacheKey_eq hq]
      exact ⟨world, hworld, content, headers, hw, hetag, rfl, hdata⟩
    · exact h

/-- Answering keeps the cache coherent. -/
lemma coherent_listAnswer (settings : Settings) {world : World} (hworld : world ∈ worlds)
    (p : ListIssuesParams) (cached : Option CachedList) {cache : ResponseCache}
    (h : CoherentCache rt worlds cache) (now : ℚ) (requestId : Text) :
    CoherentCache rt worlds (listAnswer rt settings world now requestId p cached cache).2 := by
  unfold listAnswer
  dsimp only
  cases hw : world p.upstream with
  | failure outcome failed =>
    by_cases hsent : (nonempty (conditionalEtag p cached)).all isAscii = true
    · obtain ⟨e, he⟩ := request_of_failed rt now failed
      rw [World.list_failure hw hsent, receiveList_of_error he]
      exact h
    · rw [World.list, if_neg hsent, receiveList_of_error rfl]
      exact h
  | page content headers =>
    rcases World.list_page_cases hw cached with
      hunsent | hfresh | ⟨hcurrent, ⟨tag, hcaller, -⟩ | hcached⟩
    · rw [hunsent, receiveList_of_error rfl]
      exact h
    · rw [hfresh]
      exact coherent_receiveList_page settings hworld hw cached h now
    · rw [hcurrent, receiveList_of_caller (conditionalEtag_of_caller hcaller cached).2]
      exact h
    · obtain ⟨hcaller, entry, rfl, -⟩ := hcached
      rw [hcurrent, receiveList_of_hit (conditionalEtag_of_cached hcaller _).2]
      exact h

/-- The two handler halves of a list request, for the outcome GitHub computed in between. -/
lemma receive_eq_listAnswer (settings : Settings) {call : Call} {p : ListIssuesParams}
    (hrequest : call.request = .listIssues p) (seen : World) (now : ℚ) (requestId : Text)
    (cache : ResponseCache) :
    let answer := receive rt settings now call cache
      (seen.list p.upstream (nonempty (conditionalEtag p call.cached)))
    (respond rt requestId answer.1, answer.2) =
      listAnswer rt settings seen now requestId p call.cached cache := by
  simp only [receive, hrequest, listAnswer]

end IssuesApi

import IssuesApi.Properties.CacheTransparency
import IssuesApi.Properties.LeastRecentlyUsed

/-!
# What the cache saves

`cache_transparent` says that the cache changes no answer; here is what it is for.  While GitHub
does not change, a query that is asked again costs nothing exactly when fewer than
`cache_max_entries` other queries have been used since it was used last (`listing_spared_iff`),
and `stats` counts exactly that.

A request uses its query unless nothing is stored for it and the request brings no page either,
because GitHub confirms the caller's own validator, or because that validator cannot be sent.
-/

namespace IssuesApi

variable {rt : Runtime} {settings : Settings} {world : World}

/-! ## List requests, one after the other -/

/-- A `GET /issues` with what GitHub and the service answered. -/
structure ListExchange where
  params : ListIssuesParams
  now : ℚ
  requestId : Text
  outcome : UpstreamOutcome
  response : IssuesResponse

/-- The cache while list requests are answered one after the other. -/
def listExchangeStep (rt : Runtime) (settings : Settings) (world : World) (cache : ResponseCache)
    (x : ListExchange) (cache' : ResponseCache) : Prop :=
  let (call, sent) := send settings cache (.listIssues x.params)
  x.outcome = world.list x.params.upstream (nonempty (conditionalEtag x.params call.cached)) ∧
    (x.response, cache') =
      listAnswer rt settings world x.now x.requestId x.params call.cached sent

/-- One list request, answered. -/
def listExchange (rt : Runtime) (settings : Settings) (world : World) (cache : ResponseCache)
    (p : ListIssuesParams) (now : ℚ) (requestId : Text) : ListExchange × ResponseCache :=
  let call := (send settings cache (.listIssues p)).1
  let answer := servedAnswer rt settings world cache p now requestId
  (⟨p, now, requestId, world.list p.upstream (nonempty (conditionalEtag p call.cached)),
    answer.1⟩, answer.2)

lemma listExchangeStep_listExchange (cache : ResponseCache) (p : ListIssuesParams) (now : ℚ)
    (requestId : Text) :
    listExchangeStep rt settings world cache
      (listExchange rt settings world cache p now requestId).1
      (listExchange rt settings world cache p now requestId).2 := ⟨rfl, rfl⟩

/-- The current entity tag of a query. -/
def World.tag (world : World) (query : ListQuery) : Option Text :=
  match world query with
  | .page _ headers => headers.get "etag"
  | .failure _ _ => none

/-- GitHub has a page for every query, which can be read and has a tag that can be sent back. -/
def AllCacheable (rt : Runtime) (world : World) : Prop :=
  ∀ query, ∃ content headers tag data, world query = .page content headers ∧
    headers.get "etag" = some tag ∧ tag ≠ [] ∧ isAscii tag = true ∧
    readPage rt content = .ok data

/-- The status GitHub answered with. -/
def UpstreamOutcome.statusCode? : UpstreamOutcome → Option ℕ
  | .response r => some r.statusCode
  | _ => none

/-- The caller sends no validator. -/
def ListExchange.plain (x : ListExchange) : Bool := (nonempty x.params.ifNoneMatch).isNone

/-- GitHub confirmed what the cache holds. -/
def ListExchange.spared (x : ListExchange) : Bool :=
  x.plain && x.outcome.statusCode? = some 304

/-- GitHub sent a page. -/
def ListExchange.fetched (x : ListExchange) : Bool := x.outcome.statusCode? = some 200

/-- The request brings no page: GitHub confirms the caller's own validator, or never gets it. -/
def ListExchange.pageless (world : World) (x : ListExchange) : Bool :=
  (nonempty x.params.ifNoneMatch).any fun tag =>
    !isAscii tag || world.tag x.params.upstream = some tag

/-- The keys that are used, one more request considered. -/
def useKey (world : World) (size : ℕ) (used : List CacheKey) (x : ListExchange) : List CacheKey :=
  if x.pageless world ∧ cacheKey x.params ∉ mostRecent size used then used
  else used ++ [cacheKey x.params]

/-- The keys that the requests have used, in order. -/
def usedKeys (world : World) (size : ℕ) (history : List ListExchange) : List CacheKey :=
  history.foldl (useKey world size) []

/-! ## What is stored -/

namespace ResponseCache

variable (cache : ResponseCache) (key : CacheKey)

@[simp] lemma get_maxEntries : (cache.get key).2.maxEntries = cache.maxEntries := by
  unfold get
  split <;> rfl

@[simp] lemma get_hits : (cache.get key).2.hits = cache.hits := by
  unfold get
  split <;> rfl

@[simp] lemma get_misses : (cache.get key).2.misses = cache.misses := by
  unfold get
  split <;> rfl

end ResponseCache

/-- The cache holds the current tags of the keys used last, and counts. -/
structure HoldsUsed (world : World) (maxEntries : ℕ) (history : List ListExchange)
    (cache : ResponseCache) : Prop where
  limit : cache.maxEntries = maxEntries
  keys : cache.storedKeys = mostRecent maxEntries (usedKeys world maxEntries history)
  current : ∀ p entry, (cacheKey p, entry) ∈ cache.entries →
    world.tag p.upstream = some entry.etag
  hits : cache.hits = history.countP ListExchange.spared
  misses : cache.misses = history.countP ListExchange.fetched

lemma usedKeys_append (world : World) (size : ℕ) (history : List ListExchange)
    (x : ListExchange) :
    usedKeys world size (history ++ [x]) = useKey world size (usedKeys world size history) x := by
  rw [usedKeys, List.foldl_append]
  rfl

/-- What GitHub answers to a request, and the cache after it. -/
lemma listExchange_spec (henabled : settings.cacheEnabled = true) {cache cache' : ResponseCache}
    {x : ListExchange} (h : listExchangeStep rt settings world cache x cache') :
    let read := cache.get (cacheKey x.params)
    x.outcome = world.list x.params.upstream (nonempty (conditionalEtag x.params read.1)) ∧
      cache' = (receiveList rt settings x.now x.params read.1 read.2 x.outcome).2 := by
  simp only [listExchangeStep, send, if_pos henabled] at h
  obtain ⟨houtcome, hanswer⟩ := h
  refine ⟨houtcome, ?_⟩
  rw [houtcome]
  exact congrArg Prod.snd hanswer

/-- A page is stored under its tag. -/
lemma receiveList_page_stored (henabled : settings.cacheEnabled = true) {content : Bytes}
    {headers : Headers} {tag : Text} {data : List Json} (htag : headers.get "etag" = some tag)
    (hne : tag ≠ []) (hdata : readPage rt content = .ok data) (now : ℚ) (p : ListIssuesParams)
    (cached : Option CachedList) (cache : ResponseCache) :
    ∃ entry : CachedList, entry.etag = tag ∧
      (receiveList rt settings now p cached cache (.response ⟨200, headers, content, []⟩)).2 =
        cache.recordMiss.set (cacheKey p) entry := by
  have hetag : (freshEntry headers data).etag = tag := by simp [freshEntry, htag]
  refine ⟨freshEntry headers data, hetag, ?_⟩
  rw [receiveList_page, hdata]
  exact if_pos ⟨henabled, by rwa [hetag]⟩

/-- The outcome of a request, and the cache after it, told from its read of the cache. -/
lemma listExchange_cases (henabled : settings.cacheEnabled = true)
    (hworld : AllCacheable rt world) {cache cache' : ResponseCache} {x : ListExchange}
    (h : listExchangeStep rt settings world cache x cache')
    (hcurrent : ∀ entry ∈ (cache.get (cacheKey x.params)).1,
      world.tag x.params.upstream = some entry.etag) :
    let read := cache.get (cacheKey x.params)
    (x.pageless world = true ∧ x.spared = false ∧ x.fetched = false ∧ cache' = read.2) ∨
      (x.pageless world = false ∧ x.spared = true ∧ x.fetched = false ∧ read.1 ≠ none ∧
        cache' = read.2.recordHit) ∨
      x.pageless world = false ∧ x.spared = false ∧ x.fetched = true ∧
        (x.plain = true → read.1 = none) ∧
        ∃ entry, world.tag x.params.upstream = some entry.etag ∧
          cache' = read.2.recordMiss.set (cacheKey x.params) entry := by
  intro read
  obtain ⟨content, headers, tag, data, hpage, htag, hne, hascii, hdata⟩ := hworld x.params.upstream
  have hcurrentTag : world.tag x.params.upstream = some tag := by
    rw [World.tag, hpage]
    exact htag
  obtain ⟨houtcome, hcache⟩ := listExchange_spec henabled h
  have hfresh (hpaged : x.outcome = .response ⟨200, headers, content, []⟩) :
      x.spared = false ∧ x.fetched = true ∧ ∃ entry,
        world.tag x.params.upstream = some entry.etag ∧
        cache' = read.2.recordMiss.set (cacheKey x.params) entry := by
    obtain ⟨entry, hentry, hstored⟩ :=
      receiveList_page_stored henabled htag hne hdata x.now x.params read.1 read.2
    refine ⟨by simp [ListExchange.spared, hpaged, UpstreamOutcome.statusCode?],
      by simp [ListExchange.fetched, hpaged, UpstreamOutcome.statusCode?], entry, ?_, ?_⟩
    · rw [hentry, hcurrentTag]
    · rw [hcache, hpaged, hstored]
  cases hcaller : nonempty x.params.ifNoneMatch with
  | some v =>
    obtain ⟨hcond, hanswers⟩ := conditionalEtag_of_caller hcaller read.1
    have hplain : x.plain = false := by rw [ListExchange.plain, hcaller]; rfl
    rw [hcond] at houtcome
    cases hsent : isAscii v with
    | false =>
      rw [World.list_unencodable hsent] at houtcome
      refine Or.inl ⟨?_, by simp [ListExchange.spared, hplain], ?_, ?_⟩
      · simp [ListExchange.pageless, hcaller, hsent]
      · simp [ListExchange.fetched, houtcome, UpstreamOutcome.statusCode?]
      · rw [hcache, houtcome, receiveList_of_error rfl]
    | true =>
      by_cases hv : headers.get "etag" = some v
      · rw [World.list_current hpage hsent hv] at houtcome
        refine Or.inl ⟨?_, by simp [ListExchange.spared, hplain], ?_, ?_⟩
        · simp [ListExchange.pageless, hcaller, hcurrentTag, ← hv, htag]
        · simp [ListExchange.fetched, houtcome, UpstreamOutcome.statusCode?]
        · rw [hcache, houtcome, receiveList_of_caller hanswers]
      · rw [World.list_fresh hpage hsent hv] at houtcome
        obtain ⟨hspared, hfetched, hentry⟩ := hfresh houtcome
        refine Or.inr (Or.inr ⟨?_, hspared, hfetched, by simp [hplain], hentry⟩)
        have hother : ¬ tag = v := fun heq => hv (heq ▸ htag)
        simp [ListExchange.pageless, hcaller, hcurrentTag, hother, hsent]
  | none =>
    obtain ⟨hcond, hanswers⟩ := conditionalEtag_of_cached hcaller read.1
    have hplain : x.plain = true := by rw [ListExchange.plain, hcaller]; rfl
    have hpageless : x.pageless world = false := by rw [ListExchange.pageless, hcaller]; rfl
    rw [hcond] at houtcome
    cases hread : read.1 with
    | none =>
      have hnone : nonempty (none : Option Text) = none := rfl
      rw [hread, Option.map_none, hnone, World.list_plain hpage] at houtcome
      obtain ⟨hspared, hfetched, hentry⟩ := hfresh houtcome
      exact Or.inr (Or.inr ⟨hpageless, hspared, hfetched, fun _ => rfl, hentry⟩)
    | some entry =>
      -- what is stored is current, so GitHub confirms it
      have hentry : some tag = some entry.etag := hcurrentTag ▸ hcurrent entry hread
      have hsent : nonempty (some entry.etag) = some entry.etag :=
        nonempty_some (Option.some.inj hentry ▸ hne)
      have hetag : isAscii entry.etag = true := Option.some.inj hentry ▸ hascii
      rw [hread, Option.map_some, hsent,
        World.list_current hpage hetag (htag.trans hentry)] at houtcome
      refine Or.inr (Or.inl ⟨hpageless, ?_, ?_, by simp, ?_⟩)
      · simp [ListExchange.spared, hplain, houtcome, UpstreamOutcome.statusCode?]
      · simp [ListExchange.fetched, houtcome, UpstreamOutcome.statusCode?]
      · rw [hread] at hanswers hcache
        rw [hcache, houtcome, receiveList_of_hit hanswers]

namespace HoldsUsed

variable {size : ℕ} {history : List ListExchange} {cache : ResponseCache} {key : CacheKey}

lemma nodup (h : HoldsUsed world size history cache) : cache.storedKeys.Nodup := by
  rw [h.keys]
  exact nodup_mostRecent _ _

/-- Reading finds the keys that were used last. -/
lemma get_ne_none_iff (h : HoldsUsed world size history cache) :
    (cache.get key).1 ≠ none ↔ key ∈ mostRecent size (usedKeys world size history) := by
  rw [← h.keys, ResponseCache.get_fst, Option.ne_none_iff_isSome, OrderedDict.get_isSome_iff]
  rfl

/-- Reading a stored key is a use of it. -/
lemma storedKeys_get (h : HoldsUsed world (size + 1) history cache) (key : CacheKey) :
    (cache.get key).2.storedKeys =
      if key ∈ mostRecent (size + 1) (usedKeys world (size + 1) history) then
        mostRecent (size + 1) (usedKeys world (size + 1) history ++ [key])
      else mostRecent (size + 1) (usedKeys world (size + 1) history) := by
  cases hget : cache.entries.get key with
  | none =>
    have hnot : key ∉ mostRecent (size + 1) (usedKeys world (size + 1) history) := by
      rw [← h.get_ne_none_iff, ResponseCache.get_fst, hget]
      exact fun hne => hne rfl
    rw [ResponseCache.get_of_none hget, if_neg hnot, ← h.keys]
  | some entry =>
    have hstored : key ∈ mostRecent (size + 1) (usedKeys world (size + 1) history) := by
      rw [← h.get_ne_none_iff, ResponseCache.get_fst, hget]
      exact Option.some_ne_none entry
    rw [ResponseCache.get_of_some h.nodup hget, if_pos hstored, mostRecent_append_of_mem hstored,
      ← h.keys, ResponseCache.storedKeys, List.map_append, OrderedDict.map_fst_filter_ne]
    rfl

/-- Storing a page after the read is one more use. -/
lemma storedKeys_set (h : HoldsUsed world (size + 1) history cache) (key : CacheKey)
    (entry : CachedList) :
    ((cache.get key).2.recordMiss.set key entry).storedKeys =
      mostRecent (size + 1) (usedKeys world (size + 1) history ++ [key]) := by
  have hkeys : (cache.get key).2.recordMiss.storedKeys = (cache.get key).2.storedKeys := rfl
  have hnodup : (cache.get key).2.recordMiss.storedKeys.Nodup := by
    rw [hkeys, h.storedKeys_get]
    split <;> exact nodup_mostRecent _ _
  have hlimit : (cache.get key).2.recordMiss.maxEntries = size + 1 := by
    rw [← h.limit]
    exact ResponseCache.get_maxEntries ..
  rw [ResponseCache.storedKeys_set hnodup hlimit, hkeys, h.storedKeys_get]
  split
  · rw [← mostRecent_append_singleton, mostRecent_append_self]
  · rw [← mostRecent_append_singleton]

/-- What is read is current. -/
lemma current_get (h : HoldsUsed world size history cache) (p : ListIssuesParams) :
    ∀ entry ∈ (cache.get (cacheKey p)).1, world.tag p.upstream = some entry.etag :=
  fun entry hentry => h.current p entry (ResponseCache.mem_of_get hentry)

/-- One request. -/
lemma step (henabled : settings.cacheEnabled = true) (hworld : AllCacheable rt world)
    (h : HoldsUsed world (size + 1) history cache) {x : ListExchange} {cache' : ResponseCache}
    (hstep : listExchangeStep rt settings world cache x cache') :
    HoldsUsed world (size + 1) (history ++ [x]) cache' ∧
      (x.spared = true ↔ x.plain = true ∧
        cacheKey x.params ∈ mostRecent (size + 1) (usedKeys world (size + 1) history)) := by
  have hfound : (cache.get (cacheKey x.params)).1 ≠ none ↔
      cacheKey x.params ∈ mostRecent (size + 1) (usedKeys world (size + 1) history) :=
    h.get_ne_none_iff
  have hread (p : ListIssuesParams) (entry : CachedList)
      (hmem : (cacheKey p, entry) ∈ (cache.get (cacheKey x.params)).2.entries) :
      world.tag p.upstream = some entry.etag :=
    h.current p entry (ResponseCache.mem_get_entries.mp hmem)
  rcases listExchange_cases henabled hworld hstep (h.current_get x.params) with
    ⟨hpageless, hspared, hfetched, rfl⟩ | ⟨hpageless, hspared, hfetched, hsome, rfl⟩ |
    ⟨hpageless, hspared, hfetched, hmiss, entry, htag, rfl⟩
  · -- no page, and nothing stored that was confirmed
    have hplain : x.plain = false := by
      cases hv : nonempty x.params.ifNoneMatch with
      | none => simp [ListExchange.pageless, hv] at hpageless
      | some v => simp [ListExchange.plain, hv]
    refine ⟨⟨by simp [h.limit], ?_, hread, ?_, ?_⟩, by simp [hspared, hplain]⟩
    · rw [h.storedKeys_get, usedKeys_append, useKey, hpageless]
      by_cases hmem : cacheKey x.params ∈ mostRecent (size + 1) (usedKeys world (size + 1) history)
      · rw [if_pos hmem, if_neg (by simp [hmem])]
      · rw [if_neg hmem, if_pos ⟨rfl, hmem⟩]
    · simp [h.hits, List.countP_append, hspared]
    · simp [h.misses, List.countP_append, hfetched]
  · -- GitHub confirmed what was stored
    have hmem := hfound.mp hsome
    have hplain : x.plain = true := (Bool.and_eq_true_iff.mp hspared).1
    refine ⟨⟨by simp [ResponseCache.recordHit, h.limit], ?_, hread, ?_, ?_⟩,
      by simp [hspared, hplain, hmem]⟩
    · have hkeys := h.storedKeys_get (cacheKey x.params)
      rw [if_pos hmem] at hkeys
      rw [usedKeys_append, useKey, if_neg (by simp [hpageless])]
      exact hkeys
    · simp [ResponseCache.recordHit, h.hits, List.countP_append, hspared]
    · simp [ResponseCache.recordHit, h.misses, List.countP_append, hfetched]
  · -- GitHub sent a page
    refine ⟨⟨?_, ?_, ?_, ?_, ?_⟩, ?_⟩
    · simp [ResponseCache.set, ResponseCache.recordMiss, h.limit]
    · rw [h.storedKeys_set, usedKeys_append, useKey, if_neg (by simp [hpageless])]
    · intro p e hmem
      rcases ResponseCache.mem_set_entries hmem with hnew | hold
      · obtain ⟨hkey, rfl⟩ := Prod.mk.inj hnew
        rw [upstream_eq_of_cacheKey_eq hkey]
        exact htag
      · exact hread p e hold
    · simp [ResponseCache.set, ResponseCache.recordMiss, h.hits, List.countP_append, hspared]
    · simp [ResponseCache.set, ResponseCache.recordMiss, h.misses, List.countP_append, hfetched]
    · rw [hspared]
      refine iff_of_false Bool.false_ne_true ?_
      rintro ⟨hplain, hmem⟩
      exact hfound.mpr hmem (hmiss hplain)

end HoldsUsed

lemma holdsUsed_run (henabled : settings.cacheEnabled = true) (hworld : AllCacheable rt world)
    {size : ℕ} (hpos : 1 ≤ size + 1) {history : List ListExchange} {cache : ResponseCache}
    (hrun : Run (listExchangeStep rt settings world) (.new (size + 1) hpos) history cache) :
    HoldsUsed world (size + 1) history cache := by
  apply hrun.invariant
  · exact ⟨rfl, (mostRecent_nil (size + 1)).symm, by simp [ResponseCache.new], rfl, rfl⟩
  · intro _ _ _ _ _ h hstep
    exact (h.step henabled hworld hstep).1

/-- **What the cache saves.**  Let GitHub have one page with a tag for every query, and let any
list requests have been answered.  The next one is answered from the cache, GitHub only
confirming the stored tag, exactly when the caller sends no validator of its own and fewer than
`cache_max_entries` other queries have been used since its query was used last.  `stats` says how
many queries are stored, how many requests were spared and for how many GitHub sent a page. -/
theorem listing_spared_iff (henabled : settings.cacheEnabled = true)
    (hworld : AllCacheable rt world) {history : List ListExchange} {cache cache' : ResponseCache}
    (hrun : Run (listExchangeStep rt settings world)
      (.new settings.cacheMaxEntries settings.cacheMaxEntries_pos) history cache)
    {x : ListExchange} (hstep : listExchangeStep rt settings world cache x cache') :
    (x.spared = true ↔ x.plain = true ∧ ∃ before after,
      usedKeys world settings.cacheMaxEntries history =
        before ++ cacheKey x.params :: after ∧
      cacheKey x.params ∉ after ∧ after.dedup.length < settings.cacheMaxEntries) ∧
    cache'.stats =
      [("entries", min settings.cacheMaxEntries
          (usedKeys world settings.cacheMaxEntries (history ++ [x])).dedup.length),
        ("hits", (history ++ [x]).countP ListExchange.spared),
        ("misses", (history ++ [x]).countP ListExchange.fetched)] := by
  obtain ⟨size, hsize⟩ := Nat.exists_eq_add_of_le' settings.cacheMaxEntries_pos
  have hholds : HoldsUsed world settings.cacheMaxEntries history cache := by
    simp only [hsize] at hrun ⊢
    exact holdsUsed_run henabled hworld _ hrun
  rw [hsize] at hholds ⊢
  obtain ⟨hholds', hspared⟩ := hholds.step henabled hworld hstep
  refine ⟨hspared.trans (and_congr_right' mem_mostRecent_iff), ?_⟩
  have hlen : cache'.len = cache'.storedKeys.length := by
    rw [ResponseCache.len, ResponseCache.storedKeys, List.length_map]
  rw [ResponseCache.stats, hlen, hholds'.keys, hholds'.hits, hholds'.misses, mostRecent,
    length_rtake]

lemma mixedListing_cacheable {tag : Text} (hne : tag ≠ []) (hascii : isAscii tag = true) :
    AllCacheable .reference (mixedListing tag) := by
  intro query
  refine ⟨_, _, tag, mixedItems, rfl, get_etag tag, hne, hascii, ?_⟩
  rw [readPage, decode_of_loads loads_mixedContent]
  exact iterateOrEmpty_arr mixedItems

/-- A list request to a tracker with one page. -/
def firstExchange : ListExchange × ResponseCache :=
  listExchange .reference .reference (mixedListing "\"1\"".toList)
    (.new Settings.reference.cacheMaxEntries Settings.reference.cacheMaxEntries_pos) firstIssues 0
    ['1']

/-- The same request again costs nothing. -/
theorem listing_spared_second :
    (listExchange .reference .reference (mixedListing "\"1\"".toList) firstExchange.2 firstIssues 0
      ['2']).1.spared = true := by
  have hused : usedKeys (mixedListing "\"1\"".toList) Settings.reference.cacheMaxEntries
      [firstExchange.1] = [cacheKey firstIssues] := rfl
  have hagain : ∀ cache, Run (listExchangeStep .reference .reference (mixedListing "\"1\"".toList))
      (.new Settings.reference.cacheMaxEntries Settings.reference.cacheMaxEntries_pos)
      [firstExchange.1] cache →
        (listExchange .reference .reference (mixedListing "\"1\"".toList) cache firstIssues 0
          ['2']).1.spared = true := by
    intro cache hrun
    have hspared := (listing_spared_iff rfl (mixedListing_cacheable (by decide) (by decide)) hrun
      (listExchangeStep_listExchange cache firstIssues 0 ['2'])).1
    exact hspared.mpr ⟨rfl, [], [], hused, by simp, by decide⟩
  exact hagain _ (Run.start.next (listExchangeStep_listExchange ..))

end IssuesApi

import IssuesApi.Core
import IssuesApi.Lib.Simulation
import IssuesApi.Properties.CacheTransparency

/-!
# What GitHub adds to its objects is never noticed

`outputs_unread` is about any interleaving of requests to the six GitHub-backed routes over one
cache, with any outcomes of the calls: when GitHub's documents are replaced by others with the
same cores, the service makes the same calls to GitHub, with the same validators, and every
handler returns or raises the same.  So a member the service does not read can be added, changed
or removed at any time, also between the call that filled the cache and the one that is answered
from it.

The handlers read items only through the projections (`Core`), and the cache stores whole items;
what is kept along a run is that the caches, and the entries the calls in flight have read, have
the same cores.
-/

namespace IssuesApi

variable {ι : Type} {rt : Runtime} {settings : Settings}

/-! ## Cores of what the service holds -/

/-- The core of the document an accepted request is answered with. -/
def coreBody : IssuesRequest → Json → Json
  | .createIssue _ => coreIssue
  | .listIssues _ => corePage coreItem
  | .getIssue _ | .updateIssue _ _ => coreItem
  | .createComment _ _ => coreComment
  | .listComments _ _ => corePage coreComment

def GitHubResult.core (req : IssuesRequest) (r : GitHubResult) : GitHubResult :=
  { r with data := coreBody req r.data }

def CachedList.core (entry : CachedList) : CachedList :=
  { entry with data := entry.data.map coreItem }

def ResponseCache.core (cache : ResponseCache) : ResponseCache :=
  { cache with entries := cache.entries.mapValues CachedList.core }

def Call.core (call : Call) : Call := { call with cached := call.cached.map CachedList.core }

lemma ResponseCache.get_core (cache : ResponseCache) (key : CacheKey) :
    cache.core.get key = ((cache.get key).1.map CachedList.core, (cache.get key).2.core) := by
  have hget : cache.core.entries.get key = (cache.entries.get key).map CachedList.core :=
    OrderedDict.get_mapValues ..
  rw [get, get, hget]
  cases cache.entries.get key with
  | none => rfl
  | some entry =>
    simp only [Option.map_some, core, OrderedDict.moveToEnd_mapValues]

lemma ResponseCache.set_core (cache : ResponseCache) (key : CacheKey) (entry : CachedList) :
    (cache.set key entry).core = cache.core.set key entry.core := by
  simp only [set, core, OrderedDict.assign_mapValues, OrderedDict.moveToEnd_mapValues,
    OrderedDict.evictTo_mapValues]

lemma send_core (cache : ResponseCache) (req : IssuesRequest) :
    send settings cache.core req =
      ((send settings cache req).1.core, (send settings cache req).2.core) := by
  cases req with
  | listIssues p =>
    simp only [send]
    split
    · rw [ResponseCache.get_core]
      rfl
    · rfl
  | _ => rfl

/-- The validator is part of the core. -/
lemma conditionalEtag_core (p : ListIssuesParams) (cached : Option CachedList) :
    conditionalEtag p (cached.map CachedList.core) = conditionalEtag p cached := by
  unfold conditionalEtag
  cases cached <;> rfl

lemma upstream_core (call : Call) : call.core.upstream = call.upstream := by
  obtain ⟨req, cached⟩ := call
  cases req with
  | listIssues p => simp only [Call.upstream, Call.core, conditionalEtag_core]
  | _ => rfl

/-! ## The handlers read cores -/

lemma withoutPullRequests_core : ∀ items : List Json,
    withoutPullRequests (items.map coreItem) =
      (withoutPullRequests items).map (List.map coreItem)
  | [] => rfl
  | item :: items => by
      rw [List.map_cons, withoutPullRequests, withoutPullRequests, isPullRequest_coreItem,
        withoutPullRequests_core items]
      cases isPullRequest item with
      | error e => rfl
      | ok skip =>
        cases withoutPullRequests items with
        | error e => rfl
        | ok rest => cases skip <;> rfl

/-- What is left is no pull request. -/
lemma isPullRequest_of_mem_kept : ∀ {items kept : List Json},
    withoutPullRequests items = .ok kept → ∀ item ∈ kept, isPullRequest item = .ok false
  | [], kept, h => by
      obtain rfl := Except.ok.inj h
      simp
  | item :: items, kept, h => by
      obtain ⟨skip, hskip, h⟩ := bind_eq_ok.mp h
      obtain ⟨rest, hrest, h⟩ := bind_eq_ok.mp h
      have htail := isPullRequest_of_mem_kept hrest
      obtain rfl := Except.ok.inj h
      cases skip with
      | true => exact htail
      | false => exact List.forall_mem_cons.mpr ⟨hskip, htail⟩

/-- Issues are read from the cores of their items. -/
lemma encodedIssues_core {items : List Json} (h : ∀ item ∈ items, isPullRequest item = .ok false) :
    encodedIssues rt (items.map coreItem) = encodedIssues rt items := by
  have hread : (items.map coreItem).mapM (toIssue rt) = items.mapM (toIssue rt) := by
    induction items with
    | nil => rfl
    | cons item items ih =>
      obtain ⟨hitem, htail⟩ := List.forall_mem_cons.mp h
      rw [List.map_cons, List.mapM_cons, List.mapM_cons, coreItem_of_not_pullRequest hitem,
        toIssue_coreIssue, ih htail]
  rw [encodedIssues, hread, encodedIssues]

lemma encodedComments_core (number : Option ℕ) (items : List Json) :
    encodedComments rt number (items.map coreComment) = encodedComments rt number items := by
  rw [encodedComments, List.mapM_map, encodedComments]
  exact congrArg (fun f => items.mapM f >>= fun comments => comments.mapM Comment.encoded)
    (funext fun item => toComment_coreComment rt number item)

/-- A page is rendered from its core. -/
lemma renderPage_core (p : ListIssuesParams) (xCache : String) (entry : CachedList) :
    renderPage rt p xCache entry.core = renderPage rt p xCache entry := by
  unfold renderPage CachedList.core
  dsimp only
  rw [withoutPullRequests_core]
  cases hkept : withoutPullRequests entry.data with
  | error e => rfl
  | ok items =>
    simp only [Except.map, ok_bind, encodedIssues_core (isPullRequest_of_mem_kept hkept)]

lemma renderPage_of_core (p : ListIssuesParams) (xCache : String) {entry entry' : CachedList}
    (h : entry.core = entry'.core) :
    renderPage rt p xCache entry = renderPage rt p xCache entry' := by
  rw [← renderPage_core, h, renderPage_core]

/-- A handler that reads the core of a result gives the same for results of one core. -/
lemma bind_alike {α : Type} {req : IssuesRequest} {x y : Except PyException GitHubResult}
    (h : x.map (GitHubResult.core req) = y.map (GitHubResult.core req))
    {f : GitHubResult → Except PyException α} (hf : ∀ r, f (r.core req) = f r) :
    x >>= f = y >>= f := by
  have hmap (z : Except PyException GitHubResult) :
      z >>= f = z.map (GitHubResult.core req) >>= f := by
    cases z with
    | error e => rfl
    | ok r => exact (hf r).symm
  rw [hmap x, hmap y, h]

lemma issueOrNotFound_core (number : ℕ) (data : Json) :
    issueOrNotFound rt number (coreItem data) = issueOrNotFound rt number data := by
  unfold issueOrNotFound
  rw [isPullRequest_coreItem]
  cases hpr : isPullRequest data with
  | error e => rfl
  | ok isPr =>
    cases isPr with
    | true => rfl
    | false =>
      rw [coreItem_of_not_pullRequest hpr, encodedIssue, encodedIssue, toIssue_coreIssue]

lemma receiveListComments_core (number : ℕ) (p : PageParams) (r : GitHubResult) :
    receiveListComments rt number p (r.core (.listComments number p)) =
      receiveListComments rt number p r := by
  unfold receiveListComments GitHubResult.core GitHubResult.link coreBody
  dsimp only
  rw [iterateOrEmpty_corePage fun _ => rfl]
  cases iterateOrEmpty r.data with
  | error e => rfl
  | ok items => simp only [Except.map, ok_bind, encodedComments_core]

/-- The cache after a page was fetched. -/
def cacheAfterMiss (settings : Settings) (p : ListIssuesParams) (cache : ResponseCache)
    (entry : CachedList) : ResponseCache :=
  if settings.cacheEnabled ∧ entry.etag ≠ [] then cache.recordMiss.set (cacheKey p) entry
  else cache.recordMiss

/-- A fetched page: the last branch of `receiveList`. -/
def fetchedList (rt : Runtime) (settings : Settings) (p : ListIssuesParams)
    (cache : ResponseCache) (result : GitHubResult) :
    Except PyException IssuesResponse × ResponseCache :=
  match iterateOrEmpty result.data with
  | .error e => (.error e, cache)
  | .ok data =>
    let entry : CachedList := ⟨result.etag.getD [], data, result.link⟩
    (renderPage rt p "MISS" entry, cacheAfterMiss settings p cache entry)

/-- The same answer, and a cache of the same core. -/
def SameCore (x y : Except PyException IssuesResponse × ResponseCache) : Prop :=
  x.1 = y.1 ∧ x.2.core = y.2.core

lemma cacheAfterMiss_alike (p : ListIssuesParams) {cache cache' : ResponseCache}
    (hcache : cache.core = cache'.core) {entry entry' : CachedList}
    (hentry : entry.core = entry'.core) :
    (cacheAfterMiss settings p cache entry).core =
      (cacheAfterMiss settings p cache' entry').core := by
  have hetag : entry.etag = entry'.etag := (CachedList.mk.inj hentry).1
  have hmiss : cache.recordMiss.core = cache'.recordMiss.core :=
    congrArg ResponseCache.recordMiss hcache
  unfold cacheAfterMiss
  rw [hetag]
  split_ifs
  · rw [ResponseCache.set_core, ResponseCache.set_core, hentry, hmiss]
  · exact hmiss

lemma fetchedList_alike (p : ListIssuesParams) {cache cache' : ResponseCache}
    (hcache : cache.core = cache'.core) (status : ℕ) (headers : Headers) {data data' : Json}
    (hdata : corePage coreItem data = corePage coreItem data') :
    SameCore (fetchedList rt settings p cache ⟨status, data, headers⟩)
      (fetchedList rt settings p cache' ⟨status, data', headers⟩) := by
  have hitems := congrArg iterateOrEmpty hdata
  rw [iterateOrEmpty_corePage fun _ => rfl, iterateOrEmpty_corePage fun _ => rfl] at hitems
  unfold fetchedList
  dsimp only
  cases hread : iterateOrEmpty data with
  | error e =>
    cases hread' : iterateOrEmpty data' with
    | error e' =>
      rw [hread, hread'] at hitems
      obtain rfl := Except.error.inj hitems
      exact ⟨rfl, hcache⟩
    | ok items' =>
      rw [hread, hread'] at hitems
      cases hitems
  | ok items =>
    cases hread' : iterateOrEmpty data' with
    | error e' =>
      rw [hread, hread'] at hitems
      cases hitems
    | ok items' =>
      rw [hread, hread'] at hitems
      have hentry (etag : Text) (link : Option Text) :
          CachedList.core ⟨etag, items, link⟩ = CachedList.core ⟨etag, items', link⟩ :=
        congrArg (fun data => (⟨etag, data, link⟩ : CachedList)) (Except.ok.inj hitems)
      exact ⟨renderPage_of_core p "MISS" (hentry _ _), cacheAfterMiss_alike p hcache (hentry _ _)⟩

/-- What a list request makes of results of one core. -/
lemma receiveList_alike {now now' : ℚ} (p : ListIssuesParams) {cached cached' : Option CachedList}
    (hcached : cached.map CachedList.core = cached'.map CachedList.core)
    {cache cache' : ResponseCache} (hcache : cache.core = cache'.core)
    {outcome outcome' : UpstreamOutcome}
    (hresult : (request rt now outcome).map (GitHubResult.core (.listIssues p)) =
      (request rt now' outcome').map (GitHubResult.core (.listIssues p))) :
    SameCore (receiveList rt settings now p cached cache outcome)
      (receiveList rt settings now' p cached' cache' outcome') := by
  have hanswers : answersCaller p cached = answersCaller p cached' := by
    unfold answersCaller
    rw [← conditionalEtag_core p cached, hcached, conditionalEtag_core]
  unfold receiveList
  cases hx : request rt now outcome with
  | error e =>
    cases hx' : request rt now' outcome' with
    | error e' =>
      rw [hx, hx'] at hresult
      obtain rfl := Except.error.inj hresult
      exact ⟨rfl, hcache⟩
    | ok r' =>
      rw [hx, hx'] at hresult
      cases hresult
  | ok r =>
    cases hx' : request rt now' outcome' with
    | error e' =>
      rw [hx, hx'] at hresult
      cases hresult
    | ok r' =>
      rw [hx, hx'] at hresult
      obtain ⟨status, data, headers⟩ := r
      obtain ⟨status', data', headers'⟩ := r'
      obtain ⟨rfl, hdata, rfl⟩ := GitHubResult.mk.inj (Except.ok.inj hresult)
      have hfetched : SameCore (fetchedList rt settings p cache ⟨status, data, headers⟩)
          (fetchedList rt settings p cache' ⟨status, data', headers⟩) :=
        fetchedList_alike p hcache status headers hdata
      dsimp only [GitHubResult.notModified]
      rw [← hanswers]
      cases decide (status = 304) with
      | false => exact hfetched
      | true =>
        cases answersCaller p cached with
        | some tag => exact ⟨rfl, hcache⟩
        | none =>
          cases cached with
          | none =>
            cases cached' with
            | none => exact hfetched
            | some entry' => cases hcached
          | some entry =>
            cases cached' with
            | none => cases hcached
            | some entry' =>
              exact ⟨renderPage_of_core p "HIT" (Option.some.inj hcached),
                congrArg ResponseCache.recordHit hcache⟩

/-- **What a handler makes of results of one core.** -/
lemma receive_alike {now now' : ℚ} {call call' : Call} (hcall : call.core = call'.core)
    {cache cache' : ResponseCache} (hcache : cache.core = cache'.core)
    {outcome outcome' : UpstreamOutcome}
    (hresult : (request rt now outcome).map (GitHubResult.core call.request) =
      (request rt now' outcome').map (GitHubResult.core call.request)) :
    SameCore (receive rt settings now call cache outcome)
      (receive rt settings now' call' cache' outcome') := by
  obtain ⟨req, cached⟩ := call
  obtain ⟨req', cached'⟩ := call'
  obtain ⟨rfl, hcached⟩ := Call.mk.inj hcall
  cases req with
  | createIssue payload =>
    refine ⟨bind_alike hresult fun r => ?_, hcache⟩
    simp only [receiveCreateIssue, GitHubResult.core, coreBody, toIssue_coreIssue]
  | listIssues p => exact receiveList_alike p hcached hcache hresult
  | getIssue number =>
    exact ⟨bind_alike hresult fun r => issueOrNotFound_core number r.data, hcache⟩
  | updateIssue number payload =>
    exact ⟨bind_alike hresult fun r => issueOrNotFound_core number r.data, hcache⟩
  | createComment number payload =>
    refine ⟨bind_alike hresult fun r => ?_, hcache⟩
    simp only [receiveCreateComment, GitHubResult.core, coreBody, encodedComment,
      toComment_coreComment]
  | listComments number p =>
    exact ⟨bind_alike hresult fun r => receiveListComments_core number p r, hcache⟩

/-! ## Outcomes of one core -/

/-- The core of a document GitHub answers a request with. -/
def coreDocument (req : IssuesRequest) (statusCode : ℕ) : Json → Json :=
  if 400 ≤ statusCode then coreError else coreBody req

/-- The same outcome of a call, up to the parts of the document that are not read. -/
inductive AlikeOutcomes (rt : Runtime) (req : IssuesRequest) :
    UpstreamOutcome → UpstreamOutcome → Prop
  | unencodable : AlikeOutcomes rt req .unencodable .unencodable
  | timeout : AlikeOutcomes rt req .timeout .timeout
  | transportError (name : Text) :
      AlikeOutcomes rt req (.transportError name) (.transportError name)
  | response (r : UpstreamResponse) {content : Bytes} (hempty : r.content = [] ↔ content = [])
      (hdocument : (rt.loads r.content).map (coreDocument req r.statusCode) =
        (rt.loads content).map (coreDocument req r.statusCode)) :
      AlikeOutcomes rt req (.response r) (.response { r with content })

/-- The members of an error document. -/
def errorFields : Json → List (PyStr × Json)
  | .obj fields => fields
  | _ => []

/-- The details of an error are read from its core. -/
lemma upstreamDetails_core (v : Json) (r : UpstreamResponse) :
    upstreamDetails (errorFields (coreError v)) r = upstreamDetails (errorFields v) r := by
  cases v with
  | obj fields =>
    simp only [coreError, coreObject, errorFields, upstreamDetails, upstreamMessage,
      dictGet_coreError fields (Or.inl rfl), dictGet_coreError fields (Or.inr rfl)]
    rfl
  | _ => rfl

/-- Documents that read the same are read the same with a default. -/
lemma loadsOr_map_alike {α γ : Type} {content content' : Bytes} (default : α)
    {read : Json → α} {f : α → γ}
    (h : (rt.loads content).map (fun v => f (read v)) =
      (rt.loads content').map fun v => f (read v)) :
    (loadsOr rt content default read).map f = (loadsOr rt content' default read).map f := by
  have hmap (content : Bytes) : (loadsOr rt content default read).map f =
      match (rt.loads content).map (fun v => f (read v)) with
      | .ok value => .ok value
      | .error e =>
        if e.exception.isValueError then .ok (f default) else raiseBuiltin e.exception := by
    unfold loadsOr
    cases rt.loads content with
    | ok v => rfl
    | error e => cases e <;> rfl
  rw [hmap, hmap, h]

/-- An error is mapped by its core. -/
lemma mapError_alike (now : ℚ) (r : UpstreamResponse) {content : Bytes}
    (h : (rt.loads r.content).map coreError = (rt.loads content).map coreError) :
    mapError rt now r = mapError rt now { r with content } := by
  have hdetails : (errorPayload rt r).map (upstreamDetails · r) =
      (errorPayload rt { r with content }).map (upstreamDetails · r) := by
    show (loadsOr rt r.content [] errorFields).map (upstreamDetails · r) =
      (loadsOr rt content [] errorFields).map (upstreamDetails · r)
    exact loadsOr_map_alike [] (map_eq_of_map_eq h (f := fun v => upstreamDetails (errorFields v) r)
      fun v => upstreamDetails_core v r)
  unfold mapError
  cases hread : errorPayload rt r with
  | error e =>
    cases hread' : errorPayload rt { r with content } with
    | error e' =>
      rw [hread, hread'] at hdetails
      obtain rfl := Except.error.inj hdetails
      rfl
    | ok payload' =>
      rw [hread, hread'] at hdetails
      cases hdetails
  | ok payload =>
    cases hread' : errorPayload rt { r with content } with
    | error e' =>
      rw [hread, hread'] at hdetails
      cases hdetails
    | ok payload' =>
      rw [hread, hread'] at hdetails
      have hsame : upstreamDetails payload r = upstreamDetails payload' r :=
        Except.ok.inj hdetails
      rw [ok_bind, ok_bind]
      dsimp only
      rw [hsame]
      rfl

lemma decode_alike {req : IssuesRequest} {r : UpstreamResponse} {content : Bytes}
    (hempty : r.content = [] ↔ content = [])
    (h : (rt.loads r.content).map (coreBody req) = (rt.loads content).map (coreBody req)) :
    (decode rt r).map (coreBody req) = (decode rt { r with content }).map (coreBody req) := by
  unfold decode
  by_cases hnone : r.statusCode = 204 ∨ r.statusCode = 304 ∨ r.content = []
  · rw [if_pos hnone, if_pos (by simpa only [← hempty] using hnone)]
  · rw [if_neg hnone, if_neg (by simpa only [← hempty] using hnone)]
    exact loadsOr_map_alike .null h

/-- A call with an outcome of the same core has a result of the same core. -/
lemma request_alike {req : IssuesRequest} {outcome outcome' : UpstreamOutcome}
    (h : AlikeOutcomes rt req outcome outcome') (now : ℚ) :
    (request rt now outcome).map (GitHubResult.core req) =
      (request rt now outcome').map (GitHubResult.core req) := by
  have hrequest (r : UpstreamResponse) : request rt now (.response r) =
      if 400 ≤ r.statusCode then mapError rt now r >>= fun error => .error (.appError error)
      else decode rt r >>= fun data => .ok ⟨r.statusCode, data, r.headers⟩ := rfl
  cases h with
  | unencodable => rfl
  | timeout => rfl
  | transportError name => rfl
  | @response r content hempty hdocument =>
    rw [hrequest, hrequest]
    by_cases hstatus : 400 ≤ r.statusCode
    · rw [coreDocument, if_pos hstatus] at hdocument
      rw [if_pos hstatus, if_pos hstatus, mapError_alike now r hdocument]
    · rw [coreDocument, if_neg hstatus] at hdocument
      rw [if_neg hstatus, if_neg hstatus]
      have hresult (x : Except PyException Json) :
          (x >>= fun data => .ok (⟨r.statusCode, data, r.headers⟩ : GitHubResult)).map
            (GitHubResult.core req) =
          (x.map (coreBody req)).map fun data => ⟨r.statusCode, data, r.headers⟩ := by
        cases x <;> rfl
      exact (hresult _).trans ((congrArg _ (decode_alike hempty hdocument)).trans (hresult _).symm)

/-! ## Runs -/

/-- The cache, and the calls in flight by the request that made them. -/
structure InFlight (ι : Type) where
  cache : ResponseCache
  calls : ι → Option Call

/-- What happens to the service: a request runs up to its call, or the outcome of the call is
there and it runs to its end. -/
inductive ServiceInput (ι : Type) where
  | send (i : ι)
  | receive (i : ι) (now : ℚ) (outcome : UpstreamOutcome)

/-- What the service does in return. -/
inductive ServiceOutput where
  | calls (upstream : UpstreamRequest)
  | answers (answer : Except PyException IssuesResponse)
  | ignores

/-- One input. -/
def serve [DecidableEq ι] (rt : Runtime) (settings : Settings) (requests : ι → IssuesRequest)
    (s : InFlight ι) : ServiceInput ι → ServiceOutput × InFlight ι
  | .send i =>
    let (call, cache) := send settings s.cache (requests i)
    (.calls call.upstream, ⟨cache, Function.update s.calls i (some call)⟩)
  | .receive i now outcome =>
    match s.calls i with
    | none => (.ignores, s)
    | some call =>
      let (answer, cache) := receive rt settings now call s.cache outcome
      (.answers answer, ⟨cache, Function.update s.calls i none⟩)

/-- The same input, up to the parts of GitHub's documents that are not read. -/
inductive AlikeInputs (rt : Runtime) (requests : ι → IssuesRequest) :
    ServiceInput ι → ServiceInput ι → Prop
  | send (i : ι) : AlikeInputs rt requests (.send i) (.send i)
  | receive (i : ι) (now : ℚ) {outcome outcome' : UpstreamOutcome}
      (h : AlikeOutcomes rt (requests i) outcome outcome') :
      AlikeInputs rt requests (.receive i now outcome) (.receive i now outcome')

/-- The service before any request. -/
def InFlight.start (settings : Settings) : InFlight ι :=
  ⟨.new settings.cacheMaxEntries settings.cacheMaxEntries_pos, fun _ => none⟩

/-- What is kept along runs on alike inputs. -/
structure SameInFlight (requests : ι → IssuesRequest) (s t : InFlight ι) : Prop where
  cache : s.cache.core = t.cache.core
  calls : ∀ i, (s.calls i).map Call.core = (t.calls i).map Call.core
  request : ∀ i, ∀ call ∈ s.calls i, call.request = requests i

/-- A request runs up to its call. -/
lemma sameInFlight_send [DecidableEq ι] {requests : ι → IssuesRequest} {s t : InFlight ι}
    (h : SameInFlight requests s t) (i : ι) :
    (serve rt settings requests s (.send i)).1 = (serve rt settings requests t (.send i)).1 ∧
      SameInFlight requests (serve rt settings requests s (.send i)).2
        (serve rt settings requests t (.send i)).2 := by
  have hsend := @send_core settings s.cache (requests i)
  rw [h.cache, send_core] at hsend
  obtain ⟨hcall, hcache⟩ := Prod.mk.inj hsend
  have hupstream : (send settings s.cache (requests i)).1.upstream =
      (send settings t.cache (requests i)).1.upstream := by
    rw [← upstream_core, ← hcall, upstream_core]
  refine ⟨congrArg ServiceOutput.calls hupstream, hcache.symm, fun j => ?_, fun j call hmem => ?_⟩
  · by_cases hij : j = i
    · subst hij
      simpa [serve] using hcall.symm
    · simpa [serve, Function.update_of_ne hij] using h.calls j
  · by_cases hij : j = i
    · subst hij
      obtain rfl : _ = call := by simpa [serve] using hmem
      exact send_request ..
    · exact h.request j call (by simpa [serve, Function.update_of_ne hij] using hmem)

/-- A request runs from the outcome of its call to its end. -/
lemma sameInFlight_receive [DecidableEq ι] {requests : ι → IssuesRequest} {s t : InFlight ι}
    (h : SameInFlight requests s t) (i : ι) (now : ℚ) {outcome outcome' : UpstreamOutcome}
    (halike : AlikeOutcomes rt (requests i) outcome outcome') :
    (serve rt settings requests s (.receive i now outcome)).1 =
        (serve rt settings requests t (.receive i now outcome')).1 ∧
      SameInFlight requests (serve rt settings requests s (.receive i now outcome)).2
        (serve rt settings requests t (.receive i now outcome')).2 := by
  have hcalls := h.calls i
  cases hs : s.calls i with
  | none =>
    cases ht : t.calls i with
    | none => simpa only [serve, hs, ht, true_and] using h
    | some call' =>
      rw [hs, ht] at hcalls
      cases hcalls
  | some call =>
    cases ht : t.calls i with
    | none =>
      rw [hs, ht] at hcalls
      cases hcalls
    | some call' =>
      rw [hs, ht] at hcalls
      have hresult := request_alike (h.request i call hs ▸ halike) now
      obtain ⟨hanswer, hcache⟩ := @receive_alike rt settings now now call call'
        (Option.some.inj hcalls) s.cache t.cache h.cache outcome outcome' hresult
      simp only [serve, hs, ht]
      refine ⟨congrArg ServiceOutput.answers hanswer, hcache, fun j => ?_, fun j call hmem => ?_⟩
      · by_cases hij : j = i
        · subst hij
          simp
        · simpa [Function.update_of_ne hij] using h.calls j
      · by_cases hij : j = i
        · subst hij
          simp at hmem
        · exact h.request j call (by simpa [Function.update_of_ne hij] using hmem)

/-- **What is not read is never noticed.**  From the start, and for any interleaving of requests
with any outcomes of their calls: inputs that differ only in what is not read of GitHub's
documents make the service call GitHub the same way and answer every request the same. -/
theorem outputs_unread [DecidableEq ι] (requests : ι → IssuesRequest)
    {inputs inputs' : List (ServiceInput ι)}
    (h : List.Forall₂ (AlikeInputs rt requests) inputs inputs') :
    outputs (serve rt settings requests) (.start settings) inputs =
      outputs (serve rt settings requests) (.start settings) inputs' := by
  refine outputs_eq (R := SameInFlight requests) (fun s t hrel input input' hinput => ?_) h
    ⟨rfl, fun _ => rfl, fun _ _ hnone => by cases hnone⟩
  cases hinput with
  | send i => exact sameInFlight_send hrel i
  | receive i now halike => exact sameInFlight_receive hrel i now halike

/-- An issue and a pull request. -/
def plainItems : List Json :=
  [.obj [(py "number", .int 1), (py "created_at", .lit epochText),
      (py "updated_at", .lit epochText)],
    .obj [(py "number", .int 2), (py "pull_request", .obj [])]]

/-- The same issue and the same pull request, the members of the issue in another order, one of
them new, and the pull request under another number. -/
def grownItems : List Json :=
  [.obj [(py "node_id", .lit "I_1"), (py "updated_at", .lit epochText),
      (py "created_at", .lit epochText), (py "number", .int 1)],
    .obj [(py "pull_request", .null), (py "number", .int 3)]]

/-- A page with them, tagged. -/
def pageOfItems (items : List Json) : UpstreamResponse :=
  ⟨200, [("etag", "\"1\"".toList)], utf8Encode (dumps Runtime.reference.floatRepr (.arr items)),
    "OK".toList⟩

lemma grownItems_alike (p : ListIssuesParams) :
    AlikeOutcomes .reference (.listIssues p) (.response (pageOfItems plainItems))
      (.response (pageOfItems grownItems)) := by
  have hplain : Runtime.reference.loads (pageOfItems plainItems).content = .ok (.arr plainItems) :=
    Runtime.loads_of_toOption (by decide +kernel)
  have hgrown : Runtime.reference.loads (pageOfItems grownItems).content = .ok (.arr grownItems) :=
    Runtime.loads_of_toOption (by decide +kernel)
  have hcore : plainItems.map coreItem = grownItems.map coreItem := by decide +kernel
  have hdocument :
      (Runtime.reference.loads (pageOfItems plainItems).content).map (corePage coreItem) =
        (Runtime.reference.loads (pageOfItems grownItems).content).map (corePage coreItem) := by
    rw [hplain, hgrown]
    exact congrArg (fun items => Except.ok (Json.arr items)) hcore
  exact .response (pageOfItems plainItems) (by decide +kernel) hdocument

/-- Two requests for the first page, the second answered from what the first one stored. -/
def cachedInputs (page : UpstreamResponse) : List (ServiceInput Bool) :=
  [.send false, .receive false 0 (.response page), .send true,
    .receive true 0 (.response ⟨304, [], [], "Not Modified".toList⟩)]

/-- The page in the cache is replayed, grown or not. -/
theorem outputs_unread_cached :
    outputs (serve .reference .reference fun _ => .listIssues firstIssues) (.start .reference)
        (cachedInputs (pageOfItems plainItems)) =
      outputs (serve .reference .reference fun _ => .listIssues firstIssues) (.start .reference)
        (cachedInputs (pageOfItems grownItems)) := by
  refine outputs_unread _ ?_
  refine .cons (.send false) (.cons (.receive false 0 (grownItems_alike firstIssues)) ?_)
  exact .cons (.send true) (.cons (.receive true 0 (.response _ Iff.rfl rfl)) .nil)

end IssuesApi

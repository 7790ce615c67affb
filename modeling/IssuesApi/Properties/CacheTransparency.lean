import IssuesApi.Lib.Transition
import IssuesApi.Reference
import IssuesApi.Upstream.Coherence
import Mathlib.Logic.Function.Basic

/-!
# The cache is transparent

Any number of `GET /issues` requests run at once.  Each reads the cache and sends its call,
then waits; GitHub computes the answer from its state at some later moment; then the handler
resumes.  In between, other requests move and GitHub changes.  The service without a cache,
asked at the moment GitHub answered, is the specification.

The invariant is that everything cached, and everything a waiting request has read from the
cache, is `Coherent`.  A request may resume after its entry was overwritten or evicted; what it
read stays coherent, which is all its answer depends on.

The cache is transparent as long as GitHub's tags are ASCII (`cache_transparent`).  Any other
tag is stored as well, and is then sent back in a header that httpx cannot encode, so that the
next request for the page fails (`accentedTag_not_transparent`).
-/

namespace IssuesApi

variable {rt : Runtime} {settings : Settings} {worlds : Set World}

/-! ## Interleavings -/

/-- How far a request has come.  From the moment GitHub answers, its state at that moment is
remembered. -/
inductive ListPhase where
  | idle
  | waiting (call : Call)
  | answered (call : Call) (seen : World) (outcome : UpstreamOutcome)
  | finished (seen : World) (now : ℚ) (requestId : Text) (response : IssuesResponse)

/-- GitHub, the cache, and the requests. -/
structure ListState (ι : Type) where
  world : World
  cache : ResponseCache
  phase : ι → ListPhase

/-- The two steps of a request, and what GitHub does in between. -/
inductive ListLabel (ι : Type) where
  | send (i : ι)
  | change (world : World)
  | answer (i : ι)
  | receive (i : ι) (now : ℚ) (requestId : Text)

section

variable {ι : Type} [DecidableEq ι]

/-- One step. -/
def listStep (rt : Runtime) (settings : Settings) (worlds : Set World)
    (params : ι → ListIssuesParams) (s : ListState ι) : ListLabel ι → ListState ι → Prop
  | .send i, t => s.phase i = .idle ∧
      t = ⟨s.world, (send settings s.cache (.listIssues (params i))).2,
        Function.update s.phase i (.waiting (send settings s.cache (.listIssues (params i))).1)⟩
  | .change world, t => world ∈ worlds ∧ t = ⟨world, s.cache, s.phase⟩
  | .answer i, t => ∃ call query tag, s.phase i = .waiting call ∧
      call.upstream = .listIssues query tag ∧
      t = ⟨s.world, s.cache,
        Function.update s.phase i (.answered call s.world (s.world.list query tag))⟩
  | .receive i now requestId, t => ∃ call seen outcome, s.phase i = .answered call seen outcome ∧
      t = ⟨s.world, (receive rt settings now call s.cache outcome).2,
        Function.update s.phase i (.finished seen now requestId
          (respond rt requestId (receive rt settings now call s.cache outcome).1))⟩

/-- An empty cache, before any request. -/
def listStart (ι : Type) (settings : Settings) (world : World) : ListState ι :=
  ⟨world, .new settings.cacheMaxEntries settings.cacheMaxEntries_pos, fun _ => .idle⟩

/-- What is known about a request, by how far it has come. -/
def RequestInvariant (rt : Runtime) (settings : Settings) (worlds : Set World)
    (p : ListIssuesParams) : ListPhase → Prop
  | .idle => True
  | .waiting call => call.request = .listIssues p ∧ CoherentRead rt worlds p call.cached
  | .answered call seen outcome =>
    call.request = .listIssues p ∧ CoherentRead rt worlds p call.cached ∧ seen ∈ worlds ∧
      outcome = seen.list p.upstream (nonempty (conditionalEtag p call.cached))
  | .finished seen now requestId response =>
    Alike response (uncachedAnswer rt settings seen now requestId p)

/-- What holds at any moment. -/
structure ListInvariant (rt : Runtime) (settings : Settings) (worlds : Set World)
    (params : ι → ListIssuesParams) (s : ListState ι) : Prop where
  world : s.world ∈ worlds
  cache : CoherentCache rt worlds s.cache
  request : ∀ i, RequestInvariant rt settings worlds (params i) (s.phase i)

variable {params : ι → ListIssuesParams} {s t : ListState ι}

/-- A step of one request leaves what is known about the others. -/
lemma ListInvariant.update (h : ListInvariant rt settings worlds params s)
    {cache : ResponseCache} (hcache : CoherentCache rt worlds cache) {i : ι} {phase : ListPhase}
    (hphase : RequestInvariant rt settings worlds (params i) phase) :
    ListInvariant rt settings worlds params ⟨s.world, cache, Function.update s.phase i phase⟩ where
  world := h.world
  cache := hcache
  request := by
    have hothers (j : ι) (_ : j ≠ i) : RequestInvariant rt settings worlds (params j) (s.phase j) :=
      h.request j
    exact (Function.forall_update_iff s.phase fun j phase =>
      RequestInvariant rt settings worlds (params j) phase).mpr ⟨hphase, hothers⟩

/-- **One step.** -/
lemma ListInvariant.step (hunique : UniqueTags worlds) (hascii : AsciiTags worlds)
    (h : ListInvariant rt settings worlds params s) {label : ListLabel ι}
    (hstep : listStep rt settings worlds params s label t) :
    ListInvariant rt settings worlds params t := by
  cases label with
  | send i =>
    obtain ⟨-, rfl⟩ := hstep
    obtain ⟨hread, hcache⟩ := coherent_send settings h.cache (params i)
    exact h.update hcache ⟨send_request _ _ _, hread⟩
  | change world =>
    obtain ⟨hworld, rfl⟩ := hstep
    exact ⟨hworld, h.cache, h.request⟩
  | answer i =>
    obtain ⟨call, query, tag, hwait, hcall, rfl⟩ := hstep
    have hknown := h.request i
    rw [hwait] at hknown
    obtain ⟨hrequest, hread⟩ := hknown
    rw [Call.upstream, hrequest] at hcall
    obtain ⟨rfl, rfl⟩ := UpstreamRequest.listIssues.inj hcall
    exact h.update h.cache ⟨hrequest, hread, h.world, rfl⟩
  | receive i now requestId =>
    obtain ⟨call, seen, outcome, hanswered, rfl⟩ := hstep
    have hknown := h.request i
    rw [hanswered] at hknown
    obtain ⟨hrequest, hread, hseen, rfl⟩ := hknown
    have heq := @receive_eq_listAnswer rt settings call _ hrequest seen now requestId s.cache
    obtain ⟨hresponse, hcache⟩ := Prod.mk.inj heq
    rw [hresponse, hcache]
    exact h.update (coherent_listAnswer settings hseen (params i) call.cached h.cache now requestId)
      (listAnswer_alike settings hunique hascii hseen hread now requestId s.cache)

/-- **Transparency.**  However the requests interleave with each other and with the changes of
GitHub, and whatever is evicted, while GitHub's tags are ASCII: every response is the one that
the service without a cache gives against GitHub's state at the moment it answered, up to
`X-Cache`. -/
theorem cache_transparent (hunique : UniqueTags worlds) (hascii : AsciiTags worlds)
    {world : World} (hworld : world ∈ worlds) {history : List (ListLabel ι)}
    (hrun : Run (listStep rt settings worlds params) (listStart ι settings world) history s)
    {i : ι} {seen : World} {now : ℚ} {requestId : Text} {response : IssuesResponse}
    (hfinished : s.phase i = .finished seen now requestId response) :
    Alike response (uncachedAnswer rt settings seen now requestId (params i)) := by
  have hinv : ListInvariant rt settings worlds params s := by
    have hinit : ListInvariant rt settings worlds params (listStart ι settings world) :=
      ⟨hworld, coherentCache_new _ _, fun _ => trivial⟩
    refine hrun.invariant (I := fun _ s => ListInvariant rt settings worlds params s) hinit ?_
    intro history s label t _ h hstep
    exact h.step hunique hascii hstep
  have hknown := hinv.request i
  rw [hfinished] at hknown
  exact hknown

end

/-! ## One page, asked for twice -/

/-- A request that is answered before anything else happens. -/
def servedAnswer (rt : Runtime) (settings : Settings) (world : World) (cache : ResponseCache)
    (p : ListIssuesParams) (now : ℚ) (requestId : Text) : IssuesResponse × ResponseCache :=
  let (call, sent) := send settings cache (.listIssues p)
  listAnswer rt settings world now requestId p call.cached sent

/-- The run with such a request at its end. -/
lemma run_served {ι : Type} [DecidableEq ι] {params : ι → ListIssuesParams} {init s : ListState ι}
    {history : List (ListLabel ι)} (hrun : Run (listStep rt settings worlds params) init history s)
    {i : ι} (hidle : s.phase i = .idle) (now : ℚ) (requestId : Text) :
    let served := servedAnswer rt settings s.world s.cache (params i) now requestId
    Run (listStep rt settings worlds params) init
      (history ++ [.send i] ++ [.answer i] ++ [.receive i now requestId])
      ⟨s.world, served.2,
        Function.update s.phase i (.finished s.world now requestId served.1)⟩ := by
  intro served
  have hrequest := send_request settings s.cache (.listIssues (params i))
  have hcall : (send settings s.cache (.listIssues (params i))).1.upstream =
      .listIssues (params i).upstream (nonempty (conditionalEtag (params i)
        (send settings s.cache (.listIssues (params i))).1.cached)) := by
    rw [Call.upstream, hrequest]
  have hsent := hrun.next (a := ListLabel.send i) (And.intro hidle rfl)
  have hanswered := hsent.next (a := ListLabel.answer i)
    ⟨_, _, _, Function.update_self .., hcall, rfl⟩
  have hreceived := hanswered.next (a := ListLabel.receive i now requestId)
    ⟨_, _, _, Function.update_self .., rfl⟩
  have hserved := @receive_eq_listAnswer rt settings _ _ hrequest s.world now requestId
    (send settings s.cache (.listIssues (params i))).2
  obtain ⟨hresponse, hcache⟩ := Prod.mk.inj hserved
  simp only [Function.update_idem, hresponse, hcache] at hreceived
  exact hreceived

/-- An issue and a pull request, as GitHub lists them. -/
def mixedItems : List Json :=
  [.obj [(py "number", .int 1), (py "created_at", .lit epochText),
      (py "updated_at", .lit epochText), (py "comments", .int 2)],
    .obj [(py "number", .int 2), (py "pull_request", .obj [])]]

/-- The page that holds them. -/
def mixedContent : Bytes := utf8Encode (dumps Runtime.reference.floatRepr (.arr mixedItems))

lemma loads_mixedContent : Runtime.reference.loads mixedContent = .ok (.arr mixedItems) :=
  Runtime.loads_of_toOption (by decide +kernel)

/-- A tracker with that page for every query, under one tag, which never changes. -/
def mixedListing (tag : Text) : World := fun _ => .page mixedContent [("etag", tag)]

/-- What the service shows of the page. -/
def mixedIssue : Issue Text :=
  ⟨1, [], none, "open".toList, [], [], none, 2, ⟨epoch, some 0⟩, ⟨epoch, some 0⟩, none⟩

lemma get_etag (tag : Text) : Headers.get [("etag", tag)] "etag" = some tag := by
  simp [Headers.get, joinSep_singleton]

lemma asciiTags_mixedListing {tag : Text} (h : isAscii tag = true) :
    AsciiTags {mixedListing tag} := by
  intro w hw query content headers hpage t ht
  rw [Set.mem_singleton_iff] at hw
  subst hw
  obtain ⟨-, rfl⟩ := Listing.page.inj hpage
  rw [get_etag, Option.mem_some_iff] at ht
  exact ht ▸ h

/-- `GET /issues`. -/
def firstIssues : ListIssuesParams :=
  ⟨.OPEN, none, 1, defaultPerPage, none, Nat.one_pos, defaultPerPage_valid⟩

/-- The second of two requests for the page. -/
def secondAnswer (tag : Text) : IssuesResponse :=
  let first := servedAnswer .reference .reference (mixedListing tag)
    (.new Settings.reference.cacheMaxEntries Settings.reference.cacheMaxEntries_pos) firstIssues 0
    "1".toList
  (servedAnswer .reference .reference (mixedListing tag) first.2 firstIssues 0 "2".toList).1

/-- The run that ends with it. -/
lemma run_second (tag : Text) : ∃ history s,
    Run (listStep .reference .reference {mixedListing tag} fun _ => firstIssues)
      (listStart Bool .reference (mixedListing tag)) history s ∧
    s.phase true = .finished (mixedListing tag) 0 "2".toList (secondAnswer tag) := by
  have hstart : Run (listStep .reference .reference {mixedListing tag} fun _ => firstIssues)
      (listStart Bool .reference (mixedListing tag)) []
      (listStart Bool .reference (mixedListing tag)) := .start
  have hfirst := run_served hstart (i := false) rfl 0 "1".toList
  have hsecond := run_served hfirst (i := true) rfl 0 "2".toList
  refine ⟨_, _, hsecond, ?_⟩
  dsimp only
  rw [Function.update_self]
  rfl

/-- The second request is answered from what the first one stored. -/
theorem cache_transparent_hit :
    (secondAnswer "\"1\"".toList).header "X-Cache" = some "HIT".toList ∧
      (secondAnswer "\"1\"".toList).body = .model (.issues [mixedIssue]) ∧
      Alike (secondAnswer "\"1\"".toList)
        (uncachedAnswer .reference .reference (mixedListing "\"1\"".toList) 0 "2".toList
          firstIssues) := by
  obtain ⟨history, s, hrun, hfinished⟩ := run_second "\"1\"".toList
  exact ⟨by decide +kernel, by decide +kernel,
    cache_transparent (uniqueTags_singleton _) (asciiTags_mixedListing (by decide))
      (Set.mem_singleton _) hrun hfinished⟩

/-- Under a tag that is not ASCII the second request fails, while the service without a cache
shows the page. -/
theorem accentedTag_not_transparent :
    UniqueTags {mixedListing "\"é\"".toList} ∧
      (secondAnswer "\"é\"".toList).status = 500 ∧
      (uncachedAnswer .reference .reference (mixedListing "\"é\"".toList) 0 "2".toList
        firstIssues).status = 200 ∧
      ∃ history s, Run (listStep .reference .reference {mixedListing "\"é\"".toList}
          fun _ => firstIssues) (listStart Bool .reference (mixedListing "\"é\"".toList))
            history s ∧
        s.phase true =
          .finished (mixedListing "\"é\"".toList) 0 "2".toList (secondAnswer "\"é\"".toList) ∧
        ¬ Alike (secondAnswer "\"é\"".toList) (uncachedAnswer .reference .reference
          (mixedListing "\"é\"".toList) 0 "2".toList firstIssues) := by
  have hfailed : (secondAnswer "\"é\"".toList).status = 500 := by decide +kernel
  have hshown : (uncachedAnswer .reference .reference (mixedListing "\"é\"".toList) 0 "2".toList
      firstIssues).status = 200 := by decide +kernel
  obtain ⟨history, s, hrun, hfinished⟩ := run_second "\"é\"".toList
  refine ⟨uniqueTags_singleton _, hfailed, hshown, history, s, hrun, hfinished, fun h => ?_⟩
  have hstatus := h.status
  rw [hfailed, hshown] at hstatus
  cases hstatus

end IssuesApi

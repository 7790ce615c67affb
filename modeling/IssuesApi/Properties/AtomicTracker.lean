import IssuesApi.Lib.Linearizable
import IssuesApi.Properties.CacheTransparency
import IssuesApi.Properties.PullRequests

/-!
# The service is an atomic issue tracker

Any number of requests to the six GitHub-backed routes run at once, over one cache, while GitHub
serves their calls, fails on some, and is edited by others.  A client could not tell whether the
service handles one request after the other, without a cache: `service_linearizable`.

A request takes effect when GitHub serves its call.  What it is answered depends on that moment
only: for most routes because `receive` looks at nothing else, and for `GET /issues` because the
cache is coherent (`listAnswer_alike`).  When a call fails, a timeout for one, nobody can say
whether GitHub has carried it out; the order has it either way.
-/

namespace IssuesApi

variable {rt : Runtime} {gh : GitHub rt} {settings : Settings}
  {listing : (ℕ → Option Item) → World}

/-! ## The tracker, one request at a time -/

/-- What a call can come to when GitHub gets it. -/
inductive Delivers (gh : GitHub rt) (repo : Repo) (call : UpstreamRequest) :
    UpstreamOutcome → Repo → Prop
  | served : Delivers gh repo call (gh.serve repo call).1 (gh.serve repo call).2
  | refused {outcome} (h : outcome.Failed) : Delivers gh repo call outcome repo
  | lost {outcome} (h : outcome.Failed) : Delivers gh repo call outcome (gh.serve repo call).2

/-- The call of a request that nothing was cached for. -/
def IssuesRequest.plain (req : IssuesRequest) : Call := ⟨req, none⟩

/-- The answer of the service without a cache to an outcome. -/
def plainAnswer (rt : Runtime) (settings : Settings) (req : IssuesRequest) (now : ℚ)
    (requestId : Text) (outcome : UpstreamOutcome) : IssuesResponse :=
  respond rt requestId (receive rt settings.withoutCache now req.plain
    (.new settings.cacheMaxEntries settings.cacheMaxEntries_pos) outcome).1

/-- A request served at once, without a cache. -/
def AnswersAtOnce (gh : GitHub rt) (settings : Settings) (repo : Repo) (req : IssuesRequest)
    (response : IssuesResponse) (after : Repo) : Prop :=
  ∃ outcome now requestId, Delivers gh repo req.plain.upstream outcome after ∧
    Alike response (plainAnswer rt settings req now requestId outcome)

/-- The atomic tracker.  The environment can edit it in any way. -/
def atomicStep {ι : Type} (gh : GitHub rt) (settings : Settings) (requests : ι → IssuesRequest)
    (repo : Repo) : Entry ι IssuesResponse Repo → Repo → Prop
  | .call i response, after => AnswersAtOnce gh settings repo (requests i) response after
  | .external edited, after => after = edited

/-! ## The service -/

/-- How far a request has come.  Once GitHub has had its call, the tracker before and after it is
remembered. -/
inductive RequestPhase where
  | idle
  | waiting (call : Call)
  | answered (call : Call) (seen after : Repo) (outcome : UpstreamOutcome)
  | finished (response : IssuesResponse)

/-- GitHub, the cache, and the requests. -/
structure TrackerState (ι : Type) where
  repo : Repo
  cache : ResponseCache
  phase : ι → RequestPhase

/-- The two steps of a request, what GitHub does in between, and what others do to GitHub. -/
inductive TrackerLabel (ι : Type) where
  | send (i : ι)
  | serve (i : ι)
  | edit (repo : Repo)
  | receive (i : ι) (response : IssuesResponse)

section

variable {ι : Type} [DecidableEq ι]

/-- One step. -/
def trackerStep (gh : GitHub rt) (settings : Settings) (requests : ι → IssuesRequest)
    (s : TrackerState ι) : TrackerLabel ι → TrackerState ι → Prop
  | .send i, t => s.phase i = .idle ∧
      t = ⟨s.repo, (send settings s.cache (requests i)).2,
        Function.update s.phase i (.waiting (send settings s.cache (requests i)).1)⟩
  | .serve i, t => ∃ call outcome after, s.phase i = .waiting call ∧
      Delivers gh s.repo call.upstream outcome after ∧
      t = ⟨after, s.cache, Function.update s.phase i (.answered call s.repo after outcome)⟩
  | .edit repo, t => t = { s with repo }
  | .receive i response, t => ∃ call seen after outcome now requestId,
      s.phase i = .answered call seen after outcome ∧
      response = respond rt requestId (receive rt settings now call s.cache outcome).1 ∧
      t = ⟨s.repo, (receive rt settings now call s.cache outcome).2,
        Function.update s.phase i (.finished response)⟩

/-- An empty cache, before any request. -/
def trackerStart (ι : Type) (settings : Settings) (repo : Repo) : TrackerState ι :=
  ⟨repo, .new settings.cacheMaxEntries settings.cacheMaxEntries_pos, fun _ => .idle⟩

end

/-- How GitHub lists issues: per state of the tracker a listing, with tags that tell the pages of
a query apart and that are ASCII. -/
structure Validates (gh : GitHub rt) (listing : (ℕ → Option Item) → World) : Prop where
  lists : ∀ items query tag,
    .response (gh.issueList items query tag) = (listing items).answer query tag
  unique : UniqueTags (Set.range listing)
  ascii : AsciiTags (Set.range listing)

/-! ## One request -/

/-- Only the list route reads the cache. -/
lemma send_cached {settings : Settings} {cache : ResponseCache} {req : IssuesRequest}
    (h : ∀ p, req ≠ .listIssues p) : send settings cache req = (req.plain, cache) := by
  unfold send
  split
  · exact absurd rfl (h _)
  · rfl

/-- A failed call is answered without looking at the cache, which stays as it is. -/
lemma receive_of_failed {outcome : UpstreamOutcome} (h : outcome.Failed) (rt : Runtime) (now : ℚ) :
    ∃ e, ∀ settings call cache, receive rt settings now call cache outcome = (.error e, cache) := by
  obtain ⟨e, he⟩ := request_of_failed rt now h
  refine ⟨e, fun settings call cache => ?_⟩
  unfold receive
  split <;> simp [he, receiveList_of_error he]

/-- The routes but the list are answered without looking at the cache, which stays as it is. -/
lemma receive_plain {req : IssuesRequest} (h : ∀ p, req ≠ .listIssues p) {call : Call}
    (hcall : call.request = req) (now : ℚ) (cache : ResponseCache) (outcome : UpstreamOutcome)
    (requestId : Text) :
    respond rt requestId (receive rt settings now call cache outcome).1 =
        plainAnswer rt settings req now requestId outcome ∧
      (receive rt settings now call cache outcome).2 = cache := by
  subst hcall
  unfold plainAnswer receive IssuesRequest.plain
  cases hreq : call.request with
  | listIssues p => exact absurd hreq (h p)
  | _ => exact ⟨rfl, rfl⟩

/-- The call of a request depends on the cache for the list route only. -/
lemma upstream_plain {req : IssuesRequest} (h : ∀ p, req ≠ .listIssues p) {call : Call}
    (hcall : call.request = req) : call.upstream = req.plain.upstream := by
  subst hcall
  unfold Call.upstream IssuesRequest.plain
  cases hreq : call.request with
  | listIssues p => exact absurd hreq (h p)
  | _ => rfl

/-- The call of a list request leaves the tracker alone, and is answered from its listing. -/
lemma serve_list (hgh : Validates gh listing) (repo : Repo) {p : ListIssuesParams} {call : Call}
    (hcall : call.request = .listIssues p) :
    gh.serve repo call.upstream =
      ((listing repo.items).list p.upstream (nonempty (conditionalEtag p call.cached)), repo) := by
  rw [Call.upstream, hcall]
  dsimp only
  rw [gh.serve_listIssues, hgh.lists, World.list]

/-- What GitHub does for a request does not depend on the cache. -/
lemma serve_snd_plain (gh : GitHub rt) (repo : Repo) {req : IssuesRequest} {call : Call}
    (hcall : call.request = req) :
    (gh.serve repo call.upstream).2 = (gh.serve repo req.plain.upstream).2 := by
  by_cases hlist : ∃ p, req = .listIssues p
  · obtain ⟨p, rfl⟩ := hlist
    simp only [Call.upstream, hcall, IssuesRequest.plain, GitHub.serve_listIssues]
  · push Not at hlist
    rw [upstream_plain hlist hcall]

/-- **One request.**  Whatever it has read from a coherent cache, and whatever the cache is by
the time it is answered: the answer is one that it could have been given at once. -/
lemma answersAtOnce (hgh : Validates gh listing) {req : IssuesRequest} {call : Call}
    (hcall : call.request = req)
    (hread : ∀ p, req = .listIssues p → CoherentRead rt (Set.range listing) p call.cached)
    {seen after : Repo} {outcome : UpstreamOutcome}
    (hdelivers : Delivers gh seen call.upstream outcome after) (now : ℚ) (requestId : Text)
    (cache : ResponseCache) :
    AnswersAtOnce gh settings seen req
      (respond rt requestId (receive rt settings now call cache outcome).1) after := by
  have hfailed : ∀ {outcome}, UpstreamOutcome.Failed outcome →
      Alike (respond rt requestId (receive rt settings now call cache outcome).1)
        (plainAnswer rt settings req now requestId outcome) := by
    intro outcome h
    obtain ⟨e, he⟩ := receive_of_failed h rt now
    rw [plainAnswer, he, he]
    exact Alike.refl _
  cases hdelivers with
  | refused h => exact ⟨_, now, requestId, .refused h, hfailed h⟩
  | lost h => exact ⟨_, now, requestId, serve_snd_plain gh seen hcall ▸ .lost h, hfailed h⟩
  | served =>
    rw [serve_snd_plain gh seen hcall]
    refine ⟨_, now, requestId, .served, ?_⟩
    by_cases hlist : ∃ p, req = .listIssues p
    · obtain ⟨p, rfl⟩ := hlist
      have halike := listAnswer_alike settings hgh.unique hgh.ascii
        (Set.mem_range_self seen.items) (hread p rfl) now requestId cache
      rw [serve_list hgh seen hcall, serve_list hgh seen (p := p) rfl]
      simpa only [receive, hcall, uncachedAnswer_eq, listAnswer, plainAnswer,
        IssuesRequest.plain] using halike
    · push Not at hlist
      rw [upstream_plain hlist hcall, (receive_plain hlist hcall now cache _ requestId).1]
      exact Alike.refl _

/-- Sending a request gives it something coherent, and keeps the cache coherent. -/
lemma coherent_send_any {worlds : Set World} {cache : ResponseCache}
    (h : CoherentCache rt worlds cache) (settings : Settings) (req : IssuesRequest) :
    (∀ p, req = .listIssues p →
        CoherentRead rt worlds p (send settings cache req).1.cached) ∧
      CoherentCache rt worlds (send settings cache req).2 := by
  by_cases hlist : ∃ p, req = .listIssues p
  · obtain ⟨p, rfl⟩ := hlist
    obtain ⟨hread, hcache⟩ := coherent_send settings h p
    refine ⟨?_, hcache⟩
    rintro _ ⟨rfl⟩
    exact hread
  · push Not at hlist
    rw [send_cached hlist]
    exact ⟨fun p hp => absurd hp (hlist p), h⟩

/-- Answering a request keeps the cache coherent. -/
lemma coherent_receive (hgh : Validates gh listing) {req : IssuesRequest} {call : Call}
    (hcall : call.request = req) {seen after : Repo} {outcome : UpstreamOutcome}
    (hdelivers : Delivers gh seen call.upstream outcome after) (now : ℚ) {cache : ResponseCache}
    (h : CoherentCache rt (Set.range listing) cache) :
    CoherentCache rt (Set.range listing) (receive rt settings now call cache outcome).2 := by
  have hfailed : ∀ {outcome}, UpstreamOutcome.Failed outcome →
      CoherentCache rt (Set.range listing) (receive rt settings now call cache outcome).2 := by
    intro outcome hfailed
    obtain ⟨e, he⟩ := receive_of_failed hfailed rt now
    rwa [he]
  cases hdelivers with
  | refused hf => exact hfailed hf
  | lost hf => exact hfailed hf
  | served =>
    by_cases hlist : ∃ p, req = .listIssues p
    · obtain ⟨p, rfl⟩ := hlist
      rw [serve_list hgh seen hcall]
      have hkept := coherent_listAnswer settings (Set.mem_range_self seen.items) p call.cached h
        now []
      simpa only [receive, hcall, listAnswer] using hkept
    · push Not at hlist
      rwa [(receive_plain hlist hcall now cache _ []).2]

/-! ## All of them -/

section

variable {ι : Type} [DecidableEq ι] {requests : ι → IssuesRequest}

/-- What is known about a request that has sent its call. -/
structure Asked (rt : Runtime) (listing : (ℕ → Option Item) → World) (req : IssuesRequest)
    (call : Call) : Prop where
  request : call.request = req
  read : ∀ p, req = .listIssues p → CoherentRead rt (Set.range listing) p call.cached

/-- What is known about a request, by how far it has come. -/
def RequestPhase.Known (gh : GitHub rt) (listing : (ℕ → Option Item) → World)
    (req : IssuesRequest) : RequestPhase → Prop
  | .waiting call => Asked rt listing req call
  | .answered call seen after outcome =>
    Asked rt listing req call ∧ Delivers gh seen call.upstream outcome after
  | _ => True

/-- The part a label plays: a request takes effect when GitHub gets its call. -/
def TrackerLabel.role : TrackerLabel ι → Role ι IssuesResponse Repo
  | .send i => .invoke i
  | .serve i => .point i
  | .edit repo => .external repo
  | .receive i response => .answer i response

def RequestPhase.progress : RequestPhase → Progress
  | .idle => .idle
  | .waiting _ => .running
  | .answered .. => .effective
  | .finished _ => .finished

/-- What a request may still be answered: what it could have been given at once. -/
def RequestPhase.mayReturn (gh : GitHub rt) (settings : Settings) (req : IssuesRequest)
    (response : IssuesResponse) : RequestPhase → Prop
  | .answered _ seen after _ => AnswersAtOnce gh settings seen req response after
  | .finished given => response = given
  | _ => False

/-- The service with its linearization points. -/
def trackerPoints (gh : GitHub rt) (settings : Settings) (listing : (ℕ → Option Item) → World)
    (requests : ι → IssuesRequest) :
    Points ι IssuesResponse Repo Repo (TrackerState ι) (TrackerLabel ι) where
  role := TrackerLabel.role
  object s := s.repo
  progress s i := (s.phase i).progress
  mayReturn s i response := (s.phase i).mayReturn gh settings (requests i) response
  invariant s := CoherentCache rt (Set.range listing) s.cache ∧
    ∀ i, (s.phase i).Known gh listing (requests i)

lemma progress_update (phase : ι → RequestPhase) (i : ι) (next : RequestPhase) :
    (fun j => (Function.update phase i next j).progress) =
      Function.update (fun j => (phase j).progress) i next.progress := by
  funext j
  by_cases hij : j = i
  · subst hij
    simp
  · simp [Function.update_of_ne hij]

/-- What is known is kept when one request moves. -/
lemma known_update {phase : ι → RequestPhase} {i : ι} {next : RequestPhase}
    (h : ∀ j, (phase j).Known gh listing (requests j))
    (hnext : next.Known gh listing (requests i)) :
    ∀ j, (Function.update phase i next j).Known gh listing (requests j) := by
  rw [Function.forall_update_iff phase fun j phase => phase.Known gh listing (requests j)]
  exact ⟨hnext, fun j _ => h j⟩

lemma trackerPoints_hasPoints (hgh : Validates gh listing) (settings : Settings)
    (requests : ι → IssuesRequest) :
    HasPoints (trackerPoints gh settings listing requests) (trackerStep gh settings requests)
      (atomicStep gh settings requests) where
  kept := by
    rintro s label t ⟨hcache, hknown⟩ hstep
    cases label with
    | send i =>
      obtain ⟨-, rfl⟩ := hstep
      obtain ⟨hread, hcache'⟩ := coherent_send_any hcache settings (requests i)
      exact ⟨hcache', known_update hknown ⟨send_request _ _ _, hread⟩⟩
    | serve i =>
      obtain ⟨call, outcome, after, hphase, hdelivers, rfl⟩ := hstep
      have hi := hknown i
      rw [hphase] at hi
      exact ⟨hcache, known_update hknown ⟨hi, hdelivers⟩⟩
    | edit repo =>
      obtain rfl := hstep
      exact ⟨hcache, hknown⟩
    | receive i response =>
      obtain ⟨call, seen, after, outcome, now, requestId, hphase, rfl, rfl⟩ := hstep
      have hi := hknown i
      rw [hphase] at hi
      exact ⟨coherent_receive hgh hi.1.request hi.2 now hcache, known_update hknown trivial⟩
  plays := by
    rintro s label t ⟨hcache, hknown⟩ hstep
    cases label with
    | send i =>
      obtain ⟨hphase, rfl⟩ := hstep
      exact ⟨congrArg RequestPhase.progress hphase, progress_update _ _ _, rfl⟩
    | serve i =>
      obtain ⟨call, outcome, after, hphase, hdelivers, rfl⟩ := hstep
      refine ⟨congrArg RequestPhase.progress hphase, progress_update _ _ _, fun response h => ?_⟩
      have honce : AnswersAtOnce gh settings s.repo (requests i) response after := by
        simpa [trackerPoints, RequestPhase.mayReturn] using h
      exact honce
    | edit repo =>
      obtain rfl := hstep
      exact ⟨rfl, rfl⟩
    | receive i response =>
      obtain ⟨call, seen, after, outcome, now, requestId, hphase, hresponse, rfl⟩ := hstep
      refine ⟨congrArg RequestPhase.progress hphase, progress_update _ _ _, rfl, ?_⟩
      intro response' h
      simpa [trackerPoints, RequestPhase.mayReturn] using h
  narrows := by
    rintro s label t i response ⟨hcache, hknown⟩ hstep hpast hmay
    -- only the return of the request itself decides between its possible answers
    have hother : ∀ {j next}, i ≠ j → t.phase = Function.update s.phase j next →
        (s.phase i).mayReturn gh settings (requests i) response := by
      intro j next hij ht
      have hsame : t.phase i = s.phase i := by rw [ht, Function.update_of_ne hij]
      exact hsame ▸ hmay
    cases label with
    | send j =>
      obtain ⟨hphase, rfl⟩ := hstep
      refine hother (j := j) ?_ rfl
      rintro rfl
      simp [trackerPoints, hphase, RequestPhase.progress, Progress.Past] at hpast
    | serve j =>
      obtain ⟨call, outcome, after, hphase, -, rfl⟩ := hstep
      refine hother (j := j) ?_ rfl
      rintro rfl
      simp [trackerPoints, hphase, RequestPhase.progress, Progress.Past] at hpast
    | edit repo =>
      obtain rfl := hstep
      exact hmay
    | receive j answer =>
      obtain ⟨call, seen, after, outcome, now, requestId, hphase, rfl, rfl⟩ := hstep
      by_cases hij : i = j
      · subst hij
        have hi := hknown i
        rw [hphase] at hi
        obtain rfl : response = _ := by
          simpa [trackerPoints, RequestPhase.mayReturn] using hmay
        have honce : AnswersAtOnce gh settings seen (requests i) _ after :=
          answersAtOnce hgh hi.1.request hi.1.read hi.2 now requestId s.cache
        simpa [trackerPoints, hphase, RequestPhase.mayReturn] using honce
      · exact hother hij rfl
  possible := by
    rintro s i ⟨-, hknown⟩ hpast
    have hi := hknown i
    cases hphase : s.phase i with
    | idle | waiting call =>
      simp [trackerPoints, hphase, RequestPhase.progress, Progress.Past] at hpast
    | answered call seen after outcome =>
      rw [hphase] at hi
      refine ⟨respond rt [] (receive rt settings 0 call s.cache outcome).1, ?_⟩
      have honce : AnswersAtOnce gh settings seen (requests i) _ after :=
        answersAtOnce hgh hi.1.request hi.1.read hi.2 0 [] s.cache
      simpa [trackerPoints, hphase, RequestPhase.mayReturn] using honce
    | finished response =>
      exact ⟨response, by simp [trackerPoints, hphase, RequestPhase.mayReturn]⟩

/-- **Linearizability.**  Let GitHub's entity tags be ASCII and tell the pages of a query apart.
However the requests interleave with each other, with GitHub and with what others do there, and
whatever is cached, evicted, refused or lost: what the clients see is what a tracker shows that
handles the requests one at a time and caches nothing, in an order in which every request comes
after those that had been answered before it was sent. -/
theorem service_linearizable (hgh : Validates gh listing) (settings : Settings)
    (requests : ι → IssuesRequest) (repo : Repo) {history : List (TrackerLabel ι)}
    {s : TrackerState ι}
    (hrun : Run (trackerStep gh settings requests) (trackerStart ι settings repo) history s) :
    ∃ order, Linearizes (atomicStep gh settings requests) repo
      (observed TrackerLabel.role history) order := by
  have hresponse : Nonempty IssuesResponse := ⟨⟨200, [], .empty⟩⟩
  have hstart : (trackerPoints gh settings listing requests).invariant
      (trackerStart ι settings repo) := ⟨coherentCache_new _ _, fun _ => trivial⟩
  exact (trackerPoints_hasPoints hgh settings requests).linearizes hstart (fun _ => rfl) hrun

end

/-- A GitHub that lists an issue and a pull request, under one tag. -/
def GitHub.tagged : GitHub .reference :=
  { GitHub.single with
    issueList := fun _ _ tag =>
      let headers := [("etag", "\"1\"".toList)]
      if tag ≠ none ∧ some "\"1\"".toList = tag then ⟨304, headers, [], []⟩
      else ⟨200, headers, mixedContent, []⟩ }

lemma validates_tagged : Validates .tagged fun _ => mixedListing "\"1\"".toList where
  lists := by
    intro items query tag
    simp only [GitHub.tagged, World.answer, mixedListing, get_etag]
    split <;> rfl
  unique := by
    rw [Set.range_const]
    exact uniqueTags_singleton _
  ascii := by
    rw [Set.range_const]
    exact asciiTags_mixedListing (by decide)

/-- Two lists, the second served from what the first one stored. -/
theorem service_linearizable_hit :
    ∃ first second : IssuesResponse, second.header "X-Cache" = some "HIT".toList ∧
      second.body = .model (.issues [mixedIssue]) ∧
      ∃ order, Linearizes (atomicStep .tagged .reference fun _ : Bool => .listIssues firstIssues)
        pullState.repo [.invoked false, .returned false first, .invoked true,
          .returned true second] order := by
  have hrun : Run (trackerStep .tagged .reference fun _ => .listIssues firstIssues)
      (trackerStart Bool .reference pullState.repo) []
      (trackerStart Bool .reference pullState.repo) := .start
  have hrun := hrun.next (a := TrackerLabel.send false) (And.intro rfl rfl)
  have hrun := hrun.next (a := TrackerLabel.serve false) ⟨_, _, _, rfl, .served, rfl⟩
  have hrun := hrun.next (a := TrackerLabel.receive false _)
    ⟨_, _, _, _, 0, "1".toList, rfl, rfl, rfl⟩
  have hrun := hrun.next (a := TrackerLabel.send true) (And.intro rfl rfl)
  have hrun := hrun.next (a := TrackerLabel.serve true) ⟨_, _, _, rfl, .served, rfl⟩
  have hrun := hrun.next (a := TrackerLabel.receive true _)
    ⟨_, _, _, _, 0, "2".toList, rfl, rfl, rfl⟩
  exact ⟨_, _, by decide +kernel, by decide +kernel,
    service_linearizable validates_tagged .reference (fun _ => .listIssues firstIssues)
      pullState.repo hrun⟩

end IssuesApi

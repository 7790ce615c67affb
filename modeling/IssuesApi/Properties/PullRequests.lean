import IssuesApi.Lib.Transition
import IssuesApi.Reference
import IssuesApi.Upstream.Repository

/-!
# Pull requests are touched

`DESIGN.md` promises that a pull request answers 404 to `GET` and `PATCH`, and the README that
the service never touches one.  `update_issue` sends its patch first and looks at the answer
afterwards, and `create_comment` does not look at all, so a patch or a comment addressed to a
pull request takes effect on GitHub.

A request is `Harmless` in a tracker when it comments on no pull request and patches none in a
way that changes it.  `pullRequests_untouched` says that this is exactly what keeps pull
requests as they were: over every run of harmless requests nothing happens to them, and every
request that is not harmless changes one.
-/

namespace IssuesApi

variable {rt : Runtime} {gh : GitHub rt} {settings : Settings}

/-- The tracker and the service's cache. -/
structure ServiceState where
  repo : Repo
  cache : ResponseCache

/-- A request to the service with its answer. -/
structure Traffic where
  request : IssuesRequest
  now : ℚ
  requestId : Text
  response : IssuesResponse

/-- The call a request makes. -/
def ServiceState.call (settings : Settings) (s : ServiceState) (req : IssuesRequest) : Call :=
  (send settings s.cache req).1

/-- One request, from its arrival to its answer. -/
def ServiceState.answer (gh : GitHub rt) (settings : Settings) (s : ServiceState)
    (req : IssuesRequest) (now : ℚ) (requestId : Text) : IssuesResponse × ServiceState :=
  let (outcome, repo) := gh.serve s.repo (s.call settings req).upstream
  let (answer, cache) :=
    receive rt settings now (s.call settings req) (send settings s.cache req).2 outcome
  (respond rt requestId answer, ⟨repo, cache⟩)

/-- The service and the tracker while requests are answered one after the other. -/
def serviceStep (gh : GitHub rt) (settings : Settings) (s : ServiceState) (x : Traffic)
    (t : ServiceState) : Prop :=
  s.answer gh settings x.request x.now x.requestId = (x.response, t)

/-- The request does nothing to a pull request. -/
def Harmless (repo : Repo) : IssuesRequest → Prop
  | .updateIssue number payload => ∀ item ∈ repo.items number, item.pullRequest = true →
      item.patch payload.toGithubPayload = item
  | .createComment number _ => ∀ item ∈ repo.items number, item.pullRequest = false
  | _ => True

/-- The request is a patch that was answered 404. -/
def RefusedPatch (x : Traffic) : Prop :=
  (∃ number payload, x.request = .updateIssue number payload) ∧ x.response.status = 404

/-- The tracker after a request.  Only the call of a new issue may be one that is never sent. -/
lemma serviceStep_repo {s t : ServiceState} {x : Traffic}
    (h : serviceStep gh settings s x t) :
    t.repo = match x.request with
      | .createIssue payload =>
        if (UpstreamRequest.createIssue payload.modelDump).encodable rt then
          s.repo.add (.create payload.modelDump)
        else s.repo
      | .updateIssue number payload => s.repo.modify number (Item.patch payload.toGithubPayload)
      | .createComment number payload => s.repo.modify number (Item.addComment payload.body)
      | _ => s.repo := by
  have hrepo : t.repo = (gh.serve s.repo (s.call settings x.request).upstream).2 :=
    congrArg (fun p => p.2.repo) h.symm
  have hreq := send_request settings s.cache x.request
  rw [hrepo]
  simp only [ServiceState.call, Call.upstream, hreq]
  cases x.request with
  | createIssue payload => exact gh.serve_createIssue_snd s.repo payload.modelDump
  | listIssues params => exact congrArg Prod.snd (gh.serve_listIssues s.repo _ _)
  | updateIssue number payload =>
    exact congrArg Prod.snd (gh.serve_of_encodable (encodable_updateIssue rt number payload))
  | createComment number payload =>
    exact congrArg Prod.snd (gh.serve_of_encodable (encodable_createComment rt number payload.body))
  | getIssue number => rfl
  | listComments number params => rfl

/-! ## Harmless requests -/

/-- A harmless request leaves every pull request as it is. -/
lemma pullRequests_of_harmless {s t : ServiceState} {x : Traffic}
    (h : serviceStep gh settings s x t) (hx : Harmless s.repo x.request) :
    t.repo.pullRequests = s.repo.pullRequests := by
  rw [serviceStep_repo h]
  cases hreq : x.request with
  | createIssue payload =>
    dsimp only
    split
    · exact s.repo.pullRequests_add (Item.create_pullRequest _)
    · rfl
  | updateIssue number payload =>
    rw [hreq] at hx
    exact Repo.pullRequests_modify (Item.patch_pullRequest _) hx
  | createComment number payload =>
    rw [hreq] at hx
    refine Repo.pullRequests_modify (Item.addComment_pullRequest _) fun item hitem hpr => ?_
    rw [hx item hitem] at hpr
    cases hpr
  | listIssues _ => rfl
  | getIssue _ => rfl
  | listComments _ _ => rfl

/-- GitHub's answer about an item reaches the handler as the object it is. -/
lemma request_itemJson (gh : GitHub rt) (now : ℚ) (number : ℕ) (item : Item) :
    ∃ fields, request rt now (GitHub.success 200 (gh.itemJson number item)) =
        .ok ⟨200, .obj fields, []⟩ ∧ dictHas fields "pull_request" = item.pullRequest := by
  obtain ⟨fields, hloads, hpr⟩ := gh.itemJson_spec number item
  exact ⟨fields, request_of_loads hloads now [] [], hpr⟩

/-- A patch of an issue is not answered 404. -/
lemma issueOrNotFound_status {number : ℕ} {fields : List (PyStr × Json)} {requestId : Text}
    (h : dictHas fields "pull_request" = false) :
    (respond rt requestId (issueOrNotFound rt number (.obj fields))).status ≠ 404 := by
  have hpr : isPullRequest (.obj fields) = .ok false := congrArg Except.ok h
  unfold issueOrNotFound
  rw [hpr, ok_bind]
  cases hissue : encodedIssue rt (.obj fields) with
  | ok issue =>
    show 200 ≠ 404
    omega
  | error e =>
    obtain ⟨b, rfl⟩ := encodedIssue_builtin rt _ e hissue
    show 500 ≠ 404
    omega

/-- A harmless patch that is refused has changed nothing. -/
lemma repo_of_refused {s t : ServiceState} {x : Traffic} (h : serviceStep gh settings s x t)
    (hx : Harmless s.repo x.request) (hrefused : RefusedPatch x) : t.repo = s.repo := by
  obtain ⟨req, now, requestId, response⟩ := x
  obtain ⟨⟨number, payload, hreq⟩, hstatus⟩ := hrefused
  dsimp only at hreq hstatus
  subst hreq
  rw [serviceStep_repo h]
  refine Repo.modify_eq_self fun item hitem => ?_
  cases hpr : item.pullRequest with
  | true => exact hx item hitem hpr
  | false =>
    -- an issue was patched, so the answer cannot have been a 404
    exfalso
    have hresponse : response = respond rt requestId (request rt now
        (gh.serve s.repo (.updateIssue number payload.toGithubPayload)).1 >>=
        receiveUpdateIssue rt number) := congrArg Prod.fst h.symm
    rw [gh.serve_of_encodable (encodable_updateIssue rt number payload)] at hresponse
    obtain ⟨fields, hrequest, hfields⟩ :=
      request_itemJson gh now number (item.patch payload.toGithubPayload)
    rw [Item.patch_pullRequest, hpr] at hfields
    rw [GitHub.handle, GitHub.about, hitem] at hresponse
    dsimp only at hresponse
    rw [hrequest, ok_bind] at hresponse
    exact issueOrNotFound_status hfields (hresponse ▸ hstatus)

/-- Any other request changes a pull request. -/
lemma exists_touched {s t : ServiceState} {x : Traffic} (h : serviceStep gh settings s x t)
    (hx : ¬ Harmless s.repo x.request) :
    ∃ n item, s.repo.items n = some item ∧ item.pullRequest = true ∧
      t.repo.items n ≠ some item := by
  rw [serviceStep_repo h]
  cases hreq : x.request with
  | updateIssue number payload =>
    rw [hreq] at hx
    simp only [Harmless, Option.mem_def, not_forall] at hx
    obtain ⟨item, hitem, hpr, hchange⟩ := hx
    refine ⟨number, item, hitem, hpr, ?_⟩
    rw [Repo.modify_items, if_pos rfl, hitem, Option.map_some]
    exact fun heq => hchange (Option.some.inj heq)
  | createComment number payload =>
    rw [hreq] at hx
    simp only [Harmless, Option.mem_def, not_forall] at hx
    obtain ⟨item, hitem, hpr⟩ := hx
    refine ⟨number, item, hitem, by simpa using hpr, ?_⟩
    rw [Repo.modify_items, if_pos rfl, hitem, Option.map_some]
    exact fun heq => Item.addComment_ne _ _ (Option.some.inj heq)
  | _ =>
    rw [hreq] at hx
    exact absurd trivial hx

/-- A step with a harmless request. -/
def harmlessStep (gh : GitHub rt) (settings : Settings) (s : ServiceState) (x : Traffic)
    (t : ServiceState) : Prop :=
  serviceStep gh settings s x t ∧ Harmless s.repo x.request

/-- **When pull requests stay untouched.**  In every run of harmless requests the pull requests
are in every state what they were at the start, and a refused patch leaves the tracker exactly
as it was; and a request that is not harmless changes a pull request, whatever run it ends. -/
theorem pullRequests_untouched (gh : GitHub rt) (settings : Settings) (start : ServiceState) :
    (∀ history s, Run (harmlessStep gh settings) start history s →
      s.repo.pullRequests = start.repo.pullRequests ∧
        ∀ x t, harmlessStep gh settings s x t → RefusedPatch x → t.repo = s.repo) ∧
    ∀ history s x t, Run (serviceStep gh settings) start history s →
      serviceStep gh settings s x t → ¬ Harmless s.repo x.request →
      ∃ n item, s.repo.items n = some item ∧ item.pullRequest = true ∧
        t.repo.items n ≠ some item := by
  refine ⟨fun history s hrun => ⟨?_, fun x t hstep => repo_of_refused hstep.1 hstep.2⟩, ?_⟩
  · refine hrun.invariant (I := fun _ s => s.repo.pullRequests = start.repo.pullRequests) rfl ?_
    intro _ s x t _ ih hstep
    rw [pullRequests_of_harmless hstep.1 hstep.2, ih]
  · exact fun _ _ _ _ _ hstep hx => exists_touched hstep hx

/-! ## A patch that is refused and applied -/

/-- GitHub's answer about pull request 1, once it is called "New". -/
def pullJson : Bytes :=
  utf8Encode ("\x7b\"number\":1,\"title\":\"New\",\"state\":\"open\"," ++
    "\"created_at\":\"1970-01-01T00:00:00Z\",\"updated_at\":\"1970-01-01T00:00:00Z\"," ++
    "\"pull_request\":\x7b\x7d\x7d").toList

/-- GitHub's answer about issue 1 of the same name. -/
def issueJson : Bytes :=
  utf8Encode ("\x7b\"number\":1,\"title\":\"New\",\"state\":\"open\"," ++
    "\"created_at\":\"1970-01-01T00:00:00Z\",\"updated_at\":\"1970-01-01T00:00:00Z\"\x7d").toList

/-- Whether a document is an object with the key. -/
def isObjectWith (rt : Runtime) (content : Bytes) (key : String) : Option Bool :=
  match rt.loads content with
  | .ok (.obj fields) => some (dictHas fields key)
  | _ => none

lemma exists_of_isObjectWith {content : Bytes} {key : String} {b : Bool}
    (h : isObjectWith rt content key = some b) :
    ∃ fields, rt.loads content = .ok (.obj fields) ∧ dictHas fields key = b := by
  unfold isObjectWith at h
  split at h
  · next fields hloads => exact ⟨fields, hloads, Option.some.inj h⟩
  · cases h

/-- A GitHub that answers about item 1. -/
def GitHub.single : GitHub .reference where
  itemJson := fun _ item => if item.pullRequest then pullJson else issueJson
  commentJson := fun _ _ =>
    utf8Encode "\x7b\"id\":1,\"created_at\":\"1970-01-01T00:00:00Z\"\x7d".toList
  missingJson := utf8Encode "\x7b\"message\":\"Not Found\"\x7d".toList
  issueList := fun _ _ _ => ⟨200, [], utf8Encode "[]".toList, []⟩
  commentList := fun _ _ _ => ⟨200, [], utf8Encode "[]".toList, []⟩
  itemJson_spec := fun _ item => by
    cases item.pullRequest
    · exact exists_of_isObjectWith (by decide +kernel)
    · exact exists_of_isObjectWith (by decide +kernel)

/-- Pull request 1. -/
def oldPull : Item := ⟨true, "Old".toList, none, .OPEN, []⟩

/-- Pull request 1 under its new name. -/
def newPull : Item := ⟨true, "New".toList, none, .OPEN, []⟩

/-- A tracker that holds pull request 1. -/
def pullState : ServiceState where
  repo := ⟨fun n => if n = 1 then some oldPull else none, 2, fun n hn => if_neg (by omega)⟩
  cache := .new 1 Nat.one_pos

/-- The patch that calls it "New". -/
def renamePatch : IssuePatch where
  title := some "New".toList
  body := none
  state := none
  title_valid := by
    rintro t ⟨rfl⟩
    exact ⟨⟨by decide, by decide⟩, by decide⟩
  body_valid := by rintro b ⟨⟩
  at_least_one := Or.inl (by decide)

/-- The answer to the patch, and the state after it. -/
def renamed : IssuesResponse × ServiceState :=
  pullState.answer .single .reference (.updateIssue 1 renamePatch) 0 ['1']

/-- The patch of a pull request is answered 404, and has renamed it. -/
theorem refused_patch_applied :
    serviceStep .single .reference pullState ⟨.updateIssue 1 renamePatch, 0, ['1'], renamed.1⟩
        renamed.2 ∧
      renamed.1.status = 404 ∧ pullState.repo.pullRequests 1 = some oldPull ∧
      renamed.2.repo.pullRequests 1 = some newPull ∧ renamed.2.repo ≠ pullState.repo := by
  have hafter : renamed.2.repo.pullRequests 1 = some newPull := by decide +kernel
  have hstep : serviceStep .single .reference pullState
      ⟨.updateIssue 1 renamePatch, 0, ['1'], renamed.1⟩ renamed.2 := by
    unfold serviceStep
    dsimp only
    rw [← renamed]
  refine ⟨hstep, by decide +kernel, by decide +kernel, hafter, fun h => ?_⟩
  rw [h] at hafter
  exact absurd hafter (by decide +kernel)

end IssuesApi

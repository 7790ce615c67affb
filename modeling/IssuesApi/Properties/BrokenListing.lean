import IssuesApi.Properties.CacheTransparency

/-!
# Listings whose body is no array

GitHub answers a list request with 200, and the body is not the JSON array it should be: it is
empty, or no JSON, or another JSON value.  The service ought to answer an error then and to keep
the body out of its cache, as it does on the routes that return a single object.

It does not always.  `_decode` reports a body it cannot read as `None`, and the handlers go on
with `result.data or []`, so such a body, like `null`, `false`, `0`, `""` and `{}`, is an empty
listing.  Of an object they list the keys and of a string the characters; that fails on the
first one, but only after the page has gone into the cache.

* `SoundIssues` and `SoundComments` say for which bodies and headers the service does what it
  should.
* `SoundStep` marks the steps of a run in which GitHub's answers are of that kind.
-/

namespace IssuesApi

/-! ## The specification -/

/-- The elements of the JSON array a body holds. -/
def arrayItems (rt : Runtime) (content : Bytes) : Option (List Json) :=
  match rt.loads content with
  | .ok (.arr items) => some items
  | _ => none

/-- An element that is shown: no pull request. -/
def isShown (item : Json) : Bool :=
  match isPullRequest item with
  | .ok true => false
  | _ => true

/-- The body lists the issues among the elements, in their order. -/
def ShowsIssues (rt : Runtime) (items : List Json) : IssuesBody → Prop
  | .issues issues =>
    List.Forall₂ (fun item issue => encodedIssue rt item = .ok issue) (items.filter isShown) issues
  | _ => False

/-- The body lists the elements, in their order, as comments on the issue. -/
def ShowsComments (rt : Runtime) (number : ℕ) (items : List Json) : IssuesBody → Prop
  | .comments comments =>
    List.Forall₂ (fun item comment => encodedComment rt (some number) item = .ok comment) items
      comments
  | _ => False

/-- A 200 shows the elements of the array the body holds; a body without one is answered with an
error, and nothing of it is stored. -/
structure Honest (rt : Runtime) (content : Bytes) (shows : List Json → IssuesBody → Prop)
    (before : ResponseCache) (answer : IssuesResponse × ResponseCache) : Prop where
  shown : answer.1.status = 200 → ∃ items body,
    arrayItems rt content = some items ∧ answer.1.body = .model body ∧ shows items body
  refused : arrayItems rt content = none →
    400 ≤ answer.1.status ∧ answer.2.entries = before.entries

/-- What the client gets and what is left in the cache when GitHub has answered a call. -/
def finish (rt : Runtime) (settings : Settings) (now : ℚ) (requestId : Text) (call : Call)
    (cache : ResponseCache) (r : UpstreamResponse) : IssuesResponse × ResponseCache :=
  let answer := receive rt settings now call cache (.response r)
  (respond rt requestId answer.1, answer.2)

/-! ## When it is met -/

/-- The handler raises before it stores anything: the body is nested too deeply, or it is `true`
or a number other than zero. -/
def Uniterable (rt : Runtime) (content : Bytes) : Prop :=
  match rt.loads content with
  | .error e => e = .recursionError
  | .ok (.bool b) => b = true
  | .ok (.int n) => n ≠ 0
  | .ok (.float x) => x.value? ≠ some 0
  | .ok _ => False

/-- What is iterated over in place of an array: the keys of an object, the characters of a
string. -/
def strayItems (rt : Runtime) (content : Bytes) : List Json :=
  match rt.loads content with
  | .ok (.obj fields) => fields.map fun f => .str f.1
  | .ok (.str s) => s.map fun c => .str [c]
  | _ => []

/-- A page with these headers goes into the cache. -/
def Cacheable (settings : Settings) (headers : Headers) : Prop :=
  settings.cacheEnabled = true ∧ (headers.get "etag").getD [] ≠ []

/-- The `ETag` can be sent on. -/
def EtagRenders (headers : Headers) : Prop :=
  ∀ c ∈ (headers.get "etag").getD [], c.toNat < 256

/-- The `Link` header can be rewritten and sent on. -/
def LinkRenders (rt : Runtime) (headers : Headers) (path : Text) : Prop :=
  ∃ forwarded link, rewriteLinkHeader rt.netloc (headers.get "link") path = .ok forwarded ∧
    optionalHeader "Link" forwarded = .ok link

/-- The pages of issues the service is honest about. -/
def SoundIssues (rt : Runtime) (settings : Settings) (headers : Headers) (content : Bytes) :
    Prop :=
  (∃ items, arrayItems rt content = some items) ∨ Uniterable rt content ∨
    ¬ Cacheable settings headers ∧
      (¬ (EtagRenders headers ∧ LinkRenders rt headers issuesPath) ∨
        ∃ item ∈ strayItems rt content, isShown item = true)

/-- The pages of comments the service is honest about. -/
def SoundComments (rt : Runtime) (number : ℕ) (headers : Headers) (content : Bytes) : Prop :=
  (∃ items, arrayItems rt content = some items) ∨ Uniterable rt content ∨
    ¬ LinkRenders rt headers (commentsPath number) ∨ strayItems rt content ≠ []

variable {rt : Runtime} {settings : Settings}

/-! ## What is read -/

/-- An array is read as its elements. -/
lemma readPage_of_array {content : Bytes} {items : List Json}
    (h : arrayItems rt content = some items) : readPage rt content = .ok items := by
  have hloads : rt.loads content = .ok (.arr items) := by
    unfold arrayItems at h
    split at h
    · next hloads => rw [hloads, Option.some.inj h]
    · cases h
  rw [readPage, decode_of_loads hloads, ok_bind, iterateOrEmpty_arr]

/-- The body of a 200 is decoded by reading it, empty or not. -/
lemma decode_success (rt : Runtime) (content : Bytes) :
    decode rt ⟨200, [], content, []⟩ = loadsOr rt content .null id := by
  by_cases hempty : content = []
  · subst hempty
    rw [loadsOr, rt.loads_nil]
    rfl
  · exact if_neg (by simp [hempty])

/-- What a value that is no array yields. -/
lemma iterateOrEmpty_of_other {value : Json} (h : ∀ items, value ≠ .arr items) :
    iterateOrEmpty value = match value with
      | .obj fields => .ok (fields.map fun f => .str f.1)
      | .str s => .ok (s.map fun c => .str [c])
      | value => if value.truthy then raiseBuiltin .typeError else .ok [] := by
  cases value with
  | arr items => exact absurd rfl (h items)
  | obj fields => cases fields <;> rfl
  | str s => cases s <;> rfl
  | _ => rfl

/-- A value that yields nothing is rejected when it counts as true, and no page otherwise. -/
lemma rejected_or_nothing {value : Json} {P : Prop} (hP : value.truthy = true ↔ P) :
    (P ∧ ∃ b, (if value.truthy then raiseBuiltin .typeError else .ok [] :
        Except PyException (List Json)) = .error (.builtin b)) ∨
      (¬ P ∧ (if value.truthy then raiseBuiltin .typeError else .ok [] :
        Except PyException (List Json)) = .ok []) := by
  rw [← hP]
  by_cases h : value.truthy = true
  · exact Or.inl ⟨h, .typeError, if_pos h⟩
  · exact Or.inr ⟨h, if_neg h⟩

/-- Any other body is rejected, or read as what it yields. -/
lemma readPage_of_other {content : Bytes} (h : arrayItems rt content = none) :
    (Uniterable rt content ∧ ∃ b, readPage rt content = .error (.builtin b)) ∨
      (¬ Uniterable rt content ∧ readPage rt content = .ok (strayItems rt content)) := by
  unfold arrayItems at h
  unfold readPage Uniterable strayItems
  rw [decode_success, loadsOr]
  cases hloads : rt.loads content with
  | error e =>
    cases e with
    | recursionError => exact Or.inl ⟨rfl, _, rfl⟩
    | _ => exact Or.inr ⟨by simp, rfl⟩
  | ok value =>
    rw [hloads] at h
    have hother : ∀ items, value ≠ .arr items := by
      rintro items rfl
      cases h
    dsimp only [id]
    rw [ok_bind, iterateOrEmpty_of_other hother]
    cases value with
    | arr items => exact absurd rfl (hother items)
    | null => exact Or.inr ⟨by simp, rfl⟩
    | obj fields => exact Or.inr ⟨by simp, rfl⟩
    | str s => exact Or.inr ⟨by simp, rfl⟩
    | bool b => exact rejected_or_nothing (by simp [Json.truthy])
    | int n => exact rejected_or_nothing (by simp [Json.truthy])
    | float x => exact rejected_or_nothing (by simp [Json.truthy])

/-! ## What is rendered -/

/-- What is left without pull requests is what is shown. -/
lemma withoutPullRequests_eq_ok : ∀ {items kept : List Json},
    withoutPullRequests items = .ok kept → kept = items.filter isShown
  | [], kept, h => (Except.ok.inj h).symm
  | item :: items, kept, h => by
      obtain ⟨skip, hskip, h⟩ := bind_eq_ok.mp h
      obtain ⟨rest, hrest, h⟩ := bind_eq_ok.mp h
      have hshown : isShown item = !skip := by
        rw [isShown, hskip]
        cases skip <;> rfl
      rw [List.filter_cons, hshown, ← withoutPullRequests_eq_ok hrest]
      cases skip <;> exact (Except.ok.inj h).symm

/-- A rendered page shows its elements. -/
lemma showsIssues_of_renderPage {p : ListIssuesParams} {xCache : String} {entry : CachedList}
    {a : IssuesResponse} (h : renderPage rt p xCache entry = .ok a) :
    ∃ body, a.body = .model body ∧ ShowsIssues rt entry.data body := by
  obtain ⟨-, kept, issues, hkept, hissues, hbody⟩ := renderPage_eq_ok h
  refine ⟨_, hbody, ?_⟩
  rw [ShowsIssues, ← withoutPullRequests_eq_ok hkept]
  exact mapM_eq_ok.mp hissues

/-- A header is assigned exactly when it is latin-1. -/
lemma optionalHeader_returns_iff {name : String} {value : Text} :
    (∃ header, optionalHeader name (some value) = .ok header) ↔ ∀ c ∈ value, c.toNat < 256 := by
  cases value with
  | nil => exact iff_of_true ⟨[], rfl⟩ (by simp)
  | cons c t =>
    have hassign : optionalHeader name (some (c :: t)) =
        (encodeHeader (c :: t)).map fun v => [(name, v)] := rfl
    rw [hassign]
    unfold encodeHeader
    by_cases h : (c :: t).all (fun c => c.toNat < 256) = true
    · exact iff_of_true ⟨_, by rw [if_pos h]; rfl⟩ (by simpa using h)
    · refine iff_of_false ?_ (by simpa using h)
      rintro ⟨header, hheader⟩
      rw [if_neg h] at hheader
      cases hheader

/-- Everything that can go wrong while a page is rendered. -/
lemma renderPage_returns_iff {p : ListIssuesParams} {xCache : String} {headers : Headers}
    {items : List Json} :
    (∃ a, renderPage rt p xCache (freshEntry headers items) = .ok a) ↔
      (EtagRenders headers ∧ LinkRenders rt headers issuesPath) ∧
        ∃ kept, withoutPullRequests items = .ok kept ∧
          ∃ issues, kept.mapM (encodedIssue rt) = .ok issues := by
  rw [EtagRenders, ← @optionalHeader_returns_iff "ETag", LinkRenders, renderPage]
  simp only [bind_eq_ok, freshEntry, encodedIssues_eq_ok]
  constructor
  · rintro ⟨a, etag, hetag, forwarded, hforwarded, link, hlink, kept, hkept, issues, hissues, -⟩
    exact ⟨⟨⟨etag, hetag⟩, forwarded, link, hforwarded, hlink⟩, kept, hkept, issues, hissues⟩
  · rintro ⟨⟨⟨etag, hetag⟩, forwarded, link, hforwarded, hlink⟩, kept, hkept, issues, hissues⟩
    exact ⟨_, etag, hetag, forwarded, hforwarded, link, hlink, kept, hkept, issues, hissues, rfl⟩

lemma exists_str_of_mem_strayItems {content : Bytes} {item : Json}
    (h : item ∈ strayItems rt content) : ∃ s, item = .str s := by
  unfold strayItems at h
  split at h
  · obtain ⟨f, -, rfl⟩ := List.mem_map.mp h
    exact ⟨f.1, rfl⟩
  · obtain ⟨c, -, rfl⟩ := List.mem_map.mp h
    exact ⟨[c], rfl⟩
  · cases h

/-- Of strings, a search for pull requests leaves those that do not mention any. -/
lemma withoutPullRequests_strings : ∀ {items : List Json}, (∀ item ∈ items, ∃ s, item = .str s) →
    withoutPullRequests items = .ok (items.filter isShown)
  | [], _ => rfl
  | item :: items, h => by
      obtain ⟨⟨s, rfl⟩, htail⟩ := List.forall_mem_cons.mp h
      obtain ⟨skip, hskip⟩ : ∃ skip, isPullRequest (.str s) = .ok skip := ⟨_, rfl⟩
      have hshown : isShown (.str s) = !skip := by
        rw [isShown, hskip]
        cases skip <;> rfl
      rw [withoutPullRequests, hskip, ok_bind, withoutPullRequests_strings htail, ok_bind,
        List.filter_cons, hshown]
      cases skip <;> rfl

/-- A page of strings is rendered when its headers can be and each string passes for a pull
request. -/
lemma renderPage_stray_iff {p : ListIssuesParams} {xCache : String} {headers : Headers}
    {content : Bytes} :
    (∃ a, renderPage rt p xCache (freshEntry headers (strayItems rt content)) = .ok a) ↔
      (EtagRenders headers ∧ LinkRenders rt headers issuesPath) ∧
        ∀ item ∈ strayItems rt content, isShown item = false := by
  have hstr : ∀ item ∈ strayItems rt content, ∃ s, item = .str s :=
    fun _ => exists_str_of_mem_strayItems
  rw [renderPage_returns_iff, withoutPullRequests_strings hstr]
  simp only [Except.ok.injEq, exists_eq_left', mapM_returns_iff, List.mem_filter, and_imp]
  refine and_congr_right fun _ => forall₂_congr fun item hitem => ?_
  obtain ⟨s, rfl⟩ := hstr item hitem
  rw [← Bool.not_eq_true]
  refine imp_congr_right fun _ => iff_of_false ?_ id
  rintro ⟨issue, hissue⟩
  cases hissue

/-! ## One response -/

section

variable {content : Bytes} {shows : List Json → IssuesBody → Prop} {before after : ResponseCache}
  {requestId : Text}

/-- An internal error is honest when nothing was stored. -/
lemma Honest.of_raise {b : BuiltinError} (h : after.entries = before.entries) :
    Honest rt content shows before (respond rt requestId (.error (.builtin b)), after) where
  shown := fun hstatus => by cases hstatus
  refused := fun _ => ⟨by simp [unhandledHandler_status], h⟩

/-- So is what a computation ends in that raises nothing else, and returns what it should. -/
lemma Honest.of_shows {x : Except PyException IssuesResponse} (hx : OnlyBuiltin x)
    {items : List Json} (hitems : arrayItems rt content = some items)
    (hshows : ∀ a, x = .ok a → ∃ body, a.body = .model body ∧ shows items body) :
    Honest rt content shows before (respond rt requestId x, after) := by
  refine ⟨fun hstatus => ?_, fun hnone => ?_⟩
  · cases hx' : x with
    | ok a =>
      obtain ⟨body, hbody, h⟩ := hshows a hx'
      exact ⟨items, body, hitems, by simpa using hbody, h⟩
    | error e =>
      obtain ⟨b, rfl⟩ := hx e hx'
      rw [hx'] at hstatus
      cases hstatus
  · rw [hitems] at hnone
    cases hnone

/-- Without an array, only an error is honest. -/
lemma Honest.raises {x : Except PyException IssuesResponse}
    (h : Honest rt content shows before (respond rt requestId x, after))
    (hnone : arrayItems rt content = none) (hstatus : ∀ a, x = .ok a → a.status = 200) :
    ¬ ∃ a, x = .ok a := by
  rintro ⟨a, rfl⟩
  have herror : 400 ≤ a.status := (h.refused hnone).1
  rw [hstatus a rfl] at herror
  omega

end

lemma arrayItems_cases (rt : Runtime) (content : Bytes) :
    arrayItems rt content = none ∨ ∃ items, arrayItems rt content = some items := by
  cases arrayItems rt content with
  | none => exact Or.inl rfl
  | some items => exact Or.inr ⟨items, rfl⟩

/-- What an empty cache makes of a page. -/
lemma entries_set_new (key : CacheKey) (entry : CachedList) :
    (((ResponseCache.new 1 le_rfl).recordMiss.set key entry).entries) = [(key, entry)] := by
  simp [ResponseCache.set, ResponseCache.new, ResponseCache.recordMiss, OrderedDict.assign,
    OrderedDict.moveToEnd, OrderedDict.evictTo]

/-- What the client gets for a page of issues, by what the body yields. -/
lemma finish_listIssues (p : ListIssuesParams) (cached : Option CachedList) (now : ℚ)
    (requestId : Text) (cache : ResponseCache) (headers : Headers) (content : Bytes)
    (reasonPhrase : Text) :
    finish rt settings now requestId ⟨.listIssues p, cached⟩ cache
        ⟨200, headers, content, reasonPhrase⟩ =
      match readPage rt content with
      | .error e => (respond rt requestId (.error e), cache)
      | .ok data =>
        (respond rt requestId (renderPage rt p "MISS" (freshEntry headers data)),
          if settings.cacheEnabled ∧ (freshEntry headers data).etag ≠ [] then
            cache.recordMiss.set (cacheKey p) (freshEntry headers data)
          else cache.recordMiss) := by
  have hreceive : receive rt settings now ⟨.listIssues p, cached⟩ cache
      (.response ⟨200, headers, content, reasonPhrase⟩) = receiveList rt settings now p cached cache
        (.response ⟨200, headers, content, reasonPhrase⟩) := rfl
  rw [finish, hreceive, receiveList_page]
  cases readPage rt content <;> rfl

/-- **One page of issues.** -/
lemma honest_issues_iff (p : ListIssuesParams) (cached : Option CachedList) (now : ℚ)
    (requestId : Text) (headers : Headers) (content : Bytes) (reasonPhrase : Text) :
    (∀ cache, Honest rt content (ShowsIssues rt) cache
      (finish rt settings now requestId ⟨.listIssues p, cached⟩ cache
        ⟨200, headers, content, reasonPhrase⟩)) ↔ SoundIssues rt settings headers content := by
  simp only [finish_listIssues]
  unfold SoundIssues
  rcases arrayItems_cases rt content with hnone | ⟨items, hitems⟩
  · simp only [hnone, reduceCtorEq, exists_const, false_or]
    rcases readPage_of_other hnone with ⟨huniterable, b, hread⟩ | ⟨hiterable, hread⟩
    · rw [hread]
      exact iff_of_true (fun cache => Honest.of_raise rfl) (Or.inl huniterable)
    · rw [hread, or_iff_right hiterable]
      have hrender := @renderPage_stray_iff rt p "MISS" headers content
      constructor
      · intro h
        have hraises := (h (.new 1 le_rfl)).raises hnone fun a ha => (renderPage_eq_ok ha).1
        have hentries := ((h (.new 1 le_rfl)).refused hnone).2
        refine ⟨fun hcacheable => ?_, ?_⟩
        · have hset : settings.cacheEnabled = true ∧
              (freshEntry headers (strayItems rt content)).etag ≠ [] := hcacheable
          dsimp only at hentries
          rw [if_pos hset, entries_set_new] at hentries
          cases hentries
        · rw [hrender] at hraises
          rcases not_and_or.mp hraises with hheaders | hitems
          · exact Or.inl hheaders
          · exact Or.inr (by simpa using hitems)
      · rintro ⟨hcacheable, hfails⟩ cache
        have hset : ¬ (settings.cacheEnabled = true ∧
            (freshEntry headers (strayItems rt content)).etag ≠ []) := hcacheable
        cases hx : renderPage rt p "MISS" (freshEntry headers (strayItems rt content)) with
        | ok a =>
          obtain ⟨hheaders, hitems⟩ := hrender.mp ⟨a, hx⟩
          rcases hfails with hfails | ⟨item, hitem, hshown⟩
          · exact absurd hheaders hfails
          · rw [hitems item hitem] at hshown
            cases hshown
        | error e =>
          obtain ⟨b, rfl⟩ := renderPage_builtin rt p _ _ e hx
          dsimp only
          rw [if_neg hset, hx]
          exact Honest.of_raise rfl
  · refine iff_of_true (fun cache => ?_) (Or.inl ⟨items, hitems⟩)
    rw [readPage_of_array hitems]
    exact Honest.of_shows (renderPage_builtin rt p _ _) hitems fun a ha =>
      showsIssues_of_renderPage ha

/-- The answer to a page of comments, before it goes to the client. -/
def commentsOutcome (rt : Runtime) (number : ℕ) (p : PageParams) (headers : Headers)
    (content : Bytes) : Except PyException IssuesResponse :=
  decode rt ⟨200, [], content, []⟩ >>= fun data =>
    receiveListComments rt number p ⟨200, data, headers⟩

/-- What the client gets for a page of comments. -/
lemma finish_listComments (number : ℕ) (p : PageParams) (now : ℚ) (requestId : Text)
    (cache : ResponseCache) (headers : Headers) (content : Bytes) (reasonPhrase : Text) :
    finish rt settings now requestId ⟨.listComments number p, none⟩ cache
        ⟨200, headers, content, reasonPhrase⟩ =
      (respond rt requestId (commentsOutcome rt number p headers content), cache) := by
  have hreceive : receive rt settings now ⟨.listComments number p, none⟩ cache
      (.response ⟨200, headers, content, reasonPhrase⟩) =
        (request rt now (.response ⟨200, headers, content, reasonPhrase⟩) >>=
          receiveListComments rt number p, cache) := rfl
  rw [finish, hreceive, request_page, commentsOutcome]
  cases decode rt ⟨200, [], content, []⟩ <;> rfl

section

variable {number : ℕ} {p : PageParams} {headers : Headers} {content : Bytes}

lemma commentsOutcome_builtin : OnlyBuiltin (commentsOutcome rt number p headers content) := by
  refine (decode_builtin rt _).bind fun data => ?_
  refine (rewriteLinkHeader_builtin _ _ _).bind fun _ => ?_
  refine (optionalHeader_builtin _ _).bind fun _ => ?_
  refine (iterateOrEmpty_builtin _).bind fun items => ?_
  exact (encodedComments_builtin rt _ items).bind fun _ => OnlyBuiltin.ok _

/-- A page of comments is rendered when its link can be and every element is projected. -/
lemma commentsOutcome_eq_ok {a : IssuesResponse}
    (h : commentsOutcome rt number p headers content = .ok a) :
    LinkRenders rt headers (commentsPath number) ∧ ∃ items comments,
      readPage rt content = .ok items ∧
        items.mapM (encodedComment rt (some number)) = .ok comments ∧
        a.status = 200 ∧ a.body = .model (.comments comments) := by
  obtain ⟨data, hdata, h⟩ := bind_eq_ok.mp h
  obtain ⟨forwarded, hforwarded, h⟩ := bind_eq_ok.mp h
  obtain ⟨link, hlink, h⟩ := bind_eq_ok.mp h
  obtain ⟨items, hitems, h⟩ := bind_eq_ok.mp h
  obtain ⟨comments, hcomments, h⟩ := bind_eq_ok.mp h
  obtain rfl := Except.ok.inj h
  exact ⟨⟨forwarded, link, hforwarded, hlink⟩, items, comments,
    bind_eq_ok.mpr ⟨data, hdata, hitems⟩, encodedComments_eq_ok.mp hcomments, rfl, rfl⟩

lemma commentsOutcome_returns {items : List Json} {comments : List (Comment Text)}
    (hlink : LinkRenders rt headers (commentsPath number))
    (hitems : readPage rt content = .ok items)
    (hcomments : items.mapM (encodedComment rt (some number)) = .ok comments) :
    ∃ a, commentsOutcome rt number p headers content = .ok a := by
  obtain ⟨data, hdata, hitems⟩ := bind_eq_ok.mp hitems
  obtain ⟨forwarded, link, hforwarded, hlink⟩ := hlink
  simp only [commentsOutcome, receiveListComments, GitHubResult.link, bind_eq_ok]
  exact ⟨_, data, hdata, forwarded, hforwarded, link, hlink, items, hitems, comments,
    encodedComments_eq_ok.mpr hcomments, rfl⟩

/-- No string is a comment. -/
lemma mapM_encodedComment_stray (h : strayItems rt content ≠ []) :
    ¬ ∃ comments,
      (strayItems rt content).mapM (encodedComment rt (some number)) = .ok comments := by
  obtain ⟨item, hitem⟩ := List.exists_mem_of_ne_nil _ h
  obtain ⟨s, rfl⟩ := exists_str_of_mem_strayItems hitem
  rw [mapM_returns_iff]
  intro hall
  obtain ⟨comment, hcomment⟩ := hall _ hitem
  cases hcomment

end

/-- **One page of comments.** -/
lemma honest_comments_iff (number : ℕ) (p : PageParams) (now : ℚ) (requestId : Text)
    (cache : ResponseCache) (headers : Headers) (content : Bytes) (reasonPhrase : Text) :
    Honest rt content (ShowsComments rt number) cache
      (finish rt settings now requestId ⟨.listComments number p, none⟩ cache
        ⟨200, headers, content, reasonPhrase⟩) ↔ SoundComments rt number headers content := by
  rw [finish_listComments]
  unfold SoundComments
  rcases arrayItems_cases rt content with hnone | ⟨items, hitems⟩
  · simp only [hnone, reduceCtorEq, exists_const, false_or]
    constructor
    · intro h
      have hraises := h.raises hnone fun a ha => by
        obtain ⟨-, -, -, -, -, hstatus, -⟩ := commentsOutcome_eq_ok ha
        exact hstatus
      by_contra hsound
      obtain ⟨hiterable, hsound⟩ := not_or.mp hsound
      obtain ⟨hlink, hempty⟩ := not_or.mp hsound
      obtain ⟨huniterable, -⟩ | ⟨-, hread⟩ := readPage_of_other hnone
      · exact hiterable huniterable
      · rw [not_not.mp hempty] at hread
        exact hraises (commentsOutcome_returns (not_not.mp hlink) hread rfl)
    · intro hsound
      cases hx : commentsOutcome rt number p headers content with
      | error e =>
        obtain ⟨b, rfl⟩ := commentsOutcome_builtin e hx
        exact Honest.of_raise rfl
      | ok a =>
        obtain ⟨hlink, items, comments, hitems, hcomments, -⟩ := commentsOutcome_eq_ok hx
        exfalso
        obtain ⟨-, b, hread⟩ | ⟨hiterable, hread⟩ := readPage_of_other hnone
        · rw [hread] at hitems
          cases hitems
        · rw [hread] at hitems
          obtain rfl := Except.ok.inj hitems
          rcases hsound with huniterable | hfails | hstray
          · exact hiterable huniterable
          · exact hfails hlink
          · exact mapM_encodedComment_stray hstray ⟨comments, hcomments⟩
  · refine iff_of_true ?_ (Or.inl ⟨items, hitems⟩)
    refine Honest.of_shows commentsOutcome_builtin hitems fun a ha => ?_
    obtain ⟨-, items', comments, hread, hcomments, -, hbody⟩ := commentsOutcome_eq_ok ha
    rw [readPage_of_array hitems] at hread
    obtain rfl := Except.ok.inj hread
    exact ⟨_, hbody, mapM_eq_ok.mp hcomments⟩

/-! ## Runs -/

/-- GitHub had these elements, in an array, on the page of the query. -/
def Served (rt : Runtime) (worlds : Set World) (query : ListQuery) (items : List Json) : Prop :=
  ∃ w ∈ worlds, ∃ content headers, w query = .page content headers ∧
    arrayItems rt content = some items

/-- Everything in the cache was served. -/
def ServedCache (rt : Runtime) (worlds : Set World) (cache : ResponseCache) : Prop :=
  ∀ key entry, (key, entry) ∈ cache.entries → ∀ p, cacheKey p = key →
    Served rt worlds p.upstream entry.data

/-- A response that carries a page shows what was served for its query. -/
def ShowsServed (rt : Runtime) (worlds : Set World) (query : ListQuery)
    (response : IssuesResponse) : Prop :=
  ∀ body, response.body = .model body →
    ∃ items, Served rt worlds query items ∧ ShowsIssues rt items body

variable {worlds : Set World}

/-- Only a value that was returned reaches the client as a page. -/
lemma returned_of_model {rt : Runtime} {requestId : Text} {x : Except PyException IssuesResponse}
    {body : IssuesBody} (h : (respond rt requestId x).body = .model body) :
    ∃ a, x = .ok a ∧ a.body = .model body := by
  have hjson (status : ℕ) (content : Json) (headers : List (String × Text)) :
      (serverErrorMiddleware (some requestId) (echoRequestId requestId
        (jsonResponse rt status content headers)) : IssuesResponse).body ≠ .model body := by
    rw [jsonResponse]
    split_ifs <;> exact fun hbody => by cases hbody
  cases x with
  | ok a => exact ⟨a, rfl, h⟩
  | error e =>
    cases e with
    | appError e => exact absurd h (hjson _ _ _)
    | requestValidation errors => exact absurd h (hjson _ _ _)
    | httpException statusCode detail headers => exact absurd h (hjson _ _ _)
    | builtin b => cases h

/-- A page that was served is shown as it was. -/
lemma showsServed_of_renderPage {query : ListQuery} {p : ListIssuesParams} {xCache : String}
    {entry : CachedList} (h : Served rt worlds query entry.data) (requestId : Text) :
    ShowsServed rt worlds query (respond rt requestId (renderPage rt p xCache entry)) := by
  intro body hbody
  obtain ⟨a, ha, habody⟩ := returned_of_model hbody
  obtain ⟨body', hbody', hshows⟩ := showsIssues_of_renderPage ha
  obtain rfl := Body.model.inj (habody.symm.trans hbody')
  exact ⟨entry.data, h, hshows⟩

/-- Reading the cache yields what was served. -/
lemma served_send (settings : Settings) {cache : ResponseCache}
    (h : ServedCache rt worlds cache) (p : ListIssuesParams) :
    (∀ entry ∈ (send settings cache (.listIssues p)).1.cached,
        Served rt worlds p.upstream entry.data) ∧
      ServedCache rt worlds (send settings cache (.listIssues p)).2 := by
  unfold send
  dsimp only
  split
  · refine ⟨fun entry hentry => h _ _ (ResponseCache.mem_of_get hentry) p rfl,
      fun key entry hmem => ?_⟩
    exact h _ _ (ResponseCache.mem_get_entries.mp hmem)
  · exact ⟨fun entry hentry => (by cases hentry), h⟩

/-- A sound page is shown, and stored if at all, as it was served. -/
lemma served_page {world : World} (hworld : world ∈ worlds) {p : ListIssuesParams}
    {content : Bytes} {headers : Headers} (hpage : world p.upstream = .page content headers)
    (hsound : SoundIssues rt settings headers content) (cached : Option CachedList)
    {cache : ResponseCache} (hcache : ServedCache rt worlds cache) (now : ℚ) (requestId : Text) :
    let answer := finish rt settings now requestId ⟨.listIssues p, cached⟩ cache
      ⟨200, headers, content, []⟩
    ShowsServed rt worlds p.upstream answer.1 ∧ ServedCache rt worlds answer.2 := by
  intro answer
  have hanswer : answer = _ := finish_listIssues p cached now requestId cache headers content []
  rcases arrayItems_cases rt content with hnone | ⟨items, hitems⟩
  · -- nothing is shown and nothing stored
    have hhonest : Honest rt content (ShowsIssues rt) cache answer :=
      (honest_issues_iff p cached now requestId headers content []).mpr hsound cache
    obtain ⟨hstatus, hentries⟩ := hhonest.refused hnone
    refine ⟨fun body hbody => ?_, fun key entry hmem => hcache key entry (hentries ▸ hmem)⟩
    rw [hanswer] at hstatus hbody
    cases hread : readPage rt content with
    | error e =>
      rw [hread] at hbody
      obtain ⟨a, ha, -⟩ := returned_of_model hbody
      cases ha
    | ok data =>
      rw [hread] at hbody hstatus
      obtain ⟨a, ha, -⟩ := returned_of_model hbody
      have h200 := (renderPage_eq_ok ha).1
      dsimp only at hstatus
      rw [ha, respond_ok, Response.withHeader_status, h200] at hstatus
      omega
  · have hserved : Served rt worlds p.upstream items :=
      ⟨world, hworld, content, headers, hpage, hitems⟩
    rw [readPage_of_array hitems] at hanswer
    rw [hanswer]
    dsimp only
    refine ⟨showsServed_of_renderPage hserved requestId, ?_⟩
    split_ifs
    · intro key entry hmem q hq
      rcases ResponseCache.mem_set_entries hmem with heq | hold
      · obtain ⟨rfl, rfl⟩ := Prod.mk.inj heq
        rw [upstream_eq_of_cacheKey_eq hq]
        exact hserved
      · exact hcache key entry hold q hq
    · exact hcache

/-- Whatever GitHub answers, it is shown and stored as it was served. -/
lemma served_listAnswer {world : World} (hworld : world ∈ worlds) {p : ListIssuesParams}
    {cached : Option CachedList} (hread : ∀ entry ∈ cached, Served rt worlds p.upstream entry.data)
    {cache : ResponseCache} (hcache : ServedCache rt worlds cache)
    (hsound : ∀ headers content, world.list p.upstream (nonempty (conditionalEtag p cached)) =
      .response ⟨200, headers, content, []⟩ → SoundIssues rt settings headers content)
    (now : ℚ) (requestId : Text) :
    let answer := listAnswer rt settings world now requestId p cached cache
    ShowsServed rt worlds p.upstream answer.1 ∧ ServedCache rt worlds answer.2 := by
  -- a failed call shows nothing and stores nothing
  have herror : ∀ {outcome e}, request rt now outcome = .error e →
      ShowsServed rt worlds p.upstream
        (respond rt requestId (receiveList rt settings now p cached cache outcome).1) ∧
      ServedCache rt worlds (receiveList rt settings now p cached cache outcome).2 := by
    intro outcome e he
    rw [receiveList_of_error he]
    refine ⟨fun body hbody => ?_, hcache⟩
    obtain ⟨a, ha, -⟩ := returned_of_model hbody
    cases ha
  unfold listAnswer
  dsimp only
  cases hw : world p.upstream with
  | failure outcome failed =>
    by_cases hsent : (nonempty (conditionalEtag p cached)).all isAscii = true
    · obtain ⟨e, he⟩ := request_of_failed rt now failed
      rw [World.list_failure hw hsent]
      exact herror he
    · rw [World.list, if_neg hsent]
      exact herror rfl
  | page content headers =>
    rcases World.list_page_cases hw cached with
      hunsent | hfresh | ⟨hcurrent, ⟨tag, hcaller, -⟩ | hcached⟩
    · rw [hunsent]
      exact herror rfl
    · have hpage := hsound headers content hfresh
      rw [hfresh]
      exact served_page hworld hw hpage cached hcache now requestId
    · rw [hcurrent, receiveList_of_caller (conditionalEtag_of_caller hcaller cached).2]
      exact ⟨fun body hbody => (by cases hbody), hcache⟩
    · -- the entry that was read is shown
      obtain ⟨hcaller, entry, rfl, -⟩ := hcached
      rw [hcurrent, receiveList_of_hit (conditionalEtag_of_cached hcaller _).2]
      exact ⟨showsServed_of_renderPage (hread entry rfl) requestId, hcache⟩

section

variable {ι : Type} [DecidableEq ι]

/-- A page that GitHub answers a waiting request with is one the service is honest about. -/
def SoundStep (rt : Runtime) (settings : Settings) (s : ListState ι) : ListLabel ι → Prop
  | .answer i => ∀ call query tag headers content, s.phase i = .waiting call →
      call.upstream = .listIssues query tag →
      s.world.list query tag = .response ⟨200, headers, content, []⟩ →
      SoundIssues rt settings headers content
  | _ => True

/-- One sound step. -/
def soundListStep (rt : Runtime) (settings : Settings) (worlds : Set World)
    (params : ι → ListIssuesParams) (s : ListState ι) (label : ListLabel ι) (t : ListState ι) :
    Prop :=
  listStep rt settings worlds params s label t ∧ SoundStep rt settings s label

/-- Everything cached was served, and every page in a response shows what was served. -/
structure ServedState (rt : Runtime) (worlds : Set World) (params : ι → ListIssuesParams)
    (s : ListState ι) : Prop where
  cache : ServedCache rt worlds s.cache
  finished : ∀ i seen now requestId response,
    s.phase i = .finished seen now requestId response →
      ShowsServed rt worlds (params i).upstream response

/-- What is known about a request, by how far it has come. -/
def ServedRequest (rt : Runtime) (settings : Settings) (worlds : Set World)
    (p : ListIssuesParams) : ListPhase → Prop
  | .idle => True
  | .waiting call =>
    call.request = .listIssues p ∧ ∀ entry ∈ call.cached, Served rt worlds p.upstream entry.data
  | .answered call seen outcome =>
    call.request = .listIssues p ∧
      (∀ entry ∈ call.cached, Served rt worlds p.upstream entry.data) ∧ seen ∈ worlds ∧
      outcome = seen.list p.upstream (nonempty (conditionalEtag p call.cached)) ∧
      ∀ headers content, outcome = .response ⟨200, headers, content, []⟩ →
        SoundIssues rt settings headers content
  | .finished _ _ _ response => ShowsServed rt worlds p.upstream response

/-- What holds at any moment of a run of sound steps. -/
structure ServedInvariant (rt : Runtime) (settings : Settings) (worlds : Set World)
    (params : ι → ListIssuesParams) (s : ListState ι) : Prop where
  world : s.world ∈ worlds
  cache : ServedCache rt worlds s.cache
  request : ∀ i, ServedRequest rt settings worlds (params i) (s.phase i)

variable {params : ι → ListIssuesParams} {s t : ListState ι}

lemma ServedInvariant.update (h : ServedInvariant rt settings worlds params s)
    {cache : ResponseCache} (hcache : ServedCache rt worlds cache) {i : ι} {phase : ListPhase}
    (hphase : ServedRequest rt settings worlds (params i) phase) :
    ServedInvariant rt settings worlds params
      ⟨s.world, cache, Function.update s.phase i phase⟩ where
  world := h.world
  cache := hcache
  request := by
    have hothers (j : ι) (_ : j ≠ i) : ServedRequest rt settings worlds (params j) (s.phase j) :=
      h.request j
    exact (Function.forall_update_iff s.phase fun j phase =>
      ServedRequest rt settings worlds (params j) phase).mpr ⟨hphase, hothers⟩

/-- **One step.** -/
lemma ServedInvariant.step (h : ServedInvariant rt settings worlds params s)
    {label : ListLabel ι} (hstep : soundListStep rt settings worlds params s label t) :
    ServedInvariant rt settings worlds params t := by
  obtain ⟨hstep, hsound⟩ := hstep
  cases label with
  | send i =>
    obtain ⟨-, rfl⟩ := hstep
    obtain ⟨hread, hcache⟩ := served_send settings h.cache (params i)
    exact h.update hcache ⟨send_request _ _ _, hread⟩
  | change world =>
    obtain ⟨hworld, rfl⟩ := hstep
    exact ⟨hworld, h.cache, h.request⟩
  | answer i =>
    obtain ⟨call, query, tag, hwait, hcall, rfl⟩ := hstep
    have hpages := hsound call query tag
    have hknown := h.request i
    rw [hwait] at hknown
    obtain ⟨hrequest, hread⟩ := hknown
    have hupstream := hcall
    rw [Call.upstream, hrequest] at hcall
    obtain ⟨rfl, rfl⟩ := UpstreamRequest.listIssues.inj hcall
    refine h.update h.cache ⟨hrequest, hread, h.world, rfl, fun headers content hanswer => ?_⟩
    exact hpages headers content hwait hupstream hanswer
  | receive i now requestId =>
    obtain ⟨call, seen, outcome, hanswered, rfl⟩ := hstep
    have hknown := h.request i
    rw [hanswered] at hknown
    obtain ⟨hrequest, hread, hseen, rfl, hpages⟩ := hknown
    have heq := @receive_eq_listAnswer rt settings call _ hrequest seen now requestId s.cache
    obtain ⟨hresponse, hcache⟩ := Prod.mk.inj heq
    obtain ⟨hshows, hserved⟩ := served_listAnswer hseen hread h.cache hpages now requestId
    rw [hresponse, hcache]
    exact h.update hserved hshows

/-- **Runs.**  As long as GitHub's pages are sound, the cache holds and the responses show
nothing but what was served. -/
lemma servedState_of_run {world : World} (hworld : world ∈ worlds) {history : List (ListLabel ι)}
    (hrun : Run (soundListStep rt settings worlds params) (listStart ι settings world) history s) :
    ServedState rt worlds params s := by
  have hinv : ServedInvariant rt settings worlds params s := by
    have hempty : ServedCache rt worlds (listStart ι settings world).cache := fun _ _ hmem => by
      cases hmem
    have hinit : ServedInvariant rt settings worlds params (listStart ι settings world) :=
      ⟨hworld, hempty, fun _ => trivial⟩
    refine hrun.invariant (I := fun _ s => ServedInvariant rt settings worlds params s) hinit ?_
    intro history s label t _ h hstep
    exact h.step hstep
  refine ⟨hinv.cache, fun i seen now requestId response hfinished => ?_⟩
  have hknown := hinv.request i
  rw [hfinished] at hknown
  exact hknown

end

/-! ## The listing routes -/

/-- **When a broken listing is not passed off as a listing.**  For every 200 from GitHub, the
service shows the elements of the array in the body, or answers with an error and stores nothing
when there is none, exactly when the page is sound.  And in every run in which GitHub's pages of
issues are sound, whatever the requests, the interleaving and the evictions, the cache and the
responses, hits included, show nothing but the arrays that were served for their queries. -/
theorem honest_listing_iff (rt : Runtime) (settings : Settings) :
    (∀ p cached now requestId headers content reasonPhrase,
      (∀ cache, Honest rt content (ShowsIssues rt) cache
        (finish rt settings now requestId ⟨.listIssues p, cached⟩ cache
          ⟨200, headers, content, reasonPhrase⟩)) ↔ SoundIssues rt settings headers content) ∧
    (∀ number p now requestId cache headers content reasonPhrase,
      Honest rt content (ShowsComments rt number) cache
        (finish rt settings now requestId ⟨.listComments number p, none⟩ cache
          ⟨200, headers, content, reasonPhrase⟩) ↔ SoundComments rt number headers content) ∧
    ∀ (ι : Type) [DecidableEq ι] (worlds : Set World) (params : ι → ListIssuesParams),
      ∀ world ∈ worlds, ∀ history s,
        Run (soundListStep rt settings worlds params) (listStart ι settings world) history s →
          ServedState rt worlds params s :=
  ⟨honest_issues_iff, honest_comments_iff, fun _ _ _ _ _ hworld _ _ hrun =>
    servedState_of_run hworld hrun⟩

/-- The one page of `mixedListing` is sound. -/
lemma soundStep_mixedListing {ι : Type} {tag : Text} {s : ListState ι}
    (hworld : s.world = mixedListing tag) (label : ListLabel ι) :
    SoundStep .reference .reference s label := by
  cases label with
  | answer i =>
    intro call query tag' headers content _ _ hanswer
    refine Or.inl ⟨mixedItems, ?_⟩
    have hcontent : content = mixedContent := by
      rw [hworld, World.list, World.answer, mixedListing] at hanswer
      dsimp only at hanswer
      split_ifs at hanswer
      · cases hanswer
      · cases hanswer
        rfl
    rw [hcontent, arrayItems, loads_mixedContent]
  | _ => trivial

/-- A run against a GitHub that does not change is one of sound steps when its pages are. -/
lemma soundRun_of_run {ι : Type} [DecidableEq ι] {rt : Runtime} {settings : Settings}
    {params : ι → ListIssuesParams} {world : World} {history : List (ListLabel ι)}
    {s : ListState ι} (hsound : ∀ s : ListState ι, s.world = world →
      ∀ label, SoundStep rt settings s label)
    (hrun : Run (listStep rt settings {world} params) (listStart ι settings world) history s) :
    Run (soundListStep rt settings {world} params) (listStart ι settings world) history s := by
  have hinv : s.world = world ∧
      Run (soundListStep rt settings {world} params) (listStart ι settings world) history s := by
    refine hrun.invariant (I := fun history s => s.world = world ∧ Run (soundListStep rt settings
      {world} params) (listStart ι settings world) history s) ⟨rfl, .start⟩ ?_
    rintro history s label t - ⟨hworld, hsoundRun⟩ hstep
    refine ⟨?_, hsoundRun.next ⟨hstep, hsound s hworld label⟩⟩
    cases label with
    | send i =>
      obtain ⟨-, rfl⟩ := hstep
      exact hworld
    | change w =>
      obtain ⟨hw, rfl⟩ := hstep
      exact hw
    | answer i =>
      obtain ⟨_, _, _, -, -, rfl⟩ := hstep
      exact hworld
    | receive i now requestId =>
      obtain ⟨_, _, _, -, rfl⟩ := hstep
      exact hworld
  exact hinv.2

/-- Two requests for a page with an issue and a pull request, the second answered from the
cache. -/
theorem honest_listing_hit :
    (secondAnswer "\"1\"".toList).header "X-Cache" = some "HIT".toList ∧
      (secondAnswer "\"1\"".toList).body = .model (.issues [mixedIssue]) ∧
      ShowsServed .reference {mixedListing "\"1\"".toList} firstIssues.upstream
        (secondAnswer "\"1\"".toList) := by
  obtain ⟨history, s, hrun, hfinished⟩ := run_second "\"1\"".toList
  have hserved := (honest_listing_iff .reference .reference).2.2 Bool _ (fun _ => firstIssues) _
    (Set.mem_singleton _) _ _ (soundRun_of_run (fun _ => soundStep_mixedListing) hrun)
  exact ⟨by decide +kernel, by decide +kernel, hserved.finished true _ _ _ _ hfinished⟩

/-- A 200 with an entity tag and an empty body. -/
def emptyBody : UpstreamResponse := ⟨200, [("etag", "\"1\"".toList)], [], []⟩

/-- It is answered 200 with an empty listing, which goes into the cache. -/
theorem emptyBody_passed_off :
    let answer := finish .reference .reference 0 ['1'] ⟨.listIssues firstIssues, none⟩
      (.new 1 le_rfl) emptyBody
    answer.1.status = 200 ∧ answer.1.body = .model (.issues []) ∧
      answer.2.entries = [(cacheKey firstIssues, ⟨"\"1\"".toList, [], none⟩)] ∧
      ¬ Honest .reference emptyBody.content (ShowsIssues .reference) (.new 1 le_rfl) answer := by
  intro answer
  have hstatus : answer.1.status = 200 := by decide +kernel
  have hnone : arrayItems .reference emptyBody.content = none := by
    rw [arrayItems, emptyBody, Runtime.loads_nil]
  refine ⟨hstatus, by decide +kernel, by decide +kernel, fun h => ?_⟩
  have herror := (h.refused hnone).1
  omega

end IssuesApi

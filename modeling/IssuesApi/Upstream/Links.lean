import IssuesApi.GitHubClient
import IssuesApi.LinkHeader
import Mathlib.Data.List.Nodup

/-!
# GitHub's `Link` headers

GitHub links a page to its neighbours: at most one link of each relation, in any order, each
URL with whatever query parameters GitHub likes.  The only thing fixed is `next`, which is there
exactly when there is more and leads to the following page of the same size (`PageLinks`).
-/

namespace IssuesApi

/-- The relations GitHub links to. -/
inductive LinkRel where
  | next
  | prev
  | first
  | last
  deriving DecidableEq, Repr

def LinkRel.name : LinkRel → Text
  | .next => "next".toList
  | .prev => "prev".toList
  | .first => "first".toList
  | .last => "last".toList

lemma LinkRel.name_injective : Function.Injective LinkRel.name := by
  intro r r' h
  cases r <;> cases r' <;> first | rfl | exact absurd h (by decide)

/-- A link of GitHub, its query as raw `name=value` pairs. -/
structure GitHubLink where
  rel : LinkRel
  base : Text
  params : List (Text × Text)
  base_url : UrlBase base
  params_raw : ∀ p ∈ params, RawParam p
  params_url : ∀ p ∈ params, UrlQuery p.1 ∧ UrlQuery p.2

namespace GitHubLink

def query (l : GitHubLink) : Text := renderQuery l.params

lemma urlQuery_query (l : GitHubLink) : UrlQuery l.query := urlQuery_renderQuery l.params_url

/-- The characters of the URL are visible ASCII, without angle brackets. -/
lemma url_visible (l : GitHubLink) :
    ∀ c ∈ l.base ++ '?' :: l.query, isVisible c = true ∧ c ∉ ['<', '>'] := by
  intro c hc
  rcases List.mem_append.mp hc with hbase | hquery
  · obtain ⟨hvisible, hplain⟩ := l.base_url c hbase
    exact ⟨hvisible, fun hbad => hplain (by simp at hbad ⊢; tauto)⟩
  · rcases List.mem_cons.mp hquery with rfl | hquery
    · decide
    · obtain ⟨hvisible, hplain⟩ := l.urlQuery_query c hquery
      exact ⟨hvisible, fun hbad => hplain (by simp at hbad ⊢; tauto)⟩

/-- The link as it stands in the header. -/
def link (l : GitHubLink) : LinkValue where
  rel := l.rel.name
  url := l.base ++ '?' :: l.query
  rel_ne := by cases l.rel <;> decide
  rel_trimmed := by cases l.rel <;> decide
  rel_plain := by cases l.rel <;> decide
  url_ne := by simp
  url_trimmed := trimmed_of_forall fun c hc => isSpace_of_isVisible (l.url_visible c hc).1
  url_plain := fun c hc => (l.url_visible c hc).2

lemma urlsplit_link (checks : NetlocChecks) (l : GitHubLink) :
    ∃ parts, urlsplit checks l.link.url = some parts ∧ parts.query = l.query :=
  urlsplit_query checks l.base_url l.urlQuery_query

/-- The link leads to a page: among its parameters `page` and `per_page` have these values, and
no others. -/
structure LeadsTo (l : GitHubLink) (page perPage : ℕ) : Prop where
  page_mem : ("page".toList, decimal page) ∈ l.params
  perPage_mem : ("per_page".toList, decimal perPage) ∈ l.params
  page_only : ∀ p ∈ l.params, unquotePlus p.1 = "page".toList → p.2 = decimal page
  perPage_only : ∀ p ∈ l.params, unquotePlus p.1 = "per_page".toList → p.2 = decimal perPage

end GitHubLink

/-- `page` and `per_page` as a query forwards them. -/
def pageParams (page perPage : ℕ) : List (Text × Text) :=
  [("page".toList, decimal page), ("per_page".toList, decimal perPage)]

/-- What is forwarded of a link that leads to a page. -/
lemma GitHubLink.LeadsTo.forwardedParams {l : GitHubLink} {page perPage : ℕ}
    (h : l.LeadsTo page perPage) : forwardedParams l.query = pageParams page perPage := by
  obtain ⟨morePages, hpage⟩ := parseQs_renderQuery l.params_raw h.page_mem (by decide)
    (unquotePlus_decimal page) (decimal_ne_nil page) h.page_only
  obtain ⟨moreSizes, hperPage⟩ := parseQs_renderQuery l.params_raw h.perPage_mem (by decide)
    (unquotePlus_decimal perPage) (decimal_ne_nil perPage) h.perPage_only
  simp only [IssuesApi.forwardedParams, GitHubLink.query, List.filterMap_cons, hpage, hperPage,
    decimal_ne_nil, if_false, List.filterMap_nil, pageParams]

/-- The links of a page. -/
structure PageLinks (links : List GitHubLink) (page perPage : ℕ) (more : Prop) : Prop where
  distinct : (links.map (·.rel)).Nodup
  next_iff : (∃ l ∈ links, l.rel = .next) ↔ more
  next_leads : ∀ l ∈ links, l.rel = .next → l.LeadsTo (page + 1) perPage

/-- The `Link` header of a page, which is absent when there is nothing to link to. -/
def linkHeader (links : List LinkValue) : Option Text :=
  if links = [] then none else some (renderLinks links)

/-- The links of a page, re-pointed at this service. -/
def repointed (base : LocalPath) (links : List GitHubLink) : List LinkValue :=
  links.map fun l => l.link.repoint base (forwardedParams l.query)

lemma PageLinks.names_nodup {links : List GitHubLink} {page perPage : ℕ} {more : Prop}
    (h : PageLinks links page perPage more) : (links.map fun l => l.link.rel).Nodup := by
  have hnames : (links.map fun l => l.link.rel) = (links.map (·.rel)).map LinkRel.name := by
    rw [List.map_map]
    rfl
  rw [hnames]
  exact List.Nodup.map LinkRel.name_injective h.distinct

/-- Rewriting the header of a page. -/
lemma PageLinks.rewrite (checks : NetlocChecks) (base : LocalPath) {links : List GitHubLink}
    {page perPage : ℕ} {more : Prop} (h : PageLinks links page perPage more) :
    rewriteLinkHeader checks (linkHeader (links.map GitHubLink.link)) base.text =
      .ok (linkHeader (repointed base links)) := by
  by_cases hnone : links = []
  · subst hnone
    rfl
  · rw [linkHeader, if_neg (by simpa using hnone), linkHeader,
      if_neg (by simpa [repointed] using hnone)]
    exact rewriteLinkHeader_renderLinks checks base GitHubLink.link GitHubLink.query hnone
      h.names_nodup fun l _ => l.urlsplit_link checks

/-- A header that is there is not empty. -/
lemma nonempty_linkHeader (links : List LinkValue) :
    nonempty (linkHeader links) = linkHeader links := by
  by_cases hnone : links = []
  · rw [linkHeader, if_pos hnone]
    rfl
  · rw [linkHeader, if_neg hnone, nonempty_some (renderLinks_ne_nil hnone)]

/-- Rewritten headers are ASCII. -/
lemma isAscii_linkHeader_repointed (base : LocalPath) (links : List GitHubLink) :
    ∀ value ∈ linkHeader (repointed base links), isAscii value = true := by
  intro value hvalue
  by_cases hnone : repointed base links = []
  · rw [linkHeader, if_pos hnone] at hvalue
    cases hvalue
  rw [linkHeader, if_neg hnone] at hvalue
  obtain rfl := Option.some.inj hvalue
  refine isAscii_renderLinks fun l hl => ?_
  obtain ⟨g, -, rfl⟩ := List.mem_map.mp hl
  refine ⟨?_, ?_⟩
  · show isAscii g.rel.name = true
    cases g.rel <;> decide
  · refine List.all_eq_true.mpr fun c hc => ?_
    have := isVisible_bounds (base.target_visible _ c hc).1
    simpa using (by omega : c.toNat < 128)

/-- A response header that is there or not. -/
lemma Headers.get_link (value : Option Text) :
    Headers.get (value.toList.map fun v => ("link", v)) "link" = value := by
  cases value <;> simp [Headers.get]

/-! ## Typical links

The links GitHub typically sends: to the next page when there is one, and to the first, each
with a further parameter in its URL. -/

lemma pageParams_raw (page perPage : ℕ) : ∀ p ∈ pageParams page perPage, RawParam p := by
  intro p hp
  simp only [pageParams, List.mem_cons, List.not_mem_nil, or_false] at hp
  have hpage : '&' ∉ "page".toList ∧ '=' ∉ "page".toList := by decide
  have hperPage : '&' ∉ "per_page".toList ∧ '=' ∉ "per_page".toList := by decide
  rcases hp with rfl | rfl
  · exact ⟨hpage.1, hpage.2, not_mem_decimal page (by decide)⟩
  · exact ⟨hperPage.1, hperPage.2, not_mem_decimal perPage (by decide)⟩

lemma urlQuery_decimal (n : ℕ) : UrlQuery (decimal n) := by
  rw [← quotePlus_decimal]
  exact urlQuery_quotePlus _

lemma pageParams_url (page perPage : ℕ) :
    ∀ p ∈ pageParams page perPage, UrlQuery p.1 ∧ UrlQuery p.2 := by
  intro p hp
  simp only [pageParams, List.mem_cons, List.not_mem_nil, or_false] at hp
  have hpage : UrlQuery "page".toList := by decide
  have hperPage : UrlQuery "per_page".toList := by decide
  rcases hp with rfl | rfl
  · exact ⟨hpage, urlQuery_decimal page⟩
  · exact ⟨hperPage, urlQuery_decimal perPage⟩

/-- What goes before the page numbers in the URLs of a listing. -/
structure ListingUrl where
  base : Text
  extra : Text × Text
  base_url : UrlBase base
  extra_raw : RawParam extra
  extra_url : UrlQuery extra.1 ∧ UrlQuery extra.2
  extra_other : unquotePlus extra.1 ≠ "page".toList ∧ unquotePlus extra.1 ≠ "per_page".toList

/-- `<base?extra&page=..&per_page=..>; rel="rel"`. -/
def ListingUrl.toPage (url : ListingUrl) (rel : LinkRel) (page perPage : ℕ) : GitHubLink where
  rel := rel
  base := url.base
  params := url.extra :: pageParams page perPage
  base_url := url.base_url
  params_raw := List.forall_mem_cons.mpr ⟨url.extra_raw, pageParams_raw page perPage⟩
  params_url := List.forall_mem_cons.mpr ⟨url.extra_url, pageParams_url page perPage⟩

lemma ListingUrl.leadsTo (url : ListingUrl) (rel : LinkRel) (page perPage : ℕ) :
    (url.toPage rel page perPage).LeadsTo page perPage := by
  have hpage : unquotePlus "page".toList = "page".toList := by decide
  have hperPage : unquotePlus "per_page".toList = "per_page".toList := by decide
  have hdistinct : "page".toList ≠ "per_page".toList := by decide
  refine ⟨by simp [toPage, pageParams], by simp [toPage, pageParams], ?_, ?_⟩
  · intro p hp hname
    simp only [toPage, pageParams, List.mem_cons, List.not_mem_nil, or_false] at hp
    rcases hp with rfl | rfl | rfl
    · exact absurd hname url.extra_other.1
    · rfl
    · exact absurd (hname.symm.trans hperPage) hdistinct
  · intro p hp hname
    simp only [toPage, pageParams, List.mem_cons, List.not_mem_nil, or_false] at hp
    rcases hp with rfl | rfl | rfl
    · exact absurd hname url.extra_other.2
    · exact absurd (hpage.symm.trans hname) hdistinct
    · rfl

/-- The links of a page of a listing of the given length. -/
def ListingUrl.links (url : ListingUrl) (length page perPage : ℕ) : List GitHubLink :=
  if page * perPage < length then
    [url.toPage .first 1 perPage, url.toPage .next (page + 1) perPage]
  else [url.toPage .first 1 perPage]

lemma ListingUrl.pageLinks (url : ListingUrl) (length page perPage : ℕ) :
    PageLinks (url.links length page perPage) page perPage (page * perPage < length) := by
  unfold links
  split_ifs with hmore
  · have hdistinct : [LinkRel.first, LinkRel.next].Nodup := by decide
    have hnext := List.mem_cons_of_mem (url.toPage .first 1 perPage)
      (List.mem_singleton_self (url.toPage .next (page + 1) perPage))
    refine ⟨hdistinct, iff_of_true ⟨_, hnext, rfl⟩ hmore, fun l hl hrel => ?_⟩
    simp only [List.mem_cons, List.not_mem_nil, or_false] at hl
    rcases hl with rfl | rfl
    · cases hrel
    · exact url.leadsTo .next (page + 1) perPage
  · refine ⟨List.nodup_singleton _, iff_of_false ?_ hmore, fun l hl hrel => ?_⟩
    · rintro ⟨l, hl, hrel⟩
      rw [List.mem_singleton] at hl
      subst hl
      cases hrel
    · rw [List.mem_singleton] at hl
      subst hl
      cases hrel

end IssuesApi

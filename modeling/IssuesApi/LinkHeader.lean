import IssuesApi.WrittenLinks

/-!
# Reading a rendered `Link` header back

`parse_link_header` is proved against the writer's side.  A `LinkValue` is a relation and a URL
that can stand in a header unambiguously, `renderLinks` writes a list of them the way GitHub and
this service do, and `parseLinkHeader_renderLinks` says that reading gives them back, the first
of each relation.

A `LinkValue` has no parameters but its relation, so nothing in it is taken for a separator or
for another relation.
-/

namespace IssuesApi

/-- A link that can be written in a header and read back. -/
structure LinkValue where
  rel : Text
  url : Text
  rel_ne : rel ≠ []
  rel_trimmed : Trimmed rel
  rel_plain : ∀ c ∈ rel, c ∉ ['"', ',', '<', '>']
  url_ne : url ≠ []
  url_trimmed : Trimmed url
  url_plain : ∀ c ∈ url, c ∉ ['<', '>']

namespace LinkValue

/-- The link as `parse_link_header` reports it. -/
def entry (l : LinkValue) : Text × Text := (l.rel, l.url)

/-- `<url>; rel="rel"`. -/
def render (l : LinkValue) : Text := renderLink l.url l.rel

/-- What follows the URL in `render`. -/
def params (l : LinkValue) : Text := "rel=\"".toList ++ l.rel ++ ['"']

lemma params_eq (l : LinkValue) : l.params = "rel=\"".toList ++ l.rel ++ ['"'] := rfl

lemma render_eq (l : LinkValue) : l.render = '<' :: (l.url ++ '>' :: ';' :: ' ' :: l.params) := by
  have hsep : ">; rel=\"".toList = '>' :: ';' :: ' ' :: "rel=\"".toList := by decide +kernel
  rw [render, renderLink, params_eq, hsep]
  simp

/-- The link with its parameters as a text. -/
def written (l : LinkValue) : WrittenLink := ⟨l.url, l.params, l.url_plain⟩

lemma written_text (l : LinkValue) : l.written.text = l.render := by
  rw [render_eq]
  simp [WrittenLink.text, WrittenLink.opening, written]

lemma written_plain (l : LinkValue) : l.written.Plain l.rel where
  chars := by
    intro c hc
    have hmem : c ∈ "rel=\"".toList ∨ c ∈ l.rel ∨ c = '"' := by
      simpa [written, params_eq, or_assoc] using hc
    have hletters : ∀ x ∈ "rel=\"".toList, x ∉ [',', '<', '>'] := by decide
    rcases hmem with hname | hrel | rfl
    · exact hletters c hname
    · exact fun hbad => l.rel_plain c hrel (List.mem_cons_of_mem _ hbad)
    · decide
  trimmed := by
    refine ⟨fun c hc => ?_, fun c hc => ?_⟩
    · obtain rfl : 'r' = c := by simpa [written, params_eq] using hc
      decide
    · rw [written, params_eq, List.getLast?_concat, Option.mem_def, Option.some.injEq] at hc
      subst hc
      decide
  first := searchRel_quoted (fun h => l.rel_plain _ h (by decide)) []

lemma not_unnamed (l : LinkValue) : ¬ l.written.Unnamed := by
  rintro ⟨m, hm, hempty⟩
  obtain rfl := Option.some.inj (l.written_plain.reading_eq.symm.trans hm)
  exact l.rel_ne (Option.some.inj hempty)

lemma written_entry (l : LinkValue) : l.written.entry = some l.entry := by
  have hrel : (⟨some l.rel, none⟩ : RelMatch).text = l.rel := by
    rw [RelMatch.text, nonempty_some l.rel_ne]
    exact strip_of_trimmed l.rel_trimmed
  have hurl : strip l.written.url = l.url := strip_of_trimmed l.url_trimmed
  simp [WrittenLink.entry, l.written_plain.reading_eq, hrel, hurl, l.rel_ne, l.url_ne, entry]

end LinkValue

/-- The header of a list of links. -/
def renderLinks (links : List LinkValue) : Text := joinSep ", ".toList (links.map LinkValue.render)

@[simp] lemma renderLinks_singleton (l : LinkValue) : renderLinks [l] = l.render :=
  joinSep_singleton _ _

lemma renderLinks_cons_cons (l l' : LinkValue) (ls : List LinkValue) :
    renderLinks (l :: l' :: ls) = l.render ++ ',' :: ' ' :: renderLinks (l' :: ls) := by
  simp [renderLinks, joinSep_cons_cons]

lemma renderLinks_ne_nil {ls : List LinkValue} (h : ls ≠ []) : renderLinks ls ≠ [] := by
  obtain ⟨l, ls, rfl⟩ := List.exists_cons_of_ne_nil h
  cases ls with
  | nil => simp [l.render_eq]
  | cons l' ls => simp [renderLinks_cons_cons, l.render_eq]

lemma writtenHeader_written (ls : List LinkValue) :
    writtenHeader (ls.map LinkValue.written) = renderLinks ls := by
  rw [writtenHeader, renderLinks, List.map_map]
  exact congrArg _ (List.map_congr_left fun l _ => l.written_text)

/-- **Reading undoes writing.**  The links come back in order, the first of each relation. -/
theorem parseLinkHeader_renderLinks (ls : List LinkValue) :
    parseLinkHeader (some (renderLinks ls)) =
      .ok ((ls.map LinkValue.entry).foldl Links.addNew []) := by
  by_cases hne : ls = []
  · rw [hne]
    rfl
  · have hclosed : WrittenClosed (ls.map LinkValue.written) := by
      intro w hw
      obtain ⟨l, -, rfl⟩ := List.mem_map.mp (List.dropLast_subset _ hw)
      exact l.written_plain.depthAfter_params
    have hentries : (ls.map LinkValue.written).filterMap WrittenLink.entry =
        ls.map LinkValue.entry := by
      rw [List.filterMap_map, List.filterMap_eq_map_iff_forall_eq_some]
      exact fun l _ => l.written_entry
    rw [← writtenHeader_written, parseLinkHeader_writtenHeader (by simpa using hne) hclosed,
      hentries]
    · refine ⟨?_, Links.foldl_addNew_eq _ _⟩
      rw [List.forall_mem_map]
      exact fun l _ => l.not_unnamed
    · rw [List.forall_mem_map]
      exact fun l _ => l.written_plain.cutsSilent

/-- Links of distinct relations all come back. -/
lemma parseLinkHeader_of_nodup {ls : List LinkValue} (h : (ls.map LinkValue.rel).Nodup) :
    parseLinkHeader (some (renderLinks ls)) = .ok (ls.map LinkValue.entry) := by
  have hrels : ([] ++ (ls.map LinkValue.entry).map Prod.fst).Nodup := by
    rw [List.nil_append, List.map_map]
    exact h
  rw [parseLinkHeader_renderLinks, Links.foldl_addNew_eq]
  exact congrArg Except.ok (winners_of_nodup hrels)

/-- A header of ASCII links is ASCII. -/
lemma isAscii_renderLinks {ls : List LinkValue}
    (h : ∀ l ∈ ls, isAscii l.rel = true ∧ isAscii l.url = true) :
    isAscii (renderLinks ls) = true := by
  rw [isAscii, List.all_eq_true]
  intro c hc
  rcases mem_joinSep hc with hsep | ⟨t, ht, hmem⟩
  · exact List.all_eq_true.mp (by decide : isAscii ", ".toList = true) c hsep
  · obtain ⟨l, hl, rfl⟩ := List.mem_map.mp ht
    have hrender : isAscii l.render = true := by
      have hrel := (h l hl).1
      have hurl := (h l hl).2
      simp only [isAscii] at hrel hurl
      simp [LinkValue.render, renderLink, isAscii, List.all_append, hrel, hurl]
    exact List.all_eq_true.mp hrender c hmem

/-! ## Rewriting -/

/-- The link re-pointed at a path with what its URL forwards, as a link that can be written. -/
def Repoints (checks : NetlocChecks) (basePath : Text) (link : Text × Text) (l : LinkValue) :
    Prop :=
  l.rel = link.1 ∧ ∃ parts, urlsplit checks link.2 = some parts ∧
    l.url = localTarget basePath (forwardedParams parts.query)

lemma rewriteLink_of_repoints {checks : NetlocChecks} {basePath : Text} {link : Text × Text}
    {l : LinkValue} (h : Repoints checks basePath link l) :
    rewriteLink checks basePath link = .ok l.render := by
  obtain ⟨hrel, parts, hparts, hurl⟩ := h
  rw [rewriteLink, hparts]
  dsimp only
  rw [← hurl, ← hrel]
  rfl

/-- What rewriting returns when the header parses and every target is split. -/
lemma rewriteLinkHeader_of_repoints {checks : NetlocChecks} {basePath value : Text}
    {links : Links} {ls : List LinkValue} (hparse : parseLinkHeader (some value) = .ok links)
    (hne : links ≠ []) (h : List.Forall₂ (Repoints checks basePath) links ls) :
    rewriteLinkHeader checks (some value) basePath = .ok (some (renderLinks ls)) := by
  have hrendered : links.mapM (rewriteLink checks basePath) = .ok (ls.map LinkValue.render) := by
    rw [mapM_eq_ok, List.forall₂_map_right_iff]
    exact h.imp fun link l hl => rewriteLink_of_repoints hl
  rw [rewriteLinkHeader, hparse, ok_bind, if_neg hne, hrendered, ok_bind]
  rfl

/-- A path of this service, as the base of rewritten links. -/
structure LocalPath where
  text : Text
  absolute : ∃ c t, text = '/' :: c :: t ∧ c ≠ '/'
  url : UrlBase text

/-- The characters of a rewritten target are visible ASCII, without angle brackets. -/
lemma LocalPath.target_visible (base : LocalPath) (forwarded : List (Text × Text)) :
    ∀ c ∈ localTarget base.text forwarded, isVisible c = true ∧ c ∉ ['<', '>'] := by
  intro c hc
  rcases List.mem_append.mp hc with hbase | hquery
  · obtain ⟨hvisible, hplain⟩ := base.url c hbase
    exact ⟨hvisible, fun hbad => hplain (by simp at hbad ⊢; tauto)⟩
  · split_ifs at hquery with hnone
    · simp at hquery
    · rcases List.mem_cons.mp hquery with rfl | hquery
      · decide
      · obtain ⟨hvisible, hplain⟩ := urlQuery_urlencode forwarded c hquery
        exact ⟨hvisible, fun hbad => hplain (by simp at hbad ⊢; tauto)⟩

lemma LocalPath.target_ne_nil (base : LocalPath) (forwarded : List (Text × Text)) :
    localTarget base.text forwarded ≠ [] := by
  obtain ⟨c, t, hbase, -⟩ := base.absolute
  rw [localTarget, hbase]
  exact List.cons_ne_nil _ _

/-- The link re-pointed at this service. -/
def LinkValue.repoint (l : LinkValue) (base : LocalPath) (forwarded : List (Text × Text)) :
    LinkValue :=
  { l with
    url := localTarget base.text forwarded
    url_ne := base.target_ne_nil forwarded
    url_trimmed := trimmed_of_forall fun c hc =>
      isSpace_of_isVisible (base.target_visible forwarded c hc).1
    url_plain := fun c hc => (base.target_visible forwarded c hc).2 }

/-- **Rewriting a rendered header.**  Each link keeps its relation and its place, and is
re-pointed with what its query forwards. -/
theorem rewriteLinkHeader_renderLinks (checks : NetlocChecks) (base : LocalPath) {α : Type}
    (link : α → LinkValue) (query : α → Text) {xs : List α} (hne : xs ≠ [])
    (hrels : (xs.map fun x => (link x).rel).Nodup)
    (hsplit : ∀ x ∈ xs, ∃ parts, urlsplit checks (link x).url = some parts ∧
      parts.query = query x) :
    rewriteLinkHeader checks (some (renderLinks (xs.map link))) base.text =
      .ok (some (renderLinks (xs.map fun x =>
        (link x).repoint base (forwardedParams (query x))))) := by
  have hparse : parseLinkHeader (some (renderLinks (xs.map link))) =
      .ok ((xs.map link).map LinkValue.entry) := by
    refine parseLinkHeader_of_nodup ?_
    rw [List.map_map]
    exact hrels
  have hne : (xs.map link).map LinkValue.entry ≠ [] := by simpa using hne
  refine (rewriteLinkHeader_of_repoints hparse hne ?_).trans rfl
  rw [List.map_map, List.forall₂_map_left_iff, List.forall₂_map_right_iff, List.forall₂_same]
  intro x hx
  obtain ⟨parts, hparts, hquery⟩ := hsplit x hx
  exact ⟨rfl, parts, hparts, by rw [hquery]; rfl⟩

end IssuesApi

import IssuesApi.LinkHeader

/-!
# Headers put together

What `parse_link_header` makes of a header is determined by the parts it is put together from.
At a comma outside all brackets a header falls apart: its pieces are those of the two sides, so
the links are those of the left side and, of the right side, those whose relation is new.  And
a header that was rendered from links is read back as these links.
-/

namespace IssuesApi

/-! ## Commas outside brackets -/

/-- Every bracket the text opens is closed, by the count of `_split_segments`. -/
def Closed (t : Text) : Prop := depthAfter 0 t = 0

instance (t : Text) : Decidable (Closed t) := by
  unfold Closed
  infer_instance

/-- The links of the first header, then those of the second whose relation is not yet there. -/
def Links.extend (links more : Links) : Links :=
  links ++ more.filter fun link => !links.has link.1

lemma Links.nil_extend (links : Links) : Links.extend [] links = links := by
  rw [Links.extend, List.nil_append, List.filter_eq_self]
  intro link _
  rfl

lemma Links.extend_nil (links : Links) : Links.extend links [] = links := by
  rw [Links.extend, List.filter_nil, List.append_nil]

/-- What the pieces of a text say, the first of each relation. -/
lemma winners_pieces_append_comma {a : Text} (ha : Closed a) (b : Text) :
    winners Prod.fst [] ((pieces 0 (a ++ ',' :: b)).filterMap segmentEntry) =
      Links.extend (winners Prod.fst [] ((pieces 0 a).filterMap segmentEntry))
        (winners Prod.fst [] ((pieces 0 b).filterMap segmentEntry)) := by
  rw [pieces_append_comma ha, List.filterMap_append, winners_append, Links.extend]
  congr 1
  refine List.filter_congr fun link _ => ?_
  -- a relation is among the winners when it is among the entries
  have hhas : Links.has (winners Prod.fst [] ((pieces 0 a).filterMap segmentEntry)) link.1 = true ↔
      link.1 ∈ ((pieces 0 a).filterMap segmentEntry).map Prod.fst := by
    rw [Links.has_iff, mem_map_winners]
    exact and_iff_right (List.not_mem_nil)
  simp only [← hhas, Bool.not_eq_true, Bool.decide_eq_false]

/-- Parsing either returns or raises the one exception a segment can raise. -/
lemma parseLinkHeader_cases (value : Text) :
    (∃ links, parseLinkHeader (some value) = .ok links) ∨
      parseLinkHeader (some value) = raiseBuiltin .attributeError := by
  by_cases h : ∃ segment ∈ splitSegments value, NamesNothing segment
  · exact Or.inr (parseLinkHeader_of_namesNothing h)
  · rw [not_exists] at h
    exact Or.inl ⟨_, parseLinkHeader_eq fun segment hsegment hnothing =>
      h segment ⟨hsegment, hnothing⟩⟩

/-- Both sides of a comma are read, one after the other. -/
lemma parseLinkHeader_ok_comma_iff {a : Text} (ha : Closed a) (b : Text) {links : Links} :
    parseLinkHeader (some (a ++ ',' :: b)) = .ok links ↔
      ∃ left right, parseLinkHeader (some a) = .ok left ∧ parseLinkHeader (some b) = .ok right ∧
        links = left.extend right := by
  simp only [parseLinkHeader_ok_iff_pieces, winners_pieces_append_comma ha]
  rw [pieces_append_comma ha, List.forall_mem_append]
  constructor
  · rintro ⟨⟨hleft, hright⟩, hlinks⟩
    exact ⟨_, _, ⟨hleft, rfl⟩, ⟨hright, rfl⟩, hlinks⟩
  · rintro ⟨left, right, ⟨hleft, rfl⟩, ⟨hright, rfl⟩, hlinks⟩
    exact ⟨⟨hleft, hright⟩, hlinks⟩

/-- Reading a header is reading the two sides of a comma outside brackets. -/
lemma parseLinkHeader_comma {a : Text} (ha : Closed a) (b : Text) :
    parseLinkHeader (some (a ++ ',' :: b)) = (do
      let left ← parseLinkHeader (some a)
      let right ← parseLinkHeader (some b)
      return left.extend right) := by
  have hraises : (∀ left right, parseLinkHeader (some a) = .ok left →
      parseLinkHeader (some b) ≠ .ok right) →
      parseLinkHeader (some (a ++ ',' :: b)) = raiseBuiltin .attributeError := by
    intro hfails
    refine (parseLinkHeader_cases _).resolve_left ?_
    rintro ⟨links, hlinks⟩
    obtain ⟨left, right, hleft, hright, -⟩ := (parseLinkHeader_ok_comma_iff ha b).mp hlinks
    exact hfails left right hleft hright
  rcases parseLinkHeader_cases a with ⟨left, hleft⟩ | hleft
  · rcases parseLinkHeader_cases b with ⟨right, hright⟩ | hright
    · rw [hleft, hright, (parseLinkHeader_ok_comma_iff ha b).mpr ⟨_, _, hleft, hright, rfl⟩]
      rfl
    · rw [hleft, hright, hraises fun left' right' _ h => by rw [hright] at h; cases h]
      rfl
  · rw [hleft, hraises fun left' right' h => by rw [hleft] at h; cases h]
    rfl

/-- **Parsing is compositional at commas outside brackets.**  The links are those of the left
side, then those of the right side with a new relation, and parsing raises when parsing one of
the sides does.  So a closed text that says nothing may be put before, between or after other
texts. -/
theorem parseLinkHeader_append_comma {a : Text} (ha : Closed a) (b : Text) :
    (parseLinkHeader (some (a ++ ',' :: b)) = do
      let left ← parseLinkHeader (some a)
      let right ← parseLinkHeader (some b)
      return left.extend right) ∧
    ((∃ e, parseLinkHeader (some (a ++ ',' :: b)) = .error e) ↔
      (∃ e, parseLinkHeader (some a) = .error e) ∨ ∃ e, parseLinkHeader (some b) = .error e) ∧
    (parseLinkHeader (some a) = .ok [] →
      parseLinkHeader (some (a ++ ',' :: b)) = parseLinkHeader (some b) ∧
      ∀ before, Closed before →
        parseLinkHeader (some (before ++ ',' :: a)) = parseLinkHeader (some before) ∧
        parseLinkHeader (some (before ++ ',' :: (a ++ ',' :: b))) =
          parseLinkHeader (some (before ++ ',' :: b))) := by
  have hcomma := parseLinkHeader_comma ha b
  refine ⟨hcomma, ?_, fun hnone => ?_⟩
  · rw [hcomma]
    cases parseLinkHeader (some a) with
    | error e => simp
    | ok left => cases parseLinkHeader (some b) <;> simp [pure, Except.pure]
  · have hskip : parseLinkHeader (some (a ++ ',' :: b)) = parseLinkHeader (some b) := by
      rw [hcomma, hnone, ok_bind]
      cases parseLinkHeader (some b) with
      | error e => rfl
      | ok right => exact congrArg Except.ok (Links.nil_extend right)
    refine ⟨hskip, fun before hbefore => ⟨?_, ?_⟩⟩
    · rw [parseLinkHeader_comma hbefore, hnone]
      cases parseLinkHeader (some before) with
      | error e => rfl
      | ok left => exact congrArg Except.ok (Links.extend_nil left)
    · rw [parseLinkHeader_comma hbefore, parseLinkHeader_comma hbefore, hskip]

/-- A link, garbage that closes a bracket too many, and a link of the same relation. -/
theorem parseLinkHeader_append_comma_stray :
    Closed "<u>; rel=next, >x".toList ∧
      parseLinkHeader (some "<u>; rel=next, >x,<v>; rel=next,<w>; rel=last".toList) =
        .ok [("next".toList, "u".toList), ("last".toList, "w".toList)] := by
  have hclosed : Closed "<u>; rel=next, >x".toList := by decide
  have hread := (parseLinkHeader_append_comma hclosed "<v>; rel=next,<w>; rel=last".toList).1
  have hleft : parseLinkHeader (some "<u>; rel=next, >x".toList) =
      .ok [("next".toList, "u".toList)] := by decide +kernel
  have hright : parseLinkHeader (some "<v>; rel=next,<w>; rel=last".toList) =
      .ok [("next".toList, "v".toList), ("last".toList, "w".toList)] := by decide +kernel
  rw [hleft, hright] at hread
  exact ⟨hclosed, hread.trans (by decide +kernel)⟩

/-! ## Rendered headers -/

/-- **Parsing undoes rendering.**  A header rendered from links is read as the links that are the
first of their relation, in their order; when no relation is repeated, these are all. -/
theorem parseLinkHeader_render (ls : List LinkValue) :
    ∃ links, parseLinkHeader (some (renderLinks ls)) = .ok links ∧
      ((ls.map LinkValue.rel).Nodup → links = ls.map LinkValue.entry) ∧
      links.Sublist (ls.map LinkValue.entry) ∧ (links.map Prod.fst).Nodup ∧
      ∀ link, link ∈ links ↔ ∃ before after, ls.map LinkValue.entry = before ++ link :: after ∧
        ∀ earlier ∈ before, earlier.1 ≠ link.1 := by
  refine ⟨winners Prod.fst [] (ls.map LinkValue.entry), ?_, fun hrels => ?_,
    winners_sublist _ _ _, nodup_map_winners _ _ _, fun link => ?_⟩
  · rw [parseLinkHeader_renderLinks, Links.foldl_addNew_eq]
    rfl
  · apply winners_of_nodup
    rw [List.nil_append, List.map_map]
    exact hrels
  · exact mem_winners.trans (and_iff_right List.not_mem_nil)

end IssuesApi

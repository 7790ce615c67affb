import IssuesApi.LinkEntries
import IssuesApi.Reference
import IssuesApi.Routers.Issues

/-!
# When a `Link` header is survived

`parse_link_header` and `rewrite_link_header` are meant to take any text an upstream may send.
There are two ways in which they do not.  A relation given as the empty quoted string leaves
both groups of the pattern false, and the second of them is `None`.  And `urlsplit` raises
`ValueError` on an authority it does not accept.  Nothing else is in the way: on every other
header both return.
-/

namespace IssuesApi

/-- No segment of the header gives its relation as `""`. -/
def RelationsNamed (value : Text) : Prop := ∀ segment ∈ splitSegments value, ¬ NamesNothing segment

/-- `urlsplit` accepts the URL of every link that is the first of its relation. -/
def TargetsAccepted (checks : NetlocChecks) (value : Text) : Prop :=
  ∀ link, Wins Prod.fst [] (linkEntries value) link → (urlsplit checks link.2).isSome = true

/-- One link can be rewritten when its URL can be split. -/
lemma rewriteLink_returns_iff (checks : NetlocChecks) (basePath : Text) (link : Text × Text) :
    (∃ rendered, rewriteLink checks basePath link = .ok rendered) ↔
      (urlsplit checks link.2).isSome = true := by
  rw [rewriteLink]
  cases urlsplit checks link.2 with
  | none => simp [raiseBuiltin]
  | some parts => simp

lemma targetsAccepted_iff (checks : NetlocChecks) (value basePath : Text) :
    TargetsAccepted checks value ↔
      ∃ rendered, (keptLinks value).mapM (rewriteLink checks basePath) = .ok rendered := by
  rw [mapM_returns_iff]
  constructor
  · intro h link hlink
    exact (rewriteLink_returns_iff checks basePath link).mpr (h link (mem_winners.mp hlink))
  · intro h link hwins
    exact (rewriteLink_returns_iff checks basePath link).mp (h link (mem_winners.mpr hwins))

lemma parseLinkHeader_returns_iff (value : Text) :
    (∃ links, parseLinkHeader (some value) = .ok links) ↔ RelationsNamed value := by
  constructor
  · rintro ⟨links, h⟩
    exact (parseLinkHeader_ok_iff.mp h).1
  · exact fun h => ⟨_, parseLinkHeader_eq h⟩

lemma rewriteLinkHeader_returns_iff (checks : NetlocChecks) (value basePath : Text) :
    (∃ header, rewriteLinkHeader checks (some value) basePath = .ok header) ↔
      RelationsNamed value ∧ TargetsAccepted checks value := by
  rw [rewriteLinkHeader, targetsAccepted_iff checks value basePath]
  constructor
  · rintro ⟨header, h⟩
    obtain ⟨links, hparse, h⟩ := bind_eq_ok.mp h
    obtain ⟨hnamed, rfl⟩ := parseLinkHeader_ok_iff.mp hparse
    refine ⟨hnamed, ?_⟩
    split at h
    · next hnone => exact ⟨[], by rw [hnone]; rfl⟩
    · obtain ⟨rendered, hrendered, -⟩ := bind_eq_ok.mp h
      exact ⟨rendered, hrendered⟩
  · rintro ⟨hnamed, rendered, hrendered⟩
    rw [parseLinkHeader_eq hnamed, ok_bind]
    split
    · exact ⟨none, rfl⟩
    · exact ⟨_, bind_eq_ok.mpr ⟨rendered, hrendered, rfl⟩⟩

/-- **When link rewriting returns.**  Both functions return exactly when every relation is
named and every target that is kept can be split; parsing alone needs the first only. -/
theorem link_rewriting_returns_iff (checks : NetlocChecks) (value basePath : Text) :
    ((∃ links, parseLinkHeader (some value) = .ok links) ∧
        (∃ header, rewriteLinkHeader checks (some value) basePath = .ok header) ↔
      RelationsNamed value ∧ TargetsAccepted checks value) ∧
    ((∃ links, parseLinkHeader (some value) = .ok links) ↔ RelationsNamed value) := by
  refine ⟨?_, parseLinkHeader_returns_iff value⟩
  rw [parseLinkHeader_returns_iff, rewriteLinkHeader_returns_iff]
  constructor
  · exact fun h => h.2
  · exact fun h => ⟨h.1, h⟩

/-- An empty quoted relation stops the parser, an unbalanced bracket the rewriter. -/
theorem link_rewriting_raises :
    parseLinkHeader (some "<https://api.github.com/issues?page=2>; rel=\"\"".toList) =
        raiseBuiltin .attributeError ∧
      rewriteLinkHeader Runtime.reference.netloc
          (some "<https://[::1/issues?page=2>; rel=\"next\"".toList) issuesPath =
        raiseBuiltin .valueError := by
  decide +kernel

end IssuesApi

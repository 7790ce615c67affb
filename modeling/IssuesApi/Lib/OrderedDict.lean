import Mathlib.Data.List.DropRight
import Mathlib.Data.List.Nodup

/-!
# Ordered dictionaries

`collections.OrderedDict` as a list of key-value pairs, oldest first: lookup, assignment
(an existing key keeps its place), `move_to_end`, and eviction from the front down to a
size.  The lemmas say what each operation does to the set of stored pairs and, where every key
is stored once, to their order.
-/

namespace IssuesApi

/-- An ordered dictionary; the first pair is the next to be popped. -/
abbrev OrderedDict (κ α : Type) := List (κ × α)

namespace OrderedDict

variable {κ α : Type} [DecidableEq κ]

/-- `d.get(key)`. -/
def get (d : OrderedDict κ α) (key : κ) : Option α :=
  (d.find? (fun p => p.1 = key)).map (·.2)

/-- `d[key] = value`. -/
def assign (d : OrderedDict κ α) (key : κ) (value : α) : OrderedDict κ α :=
  if d.any (fun p => p.1 = key) then d.map (fun p => if p.1 = key then (key, value) else p)
  else d ++ [(key, value)]

/-- `d.move_to_end(key)`. -/
def moveToEnd (d : OrderedDict κ α) (key : κ) : OrderedDict κ α :=
  d.filter (fun p => p.1 ≠ key) ++ d.filter (fun p => p.1 = key)

/-- `while len(d) > size: d.popitem(last=False)`. -/
def evictTo (size : ℕ) : OrderedDict κ α → OrderedDict κ α
  | [] => []
  | p :: d => if size < (p :: d).length then evictTo size d else p :: d

lemma mem_of_get {d : OrderedDict κ α} {key : κ} {value : α} (h : d.get key = some value) :
    (key, value) ∈ d := by
  obtain ⟨p, hp, rfl⟩ := Option.map_eq_some_iff.mp h
  have hkey : p.1 = key := by simpa using List.find?_some hp
  exact hkey ▸ List.mem_of_find?_eq_some hp

lemma mem_moveToEnd {d : OrderedDict κ α} {key : κ} {p : κ × α} :
    p ∈ d.moveToEnd key ↔ p ∈ d := by
  simp only [moveToEnd, List.mem_append, List.mem_filter, decide_eq_true_eq]
  tauto

lemma mem_assign {d : OrderedDict κ α} {key : κ} {value : α} {p : κ × α}
    (h : p ∈ d.assign key value) : p = (key, value) ∨ p ∈ d := by
  unfold assign at h
  split at h
  · obtain ⟨q, hq, rfl⟩ := List.mem_map.mp h
    split
    · exact Or.inl rfl
    · exact Or.inr hq
  · simpa [or_comm] using h

omit [DecidableEq κ] in
lemma mem_of_mem_evictTo {size : ℕ} {p : κ × α} : ∀ {d : OrderedDict κ α},
    p ∈ evictTo size d → p ∈ d
  | [], h => h
  | q :: d, h => by
      rw [evictTo] at h
      split at h
      · exact List.mem_cons_of_mem _ (mem_of_mem_evictTo h)
      · exact h

/-! ## Every key stored once -/

section Nodup

variable {d : OrderedDict κ α} {key : κ} {value : α}

lemma map_fst_filter_ne (d : OrderedDict κ α) (key : κ) :
    (d.filter fun p => p.1 ≠ key).map Prod.fst = (d.map Prod.fst).filter (· ≠ key) := by
  rw [List.filter_map]
  rfl

/-- The pairs of a stored key are the one pair that holds it. -/
lemma filter_key (hnodup : (d.map Prod.fst).Nodup) (h : (key, value) ∈ d) :
    d.filter (fun p => p.1 = key) = [(key, value)] := by
  induction d with
  | nil => cases h
  | cons p d ih =>
    rw [List.map_cons, List.nodup_cons] at hnodup
    rcases List.mem_cons.mp h with rfl | hmem
    · have hrest : d.filter (fun p => p.1 = key) = [] := by
        refine List.filter_eq_nil_iff.mpr fun q hq hkey => hnodup.1 ?_
        exact List.mem_map.mpr ⟨q, hq, of_decide_eq_true hkey⟩
      rw [List.filter_cons_of_pos (by simp), hrest]
    · have hne : p.1 ≠ key := by
        rintro rfl
        exact hnodup.1 (List.mem_map.mpr ⟨_, hmem, rfl⟩)
      rw [List.filter_cons_of_neg (by simpa using hne), ih hnodup.2 hmem]

lemma get_of_mem (hnodup : (d.map Prod.fst).Nodup) (h : (key, value) ∈ d) :
    d.get key = some value := by
  rw [get, ← List.head?_filter, filter_key hnodup h]
  rfl

lemma get_isSome_iff : (d.get key).isSome = true ↔ key ∈ d.map Prod.fst := by
  rw [get, Option.isSome_map, List.find?_isSome]
  simp

/-- Moving a stored key. -/
lemma moveToEnd_of_get (hnodup : (d.map Prod.fst).Nodup) (h : d.get key = some value) :
    d.moveToEnd key = (d.filter fun p => p.1 ≠ key) ++ [(key, value)] := by
  rw [moveToEnd, filter_key hnodup (mem_of_get h)]

/-- Assigning and moving comes to the same for a new key and for an old one. -/
lemma moveToEnd_assign (hnodup : (d.map Prod.fst).Nodup) (key : κ) (value : α) :
    (d.assign key value).moveToEnd key = (d.filter fun p => p.1 ≠ key) ++ [(key, value)] := by
  rw [assign, moveToEnd]
  split
  · next hany =>
    obtain ⟨p, hp, hkey⟩ := List.any_eq_true.mp hany
    have hkeys : (d.map fun p => if p.1 = key then (key, value) else p).map Prod.fst =
        d.map Prod.fst := by
      rw [List.map_map]
      refine List.map_congr_left fun q _ => ?_
      by_cases hq : q.1 = key
      · simp [hq]
      · simp [hq]
    have hmem : (key, value) ∈ d.map fun p => if p.1 = key then (key, value) else p :=
      List.mem_map.mpr ⟨p, hp, if_pos (of_decide_eq_true hkey)⟩
    rw [filter_key (hkeys ▸ hnodup) hmem]
    congr 1
    rw [List.filter_map]
    have hsame : ∀ q ∈ d, (((fun p => decide (p.1 ≠ key)) ∘
        fun p => if p.1 = key then (key, value) else p) q) = decide (q.1 ≠ key) := by
      intro q _
      by_cases hq : q.1 = key
      · simp [hq]
      · simp [hq]
    rw [List.filter_congr hsame]
    refine (List.map_congr_left fun q hq => ?_).trans (List.map_id _)
    exact if_neg (by simpa using (List.mem_filter.mp hq).2)
  · next hany =>
    have hnone : d.filter (fun p => p.1 = key) = [] :=
      List.filter_eq_nil_iff.mpr fun q hq hkey => hany (List.any_eq_true.mpr ⟨q, hq, hkey⟩)
    rw [List.filter_append, List.filter_append, hnone]
    simp

omit [DecidableEq κ] in
/-- Eviction keeps the end of the dictionary. -/
lemma evictTo_eq_rtake (size : ℕ) : ∀ d : OrderedDict κ α, evictTo size d = d.rtake size
  | [] => (List.rtake_nil size).symm
  | p :: d => by
      rw [evictTo, List.rtake]
      split
      · next hlong =>
        have hcut : (p :: d).length - size = (d.length - size) + 1 := by
          rw [List.length_cons] at hlong ⊢
          omega
        rw [evictTo_eq_rtake size d, hcut, List.drop_succ_cons, List.rtake]
      · next hshort => rw [Nat.sub_eq_zero_of_le (not_lt.mp hshort), List.drop_zero]

end Nodup

/-! ## A function on the values -/

section MapValues

variable {β : Type} (f : α → β)

/-- The same keys with other values. -/
def mapValues (d : OrderedDict κ α) : OrderedDict κ β := d.map fun p => (p.1, f p.2)

lemma get_mapValues (d : OrderedDict κ α) (key : κ) :
    (d.mapValues f).get key = (d.get key).map f := by
  rw [get, get, mapValues, List.find?_map, Option.map_map, Option.map_map]
  rfl

lemma moveToEnd_mapValues (d : OrderedDict κ α) (key : κ) :
    (d.mapValues f).moveToEnd key = (d.moveToEnd key).mapValues f := by
  simp only [moveToEnd, mapValues, List.filter_map, List.map_append]
  rfl

lemma assign_mapValues (d : OrderedDict κ α) (key : κ) (value : α) :
    (d.mapValues f).assign key (f value) = (d.assign key value).mapValues f := by
  have hany : (d.mapValues f).any (fun p => p.1 = key) = d.any fun p => p.1 = key := by
    rw [mapValues, List.any_map]
    rfl
  rw [assign, assign, hany]
  split
  · rw [mapValues, mapValues, List.map_map, List.map_map]
    refine List.map_congr_left fun p _ => ?_
    by_cases hp : p.1 = key
    · simp [hp]
    · simp [hp]
  · simp [mapValues]

omit [DecidableEq κ] in
lemma evictTo_mapValues (size : ℕ) (d : OrderedDict κ α) :
    evictTo size (d.mapValues f) = (evictTo size d).mapValues f := by
  rw [evictTo_eq_rtake, evictTo_eq_rtake, List.rtake, List.rtake, mapValues, mapValues,
    List.length_map, List.map_drop]

end MapValues

end OrderedDict

end IssuesApi

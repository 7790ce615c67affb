import Mathlib.Data.List.Induction
import Mathlib.Data.List.Nodup

/-!
# First writer wins

Writers come one after the other, each with a key.  A writer wins when its key is not taken
and no earlier writer had the same key.  `winners` computes the winners of an order of
writers; `Wins` says what a winner is.

This is what a table with a primary key and an insert that ignores conflicts computes, and it
is stated here without any table.
-/

namespace IssuesApi

variable {ι κ : Type*} [DecidableEq κ] {key : ι → κ} {taken : List κ} {order : List ι} {i j : ι}

/-- The winners of an order of writers, in that order. -/
def winners (key : ι → κ) (taken : List κ) : List ι → List ι
  | [] => []
  | i :: order =>
    if key i ∈ taken then winners key taken order
    else i :: winners key (taken ++ [key i]) order

/-- The writer has a free key, and is the first in the order to have it. -/
def Wins (key : ι → κ) (taken : List κ) (order : List ι) (i : ι) : Prop :=
  key i ∉ taken ∧ ∃ before after, order = before ++ i :: after ∧ ∀ j ∈ before, key j ≠ key i

omit [DecidableEq κ] in
/-- Who wins does not depend on how keys are written. -/
lemma wins_comp_iff {κ' : Type*} {f : κ → κ'} (hf : Function.Injective f) :
    Wins (fun i => f (key i)) (taken.map f) order i ↔ Wins key taken order i := by
  simp only [Wins, List.mem_map_of_injective hf, hf.ne_iff]

/-- The winners keep their order. -/
lemma winners_sublist (key : ι → κ) (taken : List κ) (order : List ι) :
    (winners key taken order).Sublist order := by
  induction order generalizing taken with
  | nil => exact List.Sublist.refl []
  | cons i order ih =>
    rw [winners]
    split_ifs
    · exact (ih taken).cons i
    · exact (ih _).cons_cons i

/-- Writers of distinct free keys all win. -/
lemma winners_of_nodup {taken : List κ} (h : (taken ++ order.map key).Nodup) :
    winners key taken order = order := by
  induction order generalizing taken with
  | nil => rfl
  | cons i order ih =>
    have hfree : key i ∉ taken := fun hmem =>
      (List.nodup_append.mp h).2.2 _ hmem _ (by simp) rfl
    rw [winners, if_neg hfree, ih (by simpa using h)]

/-- One more writer wins when its key is still free. -/
lemma winners_append_singleton (key : ι → κ) (taken : List κ) (order : List ι) (i : ι) :
    winners key taken (order ++ [i]) =
      winners key taken order ++ if key i ∈ taken ∨ key i ∈ order.map key then [] else [i] := by
  induction order generalizing taken with
  | nil => simp [winners]
  | cons j order ih =>
    by_cases hj : key j ∈ taken
    · have hiff : key i ∈ taken ∨ key i ∈ order.map key ↔
          key i ∈ taken ∨ key i ∈ (j :: order).map key := by
        simp only [List.map_cons, List.mem_cons]
        constructor
        · rintro (h | h) <;> simp [h]
        · rintro (h | h | h)
          · exact Or.inl h
          · exact Or.inl (h ▸ hj)
          · exact Or.inr h
      simp only [List.cons_append, winners, if_pos hj, ih, hiff]
    · simp only [List.cons_append, winners, if_neg hj, ih, List.mem_append, List.map_cons,
        List.mem_cons, List.not_mem_nil, or_false, or_assoc]

/-- Later writers win as they would alone, but for the keys that the earlier ones have. -/
lemma winners_append (key : ι → κ) (taken : List κ) (first later : List ι) :
    winners key taken (first ++ later) =
      winners key taken first ++
        (winners key taken later).filter fun i => key i ∉ first.map key := by
  induction later using List.reverseRecOn with
  | nil => simp [winners]
  | append_singleton later j ih =>
    have hkeys : key j ∈ taken ∨ key j ∈ (first ++ later).map key ↔
        (key j ∈ taken ∨ key j ∈ later.map key) ∨ key j ∈ first.map key := by
      rw [List.map_append, List.mem_append]
      tauto
    rw [← List.append_assoc, winners_append_singleton, winners_append_singleton, ih,
      List.filter_append, List.append_assoc, if_congr hkeys rfl rfl]
    by_cases htaken : key j ∈ taken ∨ key j ∈ later.map key
    · rw [if_pos (Or.inl htaken), if_pos htaken, List.filter_nil]
    · by_cases hfirst : key j ∈ first.map key
      · rw [if_pos (Or.inr hfirst), if_neg htaken, List.filter_singleton]
        simp [hfirst]
      · rw [if_neg (not_or.mpr ⟨htaken, hfirst⟩), if_neg htaken, List.filter_singleton]
        simp [hfirst]

/-- The winners are those who win. -/
lemma mem_winners : i ∈ winners key taken order ↔ Wins key taken order i := by
  induction order using List.reverseRecOn generalizing i with
  | nil => simp [winners, Wins]
  | append_singleton order j ih =>
    rw [winners_append_singleton, List.mem_append, ih]
    constructor
    · rintro (⟨hfree, before, after, rfl, hbefore⟩ | h)
      · exact ⟨hfree, before, after ++ [j], by simp, hbefore⟩
      · split_ifs at h with htaken
        · simp at h
        · obtain rfl := List.mem_singleton.mp h
          rw [not_or] at htaken
          refine ⟨htaken.1, order, [], rfl, fun k hk hkey => htaken.2 ?_⟩
          exact hkey ▸ List.mem_map_of_mem hk
    · rintro ⟨hfree, before, after, heq, hbefore⟩
      rcases List.eq_nil_or_concat' after with rfl | ⟨after, k, rfl⟩
      · obtain ⟨rfl, rfl⟩ := List.append_singleton_inj.mp heq
        right
        rw [if_neg]
        · exact List.mem_singleton_self _
        · rintro (h | h)
          · exact hfree h
          · obtain ⟨k, hk, hkey⟩ := List.mem_map.mp h
            exact hbefore k hk hkey
      · rw [← List.cons_append, ← List.append_assoc] at heq
        obtain ⟨rfl, rfl⟩ := List.append_singleton_inj.mp heq
        exact Or.inl ⟨hfree, before, after, rfl, hbefore⟩

/-- The keys that are won are the free ones some writer has. -/
lemma mem_map_winners {k : κ} :
    k ∈ (winners key taken order).map key ↔ k ∉ taken ∧ k ∈ order.map key := by
  induction order using List.reverseRecOn with
  | nil => simp [winners]
  | append_singleton order j ih =>
    rw [winners_append_singleton, List.map_append, List.mem_append, ih, List.map_append,
      List.mem_append]
    split_ifs with h
    · simp only [List.map_nil, List.not_mem_nil, or_false, List.map_cons, List.mem_cons]
      constructor
      · rintro ⟨hfree, hk⟩
        exact ⟨hfree, Or.inl hk⟩
      · rintro ⟨hfree, hk | rfl⟩
        · exact ⟨hfree, hk⟩
        · exact ⟨hfree, h.resolve_left hfree⟩
    · rw [not_or] at h
      simp only [List.map_cons, List.map_nil, List.mem_singleton]
      constructor
      · rintro (⟨hfree, hk⟩ | rfl)
        · exact ⟨hfree, Or.inl hk⟩
        · exact ⟨h.1, Or.inr rfl⟩
      · rintro ⟨hfree, hk | rfl⟩
        · exact Or.inl ⟨hfree, hk⟩
        · exact Or.inr rfl

/-- No key is won twice. -/
lemma nodup_map_winners (key : ι → κ) (taken : List κ) (order : List ι) :
    ((winners key taken order).map key).Nodup := by
  induction order using List.reverseRecOn with
  | nil => exact List.nodup_nil
  | append_singleton order j ih =>
    rw [winners_append_singleton, List.map_append]
    split_ifs with h
    · simpa using ih
    · rw [List.map_singleton, List.nodup_append]
      refine ⟨ih, List.nodup_singleton _, ?_⟩
      rintro k hk _ hj rfl
      obtain rfl := List.mem_singleton.mp hj
      exact h (Or.inr (mem_map_winners.mp hk).2)

end IssuesApi

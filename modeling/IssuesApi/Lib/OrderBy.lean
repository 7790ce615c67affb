import Mathlib.Data.List.Sort
import Mathlib.Data.Prod.Lex

/-!
# Ordered and limited queries

`SELECT … ORDER BY key DESC, rowid DESC LIMIT n` on a table given as the list of its rows in
rowid order.  `ranked` keeps the rowid beside each row, so that ties can be spoken about.  Its
specification is `ranked_perm` with `ranked_pairwise`, and `eq_ranked` says that nothing else
meets it; the remaining lemmas follow from that.
-/

namespace IssuesApi

variable {α β κ ν : Type} [LinearOrder κ] [LinearOrder ν]

/-- What a row with its rowid is sorted by. -/
def rankKey (key : α → κ) (r : α × ℕ) : κ ×ₗ ℕ := toLex (key r.1, r.2)

/-- The rows with their rowids, the greatest key first, and the greatest rowid first among
equal keys. -/
def ranked (key : α → κ) (table : List α) : List (α × ℕ) :=
  table.zipIdx.insertionSort fun r s => rankKey key s ≤ rankKey key r

/-- `ORDER BY key DESC, rowid DESC`. -/
def orderByDesc (key : α → κ) (table : List α) : List α := (ranked key table).map Prod.fst

/-- `LIMIT n`; a negative limit is no limit. -/
def limitTo (n : ℤ) (rows : List α) : List α := if n < 0 then rows else rows.take n.toNat

/-- The order of the answer: by decreasing key, and by decreasing rowid among equal keys. -/
def Precedes (key : α → κ) (r s : α × ℕ) : Prop :=
  key s.1 < key r.1 ∨ key r.1 = key s.1 ∧ s.2 < r.2

lemma precedes_iff {key : α → κ} {r s : α × ℕ} :
    Precedes key r s ↔ rankKey key s < rankKey key r := by
  rw [Precedes, rankKey, rankKey, Prod.Lex.toLex_lt_toLex]
  exact or_congr Iff.rfl (and_congr eq_comm Iff.rfl)

lemma nodup_rowids (table : List α) : (table.zipIdx.map Prod.snd).Nodup := by
  rw [List.zipIdx_map_snd]
  exact List.nodup_range' ..

/-- The answer holds every row once. -/
lemma ranked_perm (key : α → κ) (table : List α) : (ranked key table).Perm table.zipIdx :=
  List.perm_insertionSort ..

/-- **The answer is sorted.** -/
theorem ranked_pairwise (key : α → κ) (table : List α) :
    (ranked key table).Pairwise (Precedes key) := by
  have htotal : Std.Total fun r s : α × ℕ => rankKey key s ≤ rankKey key r :=
    ⟨fun r s => le_total _ _⟩
  have htrans : IsTrans (α × ℕ) fun r s => rankKey key s ≤ rankKey key r :=
    ⟨fun _ _ _ h₁ h₂ => h₂.trans h₁⟩
  have hsorted := List.pairwise_insertionSort
    (fun r s : α × ℕ => rankKey key s ≤ rankKey key r) table.zipIdx
  have hdistinct : ((ranked key table).map Prod.snd).Nodup :=
    ((ranked_perm key table).map Prod.snd).nodup_iff.mpr (nodup_rowids table)
  refine (hsorted.and (List.pairwise_map.mp hdistinct)).imp ?_
  rintro r s ⟨hle, hne⟩
  rw [precedes_iff]
  refine lt_of_le_of_ne hle fun heq => hne ?_
  have hpair : (key s.1, s.2) = (key r.1, r.2) := toLex.injective heq
  exact (congrArg Prod.snd hpair).symm

/-- The specification has one solution. -/
lemma eq_ranked {key : α → κ} {table : List α} {l : List (α × ℕ)} (hperm : l.Perm table.zipIdx)
    (hsorted : l.Pairwise (Precedes key)) : l = ranked key table := by
  refine List.Perm.eq_of_pairwise ?_ hsorted (ranked_pairwise key table)
    (hperm.trans (ranked_perm key table).symm)
  intro r s _ _ hrs hsr
  exact absurd (precedes_iff.mp hrs) (precedes_iff.mp hsr).not_gt

/-- Only the order of the keys matters. -/
lemma ranked_congr {key : α → κ} {key' : α → ν} {table : List α}
    (h : ∀ a ∈ table, ∀ b ∈ table, key a < key b ↔ key' a < key' b) :
    ranked key table = ranked key' table := by
  apply eq_ranked (ranked_perm key table)
  refine (ranked_pairwise key table).imp_of_mem ?_
  intro r s hr hs hrs
  have hmem : ∀ r ∈ ranked key table, r.1 ∈ table := fun r hr =>
    List.fst_mem_of_mem_zipIdx ((ranked_perm key table).subset hr)
  have hlt := h _ (hmem s hs) _ (hmem r hr)
  have hgt := h _ (hmem r hr) _ (hmem s hs)
  rcases hrs with hkey | ⟨hkey, hid⟩
  · exact Or.inl (hlt.mp hkey)
  · refine Or.inr ⟨le_antisymm ?_ ?_, hid⟩
    · exact not_lt.mp fun hlt' => (hlt.mpr hlt').ne' hkey
    · exact not_lt.mp fun hgt' => (hgt.mpr hgt').ne hkey

/-- Columns that are not sorted by are carried along. -/
lemma ranked_map (key : β → κ) (f : α → β) (table : List α) :
    ranked key (table.map f) = (ranked (fun a => key (f a)) table).map (Prod.map f id) := by
  symm
  apply eq_ranked
  · rw [List.zipIdx_map]
    exact (ranked_perm _ table).map _
  · exact List.pairwise_map.mpr (ranked_pairwise (fun a => key (f a)) table)

/-- A table whose keys never decrease is read backwards. -/
lemma ranked_of_monotone {key : α → κ} {table : List α}
    (h : table.Pairwise fun a b => key a ≤ key b) : ranked key table = table.zipIdx.reverse := by
  symm
  apply eq_ranked (List.reverse_perm _)
  rw [List.pairwise_reverse]
  have hids : table.zipIdx.Pairwise fun r s => r.2 < s.2 := by
    rw [← List.pairwise_map, List.zipIdx_map_snd]
    exact List.pairwise_lt_range' ..
  have hkeys : table.zipIdx.Pairwise fun r s => key r.1 ≤ key s.1 := by
    have hfst : (table.zipIdx.map Prod.fst).Pairwise fun a b => key a ≤ key b := by
      rwa [List.zipIdx_map_fst]
    rw [List.pairwise_map] at hfst
    exact hfst
  refine (hids.and hkeys).imp ?_
  rintro r s ⟨hid, hkey⟩
  rcases hkey.lt_or_eq with hlt | heq
  · exact Or.inl hlt
  · exact Or.inr ⟨heq.symm, hid⟩

/-- In a sorted list, the first `n` are those that fewer than `n` come before. -/
lemma mem_take_iff_of_pairwise {r : α → α → Prop} [DecidableRel r]
    (hasymm : ∀ a b, r a b → ¬ r b a) {l : List α} (hsorted : l.Pairwise r) {a : α} {n : ℕ} :
    a ∈ l.take n ↔ a ∈ l ∧ l.countP (fun b => r b a) < n := by
  induction l generalizing n with
  | nil => simp
  | cons b l ih =>
    obtain ⟨hhead, htail⟩ := List.pairwise_cons.mp hsorted
    cases n with
    | zero => simp
    | succ n =>
      rw [List.take_succ_cons, List.mem_cons, List.mem_cons, ih htail, List.countP_cons]
      by_cases hab : a = b
      · -- nothing comes before the head
        subst hab
        have hzero : l.countP (fun c => r c a) = 0 :=
          List.countP_eq_zero.mpr fun c hc => by simpa using hasymm a c (hhead c hc)
        have hself : ¬ r a a := fun h => hasymm a a h h
        simp [hzero, hself]
      · by_cases hmem : a ∈ l
        · simp [hab, hmem, hhead a hmem]
        · simp [hab, hmem]

instance (key : α → κ) (r s : α × ℕ) : Decidable (Precedes key r s) := by
  unfold Precedes
  infer_instance

/-- A row is among the first `n` exactly when fewer than `n` rows come before it. -/
theorem mem_take_ranked_iff {key : α → κ} {table : List α} {r : α × ℕ} {n : ℕ} :
    r ∈ (ranked key table).take n ↔
      r ∈ table.zipIdx ∧ table.zipIdx.countP (fun s => Precedes key s r) < n := by
  have hasymm : ∀ r s : α × ℕ, Precedes key r s → ¬ Precedes key s r := by
    intro r s h
    rw [precedes_iff] at h ⊢
    exact h.not_gt
  have hperm := ranked_perm key table
  rw [mem_take_iff_of_pairwise hasymm (ranked_pairwise key table), hperm.mem_iff,
    hperm.countP_eq]

lemma orderByDesc_perm (key : α → κ) (table : List α) : (orderByDesc key table).Perm table := by
  have h := (ranked_perm key table).map Prod.fst
  rwa [List.zipIdx_map_fst] at h

@[simp] lemma length_orderByDesc (key : α → κ) (table : List α) :
    (orderByDesc key table).length = table.length :=
  (orderByDesc_perm key table).length_eq

lemma limitTo_of_nonneg {n : ℤ} (h : 0 ≤ n) (rows : List α) :
    limitTo n rows = rows.take n.toNat := if_neg (by omega)

lemma limitTo_of_neg {n : ℤ} (h : n < 0) (rows : List α) : limitTo n rows = rows := if_pos h

/-- What a limited listing shows: the rows that fewer than the limit come before. -/
theorem mem_limitTo_orderByDesc_iff {key : α → κ} {table : List α} {a : α} {n : ℤ} :
    a ∈ limitTo n (orderByDesc key table) ↔
      ∃ i, (a, i) ∈ table.zipIdx ∧
        (n < 0 ∨ (table.zipIdx.countP (fun s => Precedes key s (a, i)) : ℤ) < n) := by
  by_cases hn : n < 0
  · rw [limitTo_of_neg hn, (orderByDesc_perm key table).mem_iff]
    simp only [hn, true_or, and_true]
    constructor
    · intro ha
      obtain ⟨i, hi, rfl⟩ := List.mem_iff_getElem.mp ha
      exact ⟨i, List.mem_zipIdx_iff_getElem?.mpr (List.getElem?_eq_getElem hi)⟩
    · rintro ⟨i, hi⟩
      exact List.fst_mem_of_mem_zipIdx hi
  · rw [limitTo_of_nonneg (not_lt.mp hn), orderByDesc, ← List.map_take, List.mem_map]
    simp only [hn, false_or]
    constructor
    · rintro ⟨⟨b, i⟩, hmem, rfl⟩
      obtain ⟨hrow, hcount⟩ := mem_take_ranked_iff.mp hmem
      exact ⟨i, hrow, Int.lt_toNat.mp hcount⟩
    · rintro ⟨i, hrow, hcount⟩
      exact ⟨(a, i), mem_take_ranked_iff.mpr ⟨hrow, Int.lt_toNat.mpr hcount⟩, rfl⟩

lemma mem_of_mem_limitTo {n : ℤ} {rows : List α} {a : α} (h : a ∈ limitTo n rows) :
    a ∈ rows := by
  unfold limitTo at h
  split at h
  · exact h
  · exact List.mem_of_mem_take h

end IssuesApi

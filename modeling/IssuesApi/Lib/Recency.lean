import Mathlib.Data.List.Dedup
import Mathlib.Data.List.DropRight

/-!
# Least recently used

What a bounded map that forgets the least recently used key has to hold, told from the history
of its calls alone.  A key is used when it is set, and when it is looked up and found; the map
holds the keys whose last use is the latest, each with the value it was last given.

`mostRecent_append_singleton` is the step: one more use changes the keys without looking at the
history before them.
-/

namespace IssuesApi

/-- A call on a map, with what it returned. -/
inductive Access (κ α : Type*) where
  | get (key : κ) (result : Option α)
  | set (key : κ) (value : α)
  | clear

variable {κ α : Type*} [DecidableEq κ] {history : List (Access κ α)} {size : ℕ} {key : κ}

/-! ## The history -/

/-- The key a call uses: looking up what is not there uses nothing. -/
def Access.used : Access κ α → Option κ
  | .get key (some _) => some key
  | .get _ none => none
  | .set key _ => some key
  | .clear => none

/-- The value a call gives to a key. -/
def Access.given (key : κ) : Access κ α → Option α
  | .set other value => if other = key then some value else none
  | _ => none

def Access.isClear : Access κ α → Bool
  | .clear => true
  | _ => false

/-- The calls since the map was last cleared. -/
def sinceClear (history : List (Access κ α)) : List (Access κ α) :=
  history.rtakeWhile fun call => !call.isClear

/-- The keys in the order of their uses. -/
def usesOf (history : List (Access κ α)) : List κ := history.filterMap Access.used

/-- The value the key was last given. -/
def latestSet (history : List (Access κ α)) (key : κ) : Option α :=
  (history.filterMap (Access.given key)).getLast?

omit [DecidableEq κ] in
lemma sinceClear_append_clear (history : List (Access κ α)) :
    sinceClear (history ++ [.clear]) = [] :=
  List.rtakeWhile_concat_neg _ _ _ (by simp [Access.isClear])

omit [DecidableEq κ] in
lemma sinceClear_append {call : Access κ α} (h : call.isClear = false) :
    sinceClear (history ++ [call]) = sinceClear history ++ [call] :=
  List.rtakeWhile_concat_pos _ _ _ (by simp [h])

omit [DecidableEq κ] in
lemma usesOf_append (history : List (Access κ α)) (call : Access κ α) :
    usesOf (history ++ [call]) = usesOf history ++ call.used.toList := by
  rw [usesOf, List.filterMap_append, ← usesOf]
  cases hused : call.used <;> simp [hused]

/-- A call that gives the key nothing leaves its value. -/
lemma latestSet_append_of_none {call : Access κ α} (h : call.given key = none) :
    latestSet (history ++ [call]) key = latestSet history key := by
  simp [latestSet, h]

lemma latestSet_append_of_some {call : Access κ α} {value : α} (h : call.given key = some value) :
    latestSet (history ++ [call]) key = some value := by
  simp [latestSet, h]

/-! ## The most recent keys -/

/-- The `size` distinct keys whose last use is the latest, in the order of their last uses. -/
def mostRecent (size : ℕ) (uses : List κ) : List κ := uses.dedup.rtake size

@[simp] lemma mostRecent_nil (size : ℕ) : mostRecent size ([] : List κ) = [] := List.rtake_nil size

omit [DecidableEq κ] in
lemma rtake_of_length_le {l : List κ} (h : l.length ≤ size) : l.rtake size = l := by
  rw [List.rtake, Nat.sub_eq_zero_of_le h, List.drop_zero]

omit [DecidableEq κ] in
lemma length_rtake (l : List κ) : (l.rtake size).length = min size l.length := by
  rw [List.rtake, List.length_drop]
  omega

omit [DecidableEq κ] in
/-- What stands before enough elements is out of reach. -/
lemma rtake_append_of_le {l l' : List κ} (h : size ≤ l'.length) :
    (l ++ l').rtake size = l'.rtake size := by
  have hfar : (l ++ l').length - size = l.length + (l'.length - size) := by
    rw [List.length_append]
    omega
  rw [List.rtake, hfar, List.drop_length_add_append, List.rtake]

lemma nodup_mostRecent (size : ℕ) (uses : List κ) : (mostRecent size uses).Nodup :=
  ((List.drop_sublist _ _).nodup (List.nodup_dedup uses))

lemma length_mostRecent_le (size : ℕ) (uses : List κ) : (mostRecent size uses).length ≤ size := by
  rw [mostRecent, length_rtake]
  exact Nat.min_le_left ..

/-- The last use decides: one more moves the key to the end. -/
lemma dedup_append_singleton (uses : List κ) (key : κ) :
    (uses ++ [key]).dedup = uses.dedup.filter (· ≠ key) ++ [key] := by
  induction uses with
  | nil => simp
  | cons use uses ih =>
    rw [List.cons_append]
    by_cases hmem : use ∈ uses
    · rw [List.dedup_cons_of_mem (List.mem_append_left _ hmem), ih, List.dedup_cons_of_mem hmem]
    · rw [List.dedup_cons_of_notMem hmem]
      by_cases hkey : use = key
      · rw [hkey, List.dedup_cons_of_mem (by simp), ih, List.filter_cons_of_neg (by simp)]
      · rw [List.dedup_cons_of_notMem (by simp [hmem, hkey]), ih,
          List.filter_cons_of_pos (by simpa using hkey), List.cons_append]

/-- Filtering one key out of a list without repetitions takes out one element at most. -/
lemma length_filter_ne {keys : List κ} (h : keys.Nodup) (key : κ) :
    (keys.filter (· ≠ key)).length = if key ∈ keys then keys.length - 1 else keys.length := by
  have herase : keys.filter (· ≠ key) = keys.erase key := by
    rw [h.erase_eq_filter]
    exact List.filter_congr fun other _ => (Bool.beq_eq_decide_eq other key ▸ decide_not :)
  rw [herase, List.length_erase]

/-- **One more use.**  The key comes last; of the others, those are kept that fit. -/
theorem mostRecent_append_singleton (size : ℕ) (uses : List κ) (key : κ) :
    mostRecent (size + 1) (uses ++ [key]) =
      ((mostRecent (size + 1) uses).filter (· ≠ key)).rtake size ++ [key] := by
  rw [mostRecent, dedup_append_singleton, List.rtake_concat_succ, mostRecent]
  congr 1
  by_cases hfits : uses.dedup.length ≤ size + 1
  · rw [rtake_of_length_le hfits]
  · -- the keys already forgotten are still too old when one of the others moves to the end
    have hsplit : uses.dedup = uses.dedup.rdrop (size + 1) ++ uses.dedup.rtake (size + 1) := by
      rw [List.rdrop, List.rtake, List.take_append_drop]
    have hlength : (uses.dedup.rtake (size + 1)).length = size + 1 := by
      rw [length_rtake]
      omega
    have hlong : size ≤ ((uses.dedup.rtake (size + 1)).filter (· ≠ key)).length := by
      have hnodup : (uses.dedup.rtake (size + 1)).Nodup := nodup_mostRecent (size + 1) uses
      rw [length_filter_ne hnodup, hlength]
      split <;> omega
    conv_lhs => rw [hsplit, List.filter_append]
    rw [rtake_append_of_le hlong]

/-- A use of a key that is there forgets no other. -/
lemma mostRecent_append_of_mem {uses : List κ} (h : key ∈ mostRecent (size + 1) uses) :
    mostRecent (size + 1) (uses ++ [key]) =
      (mostRecent (size + 1) uses).filter (· ≠ key) ++ [key] := by
  rw [mostRecent_append_singleton, rtake_of_length_le]
  have hlength := length_mostRecent_le (size + 1) uses
  rw [length_filter_ne (nodup_mostRecent (size + 1) uses), if_pos h]
  omega

/-- Using the latest key again changes nothing. -/
lemma mostRecent_append_self (size : ℕ) (uses : List κ) (key : κ) :
    mostRecent size (uses ++ [key] ++ [key]) = mostRecent size (uses ++ [key]) := by
  rw [mostRecent, mostRecent, dedup_append_singleton, dedup_append_singleton, List.filter_append,
    List.filter_filter]
  simp

/-- A key is among the most recent when fewer than `size` others were used after it. -/
theorem mem_mostRecent_iff {uses : List κ} :
    key ∈ mostRecent size uses ↔
      ∃ before after, uses = before ++ key :: after ∧ key ∉ after ∧ after.dedup.length < size := by
  have hcut : ∀ {before after : List κ}, key ∉ after →
      (key ∈ mostRecent size (before ++ key :: after) ↔ after.dedup.length < size) := by
    intro before after hlast
    obtain ⟨older, holder⟩ : key :: after.dedup <:+ before ∪ (key :: after.dedup) :=
      List.suffix_union_right ..
    rw [mostRecent, List.dedup_append, List.dedup_cons_of_notMem hlast, ← holder]
    by_cases hfits : after.dedup.length < size
    · refine iff_of_true ?_ hfits
      have hfar : (older ++ key :: after.dedup).length - size ≤ older.length := by
        rw [List.length_append, List.length_cons]
        omega
      rw [List.rtake, List.drop_append_of_le_length hfar]
      simp
    · refine iff_of_false ?_ hfits
      rw [← List.singleton_append, ← List.append_assoc, rtake_append_of_le (by omega)]
      exact fun hmem => hlast (List.mem_dedup.mp (List.mem_of_mem_drop hmem))
  constructor
  · intro hmem
    have huses : key ∈ uses.reverse :=
      List.mem_reverse.mpr (List.mem_dedup.mp (List.mem_of_mem_drop hmem))
    obtain ⟨after, before, hreverse, hlast⟩ := List.eq_append_cons_of_mem huses
    have heq : uses = before.reverse ++ key :: after.reverse := by
      rw [← List.reverse_reverse uses, hreverse]
      simp
    have hnew : key ∉ after.reverse := fun hmem => hlast (List.mem_reverse.mp hmem)
    rw [heq] at hmem
    exact ⟨_, _, heq, hnew, (hcut hnew).mp hmem⟩
  · rintro ⟨before, after, rfl, hlast, hfew⟩
    exact (hcut hlast).mpr hfew

end IssuesApi

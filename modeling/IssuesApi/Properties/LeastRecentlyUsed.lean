import IssuesApi.Cache
import IssuesApi.Lib.Recency
import IssuesApi.Lib.Transition

/-!
# The response cache is a bounded LRU map

`ResponseCache` keeps an ordered dictionary and moves keys to its end; the loop of `set` pops
from the front.  Against it stands the map that is computed from the history of calls since the
last `clear`: it holds the most recently used keys, each with the entry it was last given.

Both sides change in the same way under every call, a lookup that finds nothing included, so
after any sequence of calls the cache is that map.
-/

namespace IssuesApi

/-- One call on the cache. -/
def cacheStep (cache : ResponseCache) : Access CacheKey CachedList → ResponseCache → Prop
  | .get key result, cache' => cache.get key = (result, cache')
  | .set key entry, cache' => cache' = cache.set key entry
  | .clear, cache' => cache' = cache.clear

/-- The stored keys, the next to be evicted first. -/
def ResponseCache.storedKeys (cache : ResponseCache) : List CacheKey := cache.entries.map Prod.fst

/-- The cache holds what its history asks for. -/
structure HoldsRecent (maxEntries : ℕ) (history : List (Access CacheKey CachedList))
    (cache : ResponseCache) : Prop where
  limit : cache.maxEntries = maxEntries
  keys : cache.storedKeys = mostRecent maxEntries (usesOf (sinceClear history))
  latest : ∀ p ∈ cache.entries, latestSet (sinceClear history) p.1 = some p.2

namespace ResponseCache

variable {cache : ResponseCache} {key : CacheKey} {entry : CachedList}

lemma get_of_none (h : cache.entries.get key = none) : cache.get key = (none, cache) := by
  rw [get, h]

/-- A lookup that finds an entry moves its key to the end. -/
lemma get_of_some (hnodup : cache.storedKeys.Nodup) (h : cache.entries.get key = some entry) :
    cache.get key = (some entry, { cache with
      entries := (cache.entries.filter fun p => p.1 ≠ key) ++ [(key, entry)] }) := by
  rw [get, h, ← OrderedDict.moveToEnd_of_get hnodup h]

/-- A lookup finds what is stored. -/
lemma get_fst (cache : ResponseCache) (key : CacheKey) :
    (cache.get key).1 = cache.entries.get key := by
  unfold get
  split
  · next h => exact h.symm
  · next h => exact h.symm

/-- Setting a key puts it last, after those of the other entries that fit. -/
lemma set_entries (hnodup : cache.storedKeys.Nodup) {size : ℕ}
    (hlimit : cache.maxEntries = size + 1) (key : CacheKey) (entry : CachedList) :
    (cache.set key entry).entries =
      (cache.entries.filter fun p => p.1 ≠ key).rtake size ++ [(key, entry)] := by
  show ((cache.entries.assign key entry).moveToEnd key).evictTo cache.maxEntries = _
  rw [OrderedDict.moveToEnd_assign hnodup, OrderedDict.evictTo_eq_rtake, hlimit,
    List.rtake_concat_succ]

lemma storedKeys_set (hnodup : cache.storedKeys.Nodup) {size : ℕ}
    (hlimit : cache.maxEntries = size + 1) (key : CacheKey) (entry : CachedList) :
    (cache.set key entry).storedKeys =
      (cache.storedKeys.filter (· ≠ key)).rtake size ++ [key] := by
  rw [storedKeys, set_entries hnodup hlimit, List.map_append, List.rtake, List.map_drop,
    OrderedDict.map_fst_filter_ne, ← List.length_map (f := Prod.fst),
    OrderedDict.map_fst_filter_ne]
  rfl

end ResponseCache

namespace HoldsRecent

variable {size : ℕ} {history : List (Access CacheKey CachedList)} {cache : ResponseCache}
  {key : CacheKey}

lemma nodup {maxEntries : ℕ} (h : HoldsRecent maxEntries history cache) :
    cache.storedKeys.Nodup := by
  rw [h.keys]
  exact nodup_mostRecent _ _

lemma length_le {maxEntries : ℕ} (h : HoldsRecent maxEntries history cache) :
    cache.storedKeys.length ≤ maxEntries := by
  rw [h.keys]
  exact length_mostRecent_le _ _

lemma start (hpos : 1 ≤ size + 1) : HoldsRecent (size + 1) [] (.new (size + 1) hpos) :=
  ⟨rfl, (mostRecent_nil (size + 1)).symm, fun _ hp => absurd hp List.not_mem_nil⟩

/-- A lookup that finds nothing changes neither side. -/
lemma miss (h : HoldsRecent (size + 1) history cache) (key : CacheKey) :
    HoldsRecent (size + 1) (history ++ [.get key none]) cache := by
  have hsince : sinceClear (history ++ [.get key none]) = sinceClear history ++ [.get key none] :=
    sinceClear_append rfl
  refine ⟨h.limit, ?_, fun p hp => ?_⟩
  · rw [h.keys, hsince, usesOf_append]
    exact congrArg _ (List.append_nil _).symm
  · rw [hsince, latestSet_append_of_none rfl]
    exact h.latest p hp

/-- A lookup that finds an entry is a use of its key. -/
lemma hit (h : HoldsRecent (size + 1) history cache) {entry : CachedList}
    (hget : cache.entries.get key = some entry) :
    HoldsRecent (size + 1) (history ++ [.get key (some entry)]) (cache.get key).2 := by
  have hsince : sinceClear (history ++ [.get key (some entry)]) =
      sinceClear history ++ [.get key (some entry)] := sinceClear_append rfl
  have hstored : key ∈ mostRecent (size + 1) (usesOf (sinceClear history)) := by
    rw [← h.keys]
    exact OrderedDict.get_isSome_iff.mp (by rw [hget]; rfl)
  rw [ResponseCache.get_of_some h.nodup hget]
  refine ⟨h.limit, ?_, fun p hp => ?_⟩
  · have huses : usesOf (sinceClear history ++ [.get key (some entry)]) =
        usesOf (sinceClear history) ++ [key] := usesOf_append _ _
    rw [hsince, huses, mostRecent_append_of_mem hstored, ← h.keys, ResponseCache.storedKeys,
      List.map_append, OrderedDict.map_fst_filter_ne]
    rfl
  · rw [hsince, latestSet_append_of_none rfl]
    rcases List.mem_append.mp hp with hold | hnew
    · exact h.latest p (List.mem_of_mem_filter hold)
    · obtain rfl := List.mem_singleton.mp hnew
      exact h.latest _ (OrderedDict.mem_of_get hget)

/-- Setting a key is a use of it, and gives it its entry. -/
lemma set (h : HoldsRecent (size + 1) history cache) (key : CacheKey) (entry : CachedList) :
    HoldsRecent (size + 1) (history ++ [.set key entry]) (cache.set key entry) := by
  have hsince : sinceClear (history ++ [.set key entry]) =
      sinceClear history ++ [.set key entry] := sinceClear_append rfl
  refine ⟨h.limit, ?_, fun p hp => ?_⟩
  · have huses : usesOf (sinceClear history ++ [.set key entry]) =
        usesOf (sinceClear history) ++ [key] := usesOf_append _ _
    rw [ResponseCache.storedKeys_set h.nodup h.limit, hsince, huses, mostRecent_append_singleton,
      h.keys]
  · rw [ResponseCache.set_entries h.nodup h.limit] at hp
    rw [hsince]
    rcases List.mem_append.mp hp with hold | hnew
    · have hfilter := List.mem_filter.mp (List.mem_of_mem_drop hold)
      have hother : key ≠ p.1 := fun heq => of_decide_eq_true hfilter.2 heq.symm
      have hnone : Access.given p.1 (.set key entry) = none := if_neg hother
      rw [latestSet_append_of_none hnone]
      exact h.latest p hfilter.1
    · obtain rfl := List.mem_singleton.mp hnew
      exact latestSet_append_of_some (if_pos rfl)

lemma clear (h : HoldsRecent (size + 1) history cache) :
    HoldsRecent (size + 1) (history ++ [.clear]) cache.clear := by
  refine ⟨h.limit, ?_, fun p hp => absurd hp List.not_mem_nil⟩
  rw [sinceClear_append_clear]
  exact (mostRecent_nil (size + 1)).symm

/-- One call keeps the two sides together. -/
lemma step (h : HoldsRecent (size + 1) history cache) {call : Access CacheKey CachedList}
    {cache' : ResponseCache} (hstep : cacheStep cache call cache') :
    HoldsRecent (size + 1) (history ++ [call]) cache' := by
  cases call with
  | get key result =>
    cases hget : cache.entries.get key with
    | none =>
      obtain ⟨rfl, rfl⟩ := Prod.mk.inj ((ResponseCache.get_of_none hget).symm.trans hstep)
      exact h.miss key
    | some entry =>
      have hresult : result = some entry := by
        rw [← hget, ← ResponseCache.get_fst, hstep]
      have hcache : cache' = (cache.get key).2 := by rw [hstep]
      subst hresult hcache
      exact h.hit hget
  | set key entry =>
    obtain rfl : cache' = cache.set key entry := hstep
    exact h.set key entry
  | clear =>
    obtain rfl : cache' = cache.clear := hstep
    exact h.clear

/-- A lookup answers from the history. -/
lemma get_of_mem {maxEntries : ℕ} (h : HoldsRecent maxEntries history cache)
    (hmem : key ∈ mostRecent maxEntries (usesOf (sinceClear history))) :
    ∃ entry, latestSet (sinceClear history) key = some entry ∧
      (key, entry) ∈ cache.entries ∧ (cache.get key).1 = some entry := by
  rw [← h.keys] at hmem
  obtain ⟨p, hp, rfl⟩ := List.mem_map.mp hmem
  refine ⟨p.2, h.latest p hp, hp, ?_⟩
  rw [ResponseCache.get_fst]
  exact OrderedDict.get_of_mem h.nodup hp

lemma get_of_not_mem {maxEntries : ℕ} (h : HoldsRecent maxEntries history cache)
    (hmem : key ∉ mostRecent maxEntries (usesOf (sinceClear history))) :
    (cache.get key).1 = none := by
  rw [ResponseCache.get_fst, ← Option.not_isSome_iff_eq_none]
  intro hsome
  rw [← h.keys] at hmem
  exact hmem (OrderedDict.get_isSome_iff.mp hsome)

/-- What `set` evicts: the oldest key if there is no room for a new one, else nothing. -/
lemma evicts {maxEntries : ℕ} (hpos : 1 ≤ maxEntries) (h : HoldsRecent maxEntries history cache)
    (key : CacheKey) (entry : CachedList) :
    ∃ evicted kept, cache.storedKeys.filter (· ≠ key) = evicted ++ kept ∧
      (cache.set key entry).storedKeys = kept ++ [key] ∧ evicted.length ≤ 1 ∧
      (evicted ≠ [] → key ∉ cache.storedKeys ∧ cache.storedKeys.length = maxEntries) := by
  obtain ⟨size, rfl⟩ := Nat.exists_eq_add_of_le' hpos
  have hothers := length_filter_ne h.nodup key
  have hlength := h.length_le
  refine ⟨(cache.storedKeys.filter (· ≠ key)).rdrop size, _, ?_,
    ResponseCache.storedKeys_set h.nodup h.limit key entry, ?_, fun hsome => ?_⟩
  · rw [List.rdrop, List.rtake, List.take_append_drop]
  · rw [List.rdrop, List.length_take, hothers]
    split <;> omega
  · have hfull : size < (cache.storedKeys.filter (· ≠ key)).length := by
      by_contra hroom
      exact hsome (by rw [List.rdrop, Nat.sub_eq_zero_of_le (not_lt.mp hroom), List.take_zero])
    rw [hothers] at hfull
    split at hfull
    · omega
    · next hnew => exact ⟨hnew, by omega⟩

end HoldsRecent

/-- **The cache is a bounded LRU map.**  After any calls, what is stored is told by the calls
since the last `clear`: the keys with the latest last use, in that order, each with the entry of
its latest `set`; a lookup answers exactly these.  The next `set` evicts at most one key, the
oldest, and only when a new key finds no room. -/
theorem responseCache_leastRecentlyUsed {maxEntries : ℕ} (hpos : 1 ≤ maxEntries)
    {history : List (Access CacheKey CachedList)} {cache : ResponseCache}
    (hrun : Run cacheStep (.new maxEntries hpos) history cache) :
    let calls := sinceClear history
    let recent := mostRecent maxEntries (usesOf calls)
    cache.storedKeys = recent ∧
    (∀ key, key ∈ recent ↔ ∃ before after, usesOf calls = before ++ key :: after ∧
      key ∉ after ∧ after.dedup.length < maxEntries) ∧
    (∀ key ∈ recent, ∃ entry, latestSet calls key = some entry ∧
      (key, entry) ∈ cache.entries ∧ (cache.get key).1 = some entry) ∧
    (∀ key, key ∉ recent → (cache.get key).1 = none) ∧
    ∀ key entry, ∃ evicted kept, recent.filter (· ≠ key) = evicted ++ kept ∧
      (cache.set key entry).storedKeys = kept ++ [key] ∧ evicted.length ≤ 1 ∧
      (evicted ≠ [] → key ∉ recent ∧ recent.length = maxEntries) := by
  have hholds : HoldsRecent maxEntries history cache := by
    obtain ⟨size, rfl⟩ := Nat.exists_eq_add_of_le' hpos
    exact hrun.invariant (HoldsRecent.start hpos) fun _ _ _ _ _ h hstep => h.step hstep
  intro calls recent
  have hkeys : cache.storedKeys = recent := hholds.keys
  refine ⟨hkeys, fun key => mem_mostRecent_iff, fun key hmem => hholds.get_of_mem hmem,
    fun key hmem => hholds.get_of_not_mem hmem, fun key entry => ?_⟩
  rw [← hkeys]
  exact hholds.evicts hpos key entry

/-! Two places, three keys: the key looked up in between outlives the one set after it. -/

def pageKey (labels : String) : CacheKey := ("open", labels.toList, 1, 30)

def pageEntry (etag : String) : CachedList := ⟨etag.toList, [], none⟩

/-- A cache for two pages. -/
def pairCache : ResponseCache := .new 2 (by decide)

/-- Both places are taken. -/
def pairFull : ResponseCache :=
  (pairCache.set (pageKey "a") (pageEntry "W/a")).set (pageKey "b") (pageEntry "W/b")

def pairHistory : List (Access CacheKey CachedList) :=
  [.set (pageKey "a") (pageEntry "W/a"), .set (pageKey "b") (pageEntry "W/b"),
    .get (pageKey "a") (some (pageEntry "W/a")), .set (pageKey "c") (pageEntry "W/c")]

def pairLast : ResponseCache :=
  (pairFull.get (pageKey "a")).2.set (pageKey "c") (pageEntry "W/c")

lemma run_pair : Run cacheStep pairCache pairHistory pairLast := by
  have h₀ : Run cacheStep pairCache [] pairCache := .start
  have h₁ := h₀.next (a := Access.set (pageKey "a") (pageEntry "W/a"))
    (t := pairCache.set (pageKey "a") (pageEntry "W/a")) rfl
  have h₂ := h₁.next (a := Access.set (pageKey "b") (pageEntry "W/b")) (t := pairFull) rfl
  have hfound : (pairFull.get (pageKey "a")).1 = some (pageEntry "W/a") := by decide +kernel
  have h₃ := h₂.next (a := Access.get (pageKey "a") (some (pageEntry "W/a")))
    (t := (pairFull.get (pageKey "a")).2) (Prod.ext hfound rfl)
  exact h₃.next (a := Access.set (pageKey "c") (pageEntry "W/c")) (t := pairLast) rfl

theorem responseCache_leastRecentlyUsed_pair :
    1 ≤ 2 ∧ Run cacheStep pairCache pairHistory pairLast ∧
      pairLast.storedKeys = [pageKey "a", pageKey "c"] := by
  refine ⟨by decide, run_pair, ?_⟩
  rw [(responseCache_leastRecentlyUsed (by decide) run_pair).1]
  decide +kernel

end IssuesApi

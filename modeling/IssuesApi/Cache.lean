import IssuesApi.Lib.OrderedDict
import IssuesApi.Schemas

/-!
# The response cache (`app/cache.py`)

A bounded least-recently-used map from list queries to the page last fetched for them.
-/

namespace IssuesApi

/-- `(state, labels, page, per_page)`. -/
abbrev CacheKey := String × Text × ℕ × ℕ

/-- `CachedList`: a page with the entity tag that identifies it. -/
structure CachedList where
  etag : Text
  data : List Json
  link : Option Text
  deriving DecidableEq

/-- `ResponseCache`. -/
structure ResponseCache where
  maxEntries : ℕ
  entries : OrderedDict CacheKey CachedList
  hits : ℕ
  misses : ℕ
  maxEntries_pos : 1 ≤ maxEntries

namespace ResponseCache

/-- `ResponseCache(max_entries)`. -/
def new (maxEntries : ℕ) (h : 1 ≤ maxEntries) : ResponseCache := ⟨maxEntries, [], 0, 0, h⟩

/-- `get`: a hit makes the key the most recently used. -/
def get (cache : ResponseCache) (key : CacheKey) : Option CachedList × ResponseCache :=
  match cache.entries.get key with
  | none => (none, cache)
  | some entry => (some entry, { cache with entries := cache.entries.moveToEnd key })

/-- `set`: the key becomes the most recently used, and the oldest ones are evicted. -/
def set (cache : ResponseCache) (key : CacheKey) (entry : CachedList) : ResponseCache :=
  { cache with
    entries := ((cache.entries.assign key entry).moveToEnd key).evictTo cache.maxEntries }

/-- `clear`. -/
def clear (cache : ResponseCache) : ResponseCache := { cache with entries := [] }

/-- `record_hit`. -/
def recordHit (cache : ResponseCache) : ResponseCache := { cache with hits := cache.hits + 1 }

/-- `record_miss`. -/
def recordMiss (cache : ResponseCache) : ResponseCache :=
  { cache with misses := cache.misses + 1 }

/-- `__len__`. -/
def len (cache : ResponseCache) : ℕ := cache.entries.length

/-- `stats`. -/
def stats (cache : ResponseCache) : List (String × ℕ) :=
  [("entries", cache.len), ("hits", cache.hits), ("misses", cache.misses)]

@[simp] lemma recordHit_entries (cache : ResponseCache) :
    cache.recordHit.entries = cache.entries := rfl

@[simp] lemma recordMiss_entries (cache : ResponseCache) :
    cache.recordMiss.entries = cache.entries := rfl

/-- What `get` returns was stored. -/
lemma mem_of_get {cache : ResponseCache} {key : CacheKey} {entry : CachedList}
    (h : (cache.get key).1 = some entry) : (key, entry) ∈ cache.entries := by
  unfold get at h
  split at h
  · cases h
  · next e he => cases h; exact OrderedDict.mem_of_get he

/-- `get` stores nothing. -/
lemma mem_get_entries {cache : ResponseCache} {key : CacheKey} {p : CacheKey × CachedList} :
    p ∈ (cache.get key).2.entries ↔ p ∈ cache.entries := by
  unfold get
  split
  · rfl
  · exact OrderedDict.mem_moveToEnd

/-- `set` stores nothing but its argument. -/
lemma mem_set_entries {cache : ResponseCache} {key : CacheKey} {entry : CachedList}
    {p : CacheKey × CachedList} (h : p ∈ (cache.set key entry).entries) :
    p = (key, entry) ∨ p ∈ cache.entries :=
  OrderedDict.mem_assign (OrderedDict.mem_moveToEnd.mp (OrderedDict.mem_of_mem_evictTo h))

end ResponseCache

end IssuesApi

import RingCache.Lru.Store

/-!
# The counted cache of one node

A slot store of values that counts look-ups which found something, look-ups which did not, and
entries that were pushed out. All counts wrap at 64 bits, that of the bytes in use as well. A store
that began empty never faults then; were one to, the cache would stay as it was and the look-up
would find nothing.
-/

namespace RingCache

/-- A slot store of values with counters. -/
structure Cache where
  store : Lru.Store Value
  hits : UInt64
  misses : UInt64
  evictions : UInt64

/-- The counters and the fill of a cache at one moment. -/
structure Cache.Stats where
  bytes : UInt64
  items : UInt64
  capacity : UInt64
  hits : UInt64
  misses : UInt64
  evictions : UInt64
  deriving DecidableEq

namespace Cache

def empty (budget : UInt64) : Cache := ⟨.empty budget, 0, 0, 0⟩

/-- Looks `key` up, counts the look-up, and makes a found entry the newest. -/
def get (c : Cache) (key : String) : Option Value × Cache :=
  match c.store.get key with
  | .ok ⟨some v, _, store⟩ => (some v, { c with store := store, hits := c.hits + 1 })
  | .ok ⟨none, _, store⟩ => (none, { c with store := store, misses := c.misses + 1 })
  | .error _ => (none, { c with misses := c.misses + 1 })

/-- Puts a value in and counts what it pushes out. -/
def add (c : Cache) (key : String) (value : Value) : Cache :=
  match c.store.add key value .wrapping with
  | .ok ⟨_, pushed, store⟩ =>
    { c with store := store, evictions := c.evictions + UInt64.ofNat pushed.length }
  | .error _ => c

def stats (c : Cache) : Stats where
  bytes := c.store.used
  items := UInt64.ofNat c.store.size
  capacity := c.store.budget
  hits := c.hits
  misses := c.misses
  evictions := c.evictions

def Stats.zero : Stats := ⟨0, 0, 0, 0, 0, 0⟩

/-- The fields in the order in which every listing shows them. -/
def Stats.fields (s : Stats) : List (String × UInt64) :=
  [("bytes", s.bytes), ("items", s.items), ("capacity", s.capacity), ("hits", s.hits),
    ("misses", s.misses), ("evictions", s.evictions)]

def Stats.outline (s : Stats) : Outline :=
  .record "LocalCacheStats" (s.fields.map fun (name, n) => (name, .u64 n))

def outline (c : Cache) : Outline := .record "LocalCache" [("stats", c.stats.outline)]

end RingCache.Cache

import RingCache.Json
import RingCache.Cache

/-!
# What a group counts

Counters of 64 bits, which wrap, and the statistics of the local cache beside them.
-/

namespace RingCache

/-- The counters of a group. -/
structure Counters where
  /-- look-ups received -/
  gets : UInt64
  /-- look-ups answered from the local cache -/
  cacheHits : UInt64
  /-- values fetched from peers -/
  peerLoads : UInt64
  /-- failed fetches from peers -/
  peerErrors : UInt64
  /-- look-ups that went on past the cache -/
  loads : UInt64
  /-- look-ups that joined a load under way -/
  loadsDeduped : UInt64
  /-- successful loads from the origin -/
  localLoads : UInt64
  /-- failed loads from the origin -/
  localLoadErrs : UInt64
  /-- requests served to peers -/
  serverRequests : UInt64
  deriving DecidableEq

def Counters.zero : Counters := ⟨0, 0, 0, 0, 0, 0, 0, 0, 0⟩

/-- The counters in the order in which every listing shows them. -/
def Counters.fields (c : Counters) : List (String × UInt64) :=
  [("gets", c.gets), ("cache_hits", c.cacheHits), ("peer_loads", c.peerLoads),
    ("peer_errors", c.peerErrors), ("loads", c.loads), ("loads_deduped", c.loadsDeduped),
    ("local_loads", c.localLoads), ("local_load_errs", c.localLoadErrs),
    ("server_requests", c.serverRequests)]

/-- The statistics of a group at one moment. -/
structure Stats where
  group : String
  counters : Counters
  cache : Cache.Stats
  deriving DecidableEq

namespace Stats

/-- The share of look-ups that the cache answered; zero before the first look-up. -/
def hitRatio (s : Stats) : Binary64 :=
  if s.counters.gets = 0 then .zero
  else (Binary64.ofNat s.counters.cacheHits.toNat).div (.ofNat s.counters.gets.toNat)

def json (s : Stats) : Json :=
  let words (fields : List (String × UInt64)) := fields.map fun (name, n) => (name, Json.u64 n)
  .record (("group", .text s.group) :: words s.counters.fields ++
    [("cache", .record (words s.cache.fields))])

def outline (s : Stats) : Outline :=
  .record "CacheStats" (("group", .text s.group) ::
    s.counters.fields.map (fun (name, n) => (name, .u64 n)) ++ [("cache", s.cache.outline)])

end RingCache.Stats

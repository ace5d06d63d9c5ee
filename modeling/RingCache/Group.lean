import RingCache.Flight
import RingCache.Group.Counters

/-!
# Groups: named caches that fill themselves

A group answers a key from its local cache; else it asks the peer that owns the key; else it loads
the value from its origin and keeps it. A value from a peer is not kept, as the peer keeps it. A peer
that fails is no reason to fail: the origin is asked instead. Callers who miss the same key at the
same time share one load.

A look-up goes through stages, and waits for an answer between them. `start` makes the first stage,
`afterFetch`, `afterLoad` and `await` go on when the answer has come; each of them is one atomic step
on the group. What picks a peer for a key is the caller's, of any type `π`; so is the route `ρ` to a
peer.
-/

namespace RingCache

/-- A named cache that fills itself. -/
structure Group (π : Type) where
  name : String
  cache : Cache
  flights : Flights Value
  counters : Counters
  /-- what picks the peer for a key, once it is registered -/
  peers : Option π

namespace Group

variable {π ρ : Type}

/-- A group that has answered nothing yet. -/
def fresh (name : String) (budget : UInt64) : Group π where
  name := name
  cache := .empty budget
  flights := .empty
  counters := .zero
  peers := none

/-- Registers what picks the peers. This can be done once. -/
def registerPeers (g : Group π) (peers : π) : Except CacheError (Group π) :=
  match g.peers with
  | none => .ok { g with peers := some peers }
  | some _ => .error (.config s!"register_peers called more than once for group {g.name}")

def stats (g : Group π) : Stats := ⟨g.name, g.counters, g.cache.stats⟩

/-- The description of a group: its name, whether peers are registered, and its cache. -/
def outline (g : Group π) : Outline :=
  .record "Group" [("name", .text g.name), ("peers_registered", .bool g.peers.isSome),
    ("cache", g.cache.outline)]

def countServed (g : Group π) : Group π :=
  { g with counters := { g.counters with serverRequests := g.counters.serverRequests + 1 } }

/-! ### The stages of a look-up -/

/-- How far a look-up has come. -/
inductive Stage (ρ : Type) where
  /-- it has its outcome -/
  | done (outcome : Except CacheError Value)
  /-- it leads a flight and waits for a peer -/
  | fetching (ticket : Nat) (route : ρ)
  /-- it leads a flight and waits for the origin -/
  | loading (ticket : Nat)
  /-- it waits for the leader of a flight -/
  | waiting (ticket : Nat)

/-- What a look-up without a key gets. -/
def keyRequired : CacheError := .invalidArgument "key is required"

/-- The leader of a flight has its outcome. -/
def land (g : Group π) (ticket : Nat) (outcome : Except CacheError Value) :
    Stage ρ × Group π :=
  (.done outcome, { g with flights := g.flights.land ticket outcome })

/-- A waiter looks whether its flight has ended. -/
def await (g : Group π) (ticket : Nat) : Stage ρ × Group π :=
  match g.flights.outcome? ticket with
  | none => (.waiting ticket, g)
  | some outcome =>
    (.done outcome,
      { g with counters := { g.counters with loadsDeduped := g.counters.loadsDeduped + 1 } })

/-- Past the cache: joins the flight of the key, or begins one at its peer or at the origin. -/
def load (g : Group π) (pick : π → String → Option ρ) (key : String) : Stage ρ × Group π :=
  let g := { g with counters := { g.counters with loads := g.counters.loads + 1 } }
  match g.flights.join key with
  | (.waiter ticket, flights) => { g with flights := flights }.await ticket
  | (.leader ticket, flights) =>
    let g := { g with flights := flights }
    match g.peers.bind fun peers => pick peers key with
    | some route => (.fetching ticket route, g)
    | none => (.loading ticket, g)

def start (g : Group π) (pick : π → String → Option ρ) (key : String) : Stage ρ × Group π :=
  let g := { g with counters := { g.counters with gets := g.counters.gets + 1 } }
  if key.isEmpty then (.done (.error keyRequired), g)
  else
    match g.cache.get key with
    | (some value, cache) =>
      (.done (.ok value),
        { g with
          cache := cache
          counters := { g.counters with cacheHits := g.counters.cacheHits + 1 } })
    | (none, cache) => { g with cache := cache }.load pick key

/-- Goes on when the peer has answered: its value is the outcome, its failure leads to the origin. -/
def afterFetch (g : Group π) (ticket : Nat) (answer : Except CacheError Value) :
    Stage ρ × Group π :=
  match answer with
  | .ok value =>
    { g with counters := { g.counters with peerLoads := g.counters.peerLoads + 1 } }.land
      ticket (.ok value)
  | .error _ =>
    (.loading ticket,
      { g with counters := { g.counters with peerErrors := g.counters.peerErrors + 1 } })

/-- Goes on when the origin has answered: a value is kept, and either answer is the outcome. -/
def afterLoad (g : Group π) (key : String) (ticket : Nat) (answer : Except CacheError Value) :
    Stage ρ × Group π :=
  match answer with
  | .ok value =>
    { g with
      cache := g.cache.add key value
      counters := { g.counters with localLoads := g.counters.localLoads + 1 } }.land
      ticket (.ok value)
  | .error e =>
    { g with counters := { g.counters with localLoadErrs := g.counters.localLoadErrs + 1 } }.land
      ticket (.error e)

/-- Gives a look-up up. Only a leader leaves something behind. -/
def abandon (g : Group π) : Stage ρ → Group π
  | .fetching ticket _ | .loading ticket => { g with flights := g.flights.abandon ticket }
  | .done _ | .waiting _ => g

end RingCache.Group

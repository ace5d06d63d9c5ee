import RingCache.FrontEnd
import RingCache.Group
import RingCache.Metrics
import RingCache.Origin
import RingCache.Peer.Pool
import RingCache.Registry

/-!
# One node of a cluster

A node has groups, each with its origin, and a pool once it joins a cluster. It may join again with
a new pool: then its earlier pools stay with the groups and the listeners that have them. The peers
of a group are a pool of the node, or a stand-in: an origin that answers in the place of a peer, for
all keys with a given beginning or for none.
-/

namespace RingCache

/-- What picks the peer for the keys of a group. -/
inductive Picker where
  /-- a pool of the node, by its index -/
  | pool (index : Nat)
  /-- a stand-in for keys with that beginning, or for no key at all -/
  | standIn (beginning : Option String)
  deriving DecidableEq

/-- The way to a peer. -/
inductive PeerRoute where
  /-- a request to another node -/
  | remote (client : Peer.Client)
  /-- the stand-in of the group -/
  | standIn

/-- A group with its origin, and the origin of its stand-in for a peer. -/
structure Member where
  group : Group Picker
  origin : Origin
  standIn : Origin

/-- One node of a cluster. -/
structure Node where
  registry : Registry Member
  /-- the pools with which the node joined, the newest one last -/
  pools : Array Peer.Pool

namespace Node

def fresh : Node := ⟨.empty, #[]⟩

/-- The pool of the node: the newest one. -/
def pool (n : Node) : Option Peer.Pool := n.pools.back?

def join (n : Node) (pool : Peer.Pool) : Node := { n with pools := n.pools.push pool }

/-- The statistics of all groups, in increasing order of their names. -/
def stats (n : Node) : List Stats := n.registry.members.map fun m => m.group.stats

/-- The way to the peer for a key, if it has one. -/
def pick (n : Node) : Picker → String → Option PeerRoute
  | .pool index, key => (n.pools[index]?.bind (·.pick key)).map .remote
  | .standIn none, _ => none
  | .standIn (some beginning), key =>
    if beginning.toList.isPrefixOf key.toList then some .standIn else none

def newGroup (n : Node) (name : String) (budget : UInt64) (source : Source) :
    Except CacheError Node := do
  let member : Member := ⟨.fresh name budget, .fresh source, .fresh .echo⟩
  pure { n with registry := ← n.registry.register name member }

def modifyMember (n : Node) (name : String) (f : Member → Member) : Node :=
  match n.registry.find? name with
  | some member => { n with registry := n.registry.replace name (f member) }
  | none => n

/-- Registers what picks the peers of a group, and the origin of its stand-in. -/
def registerPeers (n : Node) (name : String) (picker : Picker) (standIn : Source) :
    Except CacheError Node := do
  let member ← n.registry.require name
  let group ← member.group.registerPeers picker
  pure (n.modifyMember name fun m => { m with group := group, standIn := .fresh standIn })

/-- What a node without a pool says. -/
def noPool : CacheError := .config "the node has no pool"

/-- The pool of the node, or the failure that there is none. -/
def requirePool (n : Node) : Except CacheError Peer.Pool :=
  match n.pool with
  | some pool => .ok pool
  | none => .error noPool

/-- The index of the pool of the node, or the failure that there is none. -/
def requireIndex (n : Node) : Except CacheError Nat := do
  let _ ← n.requirePool
  pure (n.pools.size - 1)

def setPeers (n : Node) (peers : List String) : Except CacheError Node := do
  let pool ← n.requirePool
  pure { n with pools := n.pools.pop.push (pool.setPeers peers) }

/-- Registers the pool of the node as what picks the peers of a group. -/
def registerPool (n : Node) (name : String) : Except CacheError Node := do
  n.registerPeers name (.pool (← n.requireIndex)) .echo

def countServed (n : Node) (name : String) : Node :=
  n.modifyMember name fun m => { m with group := m.group.countServed }

def frontEndOutline (n : Node) (group : Group Picker) : Outline :=
  .record "Api" [("group", group.outline), ("groups", n.registry.outline)]

def metricsOutline (n : Node) : Outline :=
  .record "MetricsExporter" [("groups", n.registry.outline)]

end RingCache.Node

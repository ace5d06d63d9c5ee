import RingCache.CacheError
import RingCache.Peer.Client
import RingCache.Ring
import RingCache.Text.Duration

/-!
# Pools: a node among its peers

A pool knows the address of its own node, places keys on the ring of all peers, and has a client for
each of them. A key that the node owns itself is picked for no peer.

For the requests that other nodes send, `route` says what one asks for: the path must begin with the
base path, the method must be `GET`, and what follows must be two segments that are not empty, the
group and the key, percent encoded. Of several faults the first one in this order is answered.
-/

namespace RingCache.Peer

/-- How a pool is set up. -/
structure Pool.Config where
  basePath : String
  replicas : Nat
  /-- how long an answer of a peer is awaited, in milliseconds -/
  timeout : Nat

/-- The set-up of pools that are not told another one. -/
def Pool.Config.standard : Pool.Config := ⟨defaultBasePath, 50, 5000⟩

/-- A node among its peers. -/
structure Pool where
  self : String
  config : Pool.Config
  ring : Ring
  clients : Std.HashMap String Client

namespace Pool

/-- Whether a base path begins and ends with a slash. -/
def Config.isRooted (c : Config) : Bool :=
  c.basePath.toList.head? == some '/' && c.basePath.toList.getLast? == some '/'

/-- A pool without peers, if it can be set up so. -/
def create (self : String) (config : Config) : Except CacheError Pool :=
  if !config.isRooted then
    .error (.config s!"base path must start and end with '/': {config.basePath}")
  else if config.replicas = 0 then .error (.config "replicas must be at least 1")
  else .ok ⟨self, config, .empty Ring.Hash.crc32 config.replicas, ∅⟩

def setPeers (p : Pool) (peers : List String) : Pool :=
  { p with
    ring := (Ring.empty Ring.Hash.crc32 p.config.replicas).add peers
    clients := peers.foldl (fun m peer => m.insert peer ⟨peer, p.config.basePath⟩) ∅ }

/-- The peers, in increasing order and each once. -/
def peers (p : Pool) : List String := Ring.sortedDistinct p.clients.keys

/-- The client of the peer that owns the key, unless that is the node itself. -/
def pick (p : Pool) (key : String) : Option Client := do
  let owner ← p.ring.owner? key
  if owner = p.self then none else p.clients[owner]?

def outline (p : Pool) : Outline :=
  .record "HttpPool" [("self_addr", .text p.self),
    ("config", .record "PoolConfig" [("base_path", .text p.config.basePath),
      ("replicas", .nat p.config.replicas),
      ("request_timeout", .word (Text.duration p.config.timeout))]),
    ("peers", .list (p.peers.map .text))]

/-! ### What a request asks for -/

/-- Why a request does not name a group and a key. -/
inductive BadRequest where
  /-- there are not two segments, or one is empty -/
  | shape
  /-- a segment is not text -/
  | notText (fault : Text.Utf8.Fault)
  deriving DecidableEq

def BadRequest.message : BadRequest → String
  | .shape => "bad request"
  | .notText fault => "bad request: " ++ fault.message

def decodeSegment (segment : String) : Except BadRequest String :=
  (Text.Percent.decode segment).mapError .notText

/-- The group and the key that a path without the base path names. -/
def split (rest : String) : Except BadRequest (String × String) :=
  match Text.split '/' rest with
  | [group, key] =>
    if group.isEmpty || key.isEmpty then .error .shape
    else do
      let group ← decodeSegment group
      let key ← decodeSegment key
      pure (group, key)
  | _ => .error .shape

/-- What a request asks a node for. -/
inductive Route where
  /-- nothing that begins with the base path -/
  | elsewhere
  | methodNotAllowed
  | bad (fault : BadRequest)
  /-- the value of a key in a group -/
  | value (group key : String)
  deriving DecidableEq

/-- What a request asks this node for. -/
def route (p : Pool) (r : Http.Request) : Route :=
  match p.config.basePath.toList.isPrefixOf? r.target.path.toList with
  | none => .elsewhere
  | some rest =>
    if !r.isGet then .methodNotAllowed
    else
      match split (String.ofList rest) with
      | .error fault => .bad fault
      | .ok (group, key) => .value group key

end RingCache.Peer.Pool

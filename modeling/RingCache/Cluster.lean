import RingCache.Cluster.Node
import RingCache.Group.Get
import RingCache.Net.Host

/-!
# A cluster: nodes that ask each other

Nodes listen at addresses and send each other requests over a link. A look-up on one node may so
become a request to another one, which looks the key up in its own group in turn; no node is asked
about a key for which it is waiting itself, as that request would get no answer, so that a look-up
passes every node at most once.

`serve` answers a request from a peer, `frontEnd` a request from a client, and `get` a look-up on the
spot. Where the link is down every request is lost.

A look-up whose flight somebody else leads has no outcome before that flight has ended; `look` gives
none then. Whoever asks on the spot is told that the leader was given up. This is nothing that a
cluster comes to by the requests that it answers, one after another, since none of them leaves a
flight behind.
-/

namespace RingCache

/-- What answers requests at an address. -/
inductive Endpoint where
  /-- a pool of a node, by their indices -/
  | pool (node index : Nat)
  /-- one and the same answer -/
  | fixed (status : UInt16) (body : Value)
  /-- something that never finishes an answer -/
  | silent

/-- Nodes, and what listens at which address. -/
structure Cluster where
  link : Net.Link
  nodes : Array Node
  /-- by address; an earlier entry stands before later ones of the same address -/
  endpoints : List (String × Endpoint)

namespace Cluster

def fresh (link : Net.Link) (count : Nat) : Cluster := ⟨link, Array.replicate count .fresh, []⟩

/-- The node with that index; a node without groups where there is none. -/
def node (c : Cluster) (i : Nat) : Node := c.nodes.getD i .fresh

def setNode (c : Cluster) (i : Nat) (n : Node) : Cluster :=
  { c with nodes := c.nodes.setIfInBounds i n }

/-- Lets an endpoint answer at an address, whatever answered there before. -/
def listen (c : Cluster) (address : String) (e : Endpoint) : Cluster :=
  { c with endpoints := (address, e) :: c.endpoints }

/-! ### Requests between nodes

A look-up on a node is passed in as `look`: node, group and key. It has no outcome where it would
wait for itself. -/

/-- A look-up of a key in a group of a node. -/
abbrev Look := Nat → String → String → StateM Cluster (Option (Except CacheError Value))

/-- A pool of node `i` answers a request, if it ever does. -/
def serveBy (look : Look) (i : Nat) (pool : Peer.Pool) (r : Http.Request) :
    StateM Cluster (Option Http.Response) :=
  match pool.route r with
  | .elsewhere => pure (some (.text 404 s!"unexpected path: {r.target.path}"))
  | .methodNotAllowed => pure (some .methodNotAllowed)
  | .bad fault => pure (some (.text 400 fault.message))
  | .value group key => do
    let c ← get
    match (c.node i).registry.find? group with
    | none => pure (some (.text 404 s!"no such group: {group}"))
    | some _ =>
      set (c.setNode i ((c.node i).countServed group))
      let outcome ← look i group key
      pure (outcome.map FrontEnd.answer)

/-- What a client gets whose request has no answer. -/
def unreachable (client : Peer.Client) (reason : String) : CacheError :=
  .transport client.peer reason

/-- What a client makes of an answer: only the status 200 brings a value. -/
def received (client : Peer.Client) (r : Http.Response) : Except CacheError Value :=
  if r.status = 200 then .ok r.body else .error (.peerStatus client.peer r.status)

/-- A client asks its peer for a key of a group. -/
def fetchBy (look : Look) (client : Peer.Client) (group key : String) :
    StateM Cluster (Except CacheError Value) := do
  let c ← get
  if c.link = .down then pure (.error (unreachable client "network unreachable"))
  else
    match c.endpoints.lookup client.peer with
    | none => pure (.error (unreachable client "connection refused"))
    | some .silent => pure (.error (unreachable client "no answer"))
    | some (.fixed status body) => pure (received client ⟨status, none, body⟩)
    | some (.pool i index) =>
      match (c.node i).pools[index]? with
      | none => pure (.error (unreachable client "connection refused"))
      | some pool =>
        match ← serveBy look i pool ⟨"GET", client.target group key⟩ with
        | none => pure (.error (unreachable client "no answer"))
        | some response => pure (received client response)

/-! ### Look-ups -/

/-- What a look-up in member `m` of node `i` needs of the cluster around it. -/
def surroundings (look : Look) (i : Nat) (m : Member) (key : String) :
    Group.Surroundings (StateM Cluster) Picker PeerRoute :=
  let name := m.group.name
  let member : StateM Cluster Member := do
    pure ((((← get).node i).registry.find? name).getD m)
  let update (f : Member → Member) : StateM Cluster Unit :=
    modify fun c => c.setNode i ((c.node i).modifyMember name f)
  { read := do pure (← member).group
    write := fun g => update fun m => { m with group := g }
    fetch := fun
      | .remote client => fetchBy look client name key
      | .standIn => do
        let (answer, standIn) := (← member).standIn.call key
        update fun m => { m with standIn := standIn }
        pure answer
    load := do
      let (answer, origin) := (← member).origin.call key
      update fun m => { m with origin := origin }
      pure answer }

/-- A look-up over at most `hops` requests from node to node, one after the other. -/
def lookWithin : Nat → Look
  | 0, _, _, _ => pure none
  | hops + 1, i, group, key => do
    let n := (← get).node i
    match n.registry.find? group with
    | none => pure (some (.error (.groupNotFound group)))
    | some m => Group.lookUp (surroundings (lookWithin hops) i m key) n.pick key

/-- A look-up on a cluster: more requests than there are nodes would come to a node that waits. -/
def look : Look := fun i group key => do
  lookWithin ((← get).nodes.size + 1) i group key

/-- A look-up on the spot. If somebody else leads the flight of the key, nobody waits for it. -/
def get (c : Cluster) (i : Nat) (group key : String) :
    Except CacheError Value × Cluster :=
  let (outcome, c) := look i group key c
  (outcome.getD (.error Flights.abandoned), c)

def fetch (c : Cluster) (client : Peer.Client) (group key : String) :
    Except CacheError Value × Cluster :=
  fetchBy look client group key c

/-! ### Requests from outside -/

/-- The answer to a request whose look-up has no outcome, since somebody else leads the flight. -/
def noAnswer : Http.Response := .text 500 Flights.abandoned.message

/-- A pool of node `i` answers a request. -/
def serve (c : Cluster) (i : Nat) (pool : Peer.Pool) (r : Http.Request) :
    Http.Response × Cluster :=
  let (response, c) := serveBy look i pool r c
  (response.getD noAnswer, c)

/-- The front end of node `i` over one of its groups answers a request. -/
def frontEnd (c : Cluster) (i : Nat) (group : String) (r : Http.Request) :
    Http.Response × Cluster :=
  match FrontEnd.route r with
  | .methodNotAllowed => (.methodNotAllowed, c)
  | .keyMissing => (.text 400 "key is required", c)
  | .statistics => (FrontEnd.statistics (c.node i).stats, c)
  | .health => (.text 200 "ok", c)
  | .notFound path => (.text 404 s!"not found: {path}", c)
  | .value key =>
    let (outcome, c) := c.get i group key
    (FrontEnd.answer outcome, c)

/-- The metrics page of node `i` answers a request. -/
def metrics (c : Cluster) (i : Nat) (target : Http.Target) : Http.Response × Cluster :=
  (Metrics.handle target (c.node i).stats, c)

/-- Sends a request with the given target over the link, to whoever answers it. No response means
that no connection was made. A target with a blank makes a request line that cannot be read. -/
def overLink (c : Cluster) (target : String) (answer : Cluster → Http.Response × Cluster) :
    Option Http.Response × Cluster :=
  if c.link = .down then (none, c)
  else if target.toList.contains ' ' then (some .malformed, c)
  else
    let (response, c) := answer c
    (some response, c)

/-! ### Setting nodes up -/

/-- Changes node `i`, if that can be done. -/
def update (c : Cluster) (i : Nat) (f : Node → Except CacheError Node) :
    Except CacheError Cluster := do
  pure (c.setNode i (← f (c.node i)))

/-- Lets the pool of node `i` answer at its own address. -/
def listenAt (c : Cluster) (i : Nat) : Except CacheError Cluster := do
  let pool ← (c.node i).requirePool
  pure (c.listen pool.self (.pool i (← (c.node i).requireIndex)))

end RingCache.Cluster

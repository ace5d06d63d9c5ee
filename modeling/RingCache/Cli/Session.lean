import RingCache.Cli.Arguments
import RingCache.Cluster
import RingCache.Log.Rule
import RingCache.Text.Blank

/-!
# A node from its start to its end

A session is one run of a node with a demonstration group. It starts by saying how it is set up, and
ends at once where something cannot be set up. Once it runs it answers requests at its listeners,
until it is told to shut down.
-/

namespace RingCache.Cli

/-! ### The log -/

/-- The name under which a node writes its lines. -/
def origin : String := "peercache"

/-- The rules of a log, and the lines about what is no rule: those of the environment, and after them
the level of the settings for all lines. -/
def logRules (env : Environment) (s : Settings) : List Log.Rule × List String :=
  let (rules, faults) := Log.Rule.readAll ((env.lookup rulesVariable).getD "")
  (rules ++ [.general (.atLeast (.ofSetting s.logLevel))], faults)

/-! ### Starting -/

/-- What a listener of a session serves. -/
inductive Service where
  | peers
  | frontEnd
  | metrics
  deriving DecidableEq

/-- A running node. -/
structure Session where
  cluster : Cluster
  listeners : List (Net.SocketAddress × Service)

namespace Session

def group : String := "scores"

def scores : Source :=
  .table [("Tom", .ofString "630"), ("Jack", .ofString "589"), ("Sam", .ofString "567")]

/-- The address under which other nodes know this one. -/
def selfAddress (s : Settings) : String := s!"http://localhost:{s.port}"

/-- The lines that say how a node is set up. -/
def banner (s : Settings) : List Log.Line :=
  [.info "Starting peercache node",
    .info s!"  Self address: {selfAddress s}",
    .info ("  Peers: " ++ ",".intercalate s.peers),
    .info s!"  Cache bytes: {s.cacheBytes}",
    .info s!"  Replicas: {s.replicas}"]

/-- The peers of a setting: without the blanks around them, and none that is empty. -/
def peerList (s : Settings) : List String :=
  (s.peers.map Text.trim).filter fun peer => !peer.isEmpty

/-- The node of a session, if it can be set up. -/
def node (s : Settings) : Except CacheError Node := do
  let n ← Node.fresh.newGroup group (UInt64.ofNat s.cacheBytes) scores
  let pool ← Peer.Pool.create (selfAddress s)
    { Peer.Pool.Config.standard with replicas := s.replicas, timeout := s.peerTimeout }
  (n.join (pool.setPeers (peerList s))).registerPool group

/-- The listeners that a setting asks for, in the order in which they are opened. -/
def wanted (s : Settings) : List (String × Service) :=
  (if s.api then [(s.apiAddr, .frontEnd)] else []) ++
    (match s.metricsAddr with
      | some addr => [(addr, .metrics)]
      | none => []) ++
    [(s!"0.0.0.0:{s.port}", .peers)]

/-- Opens listeners in order. -/
def openAll : Net.Host → List (String × Service) →
    Except CacheError (List (Net.SocketAddress × Service))
  | _, [] => .ok []
  | host, (addr, service) :: rest => do
    let (a, host) ← host.bind addr
    let others ← openAll host rest
    pure ((a, service) :: others)

/-- Starts a session on a machine with the given link. -/
def start (link : Net.Link) (s : Settings) : Except CacheError Session := do
  let n ← node s
  let listeners ← openAll (.fresh link) (wanted s)
  let cluster := (Cluster.fresh link 1).setNode 0 n
  pure ⟨cluster.listen (selfAddress s) (.pool 0 0), listeners⟩

/-! ### Running -/

/-- A request to a port of the machine. -/
structure Request where
  port : Nat
  method : String
  target : String

/-- Reads a request from a line: the port, the method and the target, with blanks between them. -/
def Request.ofLine? (line : String) : Option Request := do
  let (port, rest) := Text.cut ' ' (Text.trim line).toList
  let (method, target) := Text.cut ' ' (← rest)
  pure ⟨← Text.digits? port, String.ofList method, String.ofList (← target)⟩

/-- What comes of a request. -/
inductive Reply where
  | response (r : Http.Response)
  | unreachable
  | refused

/-- A reply in words: the status and the body, or what went wrong. -/
def Reply.text : Reply → String
  | .response r => s!"{r.status.toNat} {r.body.toText}"
  | .unreachable => "network unreachable"
  | .refused => "connection refused"

/-- The keys that the origin was asked for so far. -/
def searched (c : Cluster) : List String :=
  match (c.node 0).registry.find? group with
  | some member => member.origin.calls
  | none => []

/-- The response of a service of the node. -/
def respond (service : Service) (method target : String) (c : Cluster) :
    Http.Response × Cluster :=
  let request : Http.Request := ⟨method, .parse target⟩
  match service with
  | .frontEnd => c.frontEnd 0 group request
  | .metrics => c.metrics 0 request.target
  | .peers =>
    match (c.node 0).pool with
    | some pool => c.serve 0 pool request
    | none => (Cluster.noAnswer, c)

/-- Sends a request to the session. The origin says which keys it is asked for. -/
def request (session : Session) (r : Request) : Reply × List Log.Line × Session :=
  if session.cluster.link = .down then (.unreachable, [], session)
  else
    match session.listeners.find? fun l => l.1.port.toNat = r.port with
    | none => (.refused, [], session)
    | some (_, service) =>
      match session.cluster.overLink r.target (respond service r.method r.target) with
      | (none, _) => (.unreachable, [], session)
      | (some response, cluster) =>
        let fresh := (searched cluster).drop (searched session.cluster).length
        (.response response, fresh.map fun key => .info s!"[SlowDB] search key {key}",
          { session with cluster := cluster })

def requests (session : Session) : List Request → List Reply × List Log.Line × Session
  | [] => ([], [], session)
  | r :: rest =>
    let (reply, lines, session) := session.request r
    let (replies, others, session) := session.requests rest
    (reply :: replies, lines ++ others, session)

/-- What comes of requests where no node runs. -/
def unanswered (link : Net.Link) (requests : List Request) : List Reply :=
  requests.map fun _ => if link = .down then .unreachable else .refused

/-- The lines with which a node shuts down. -/
def farewell : List Log.Line :=
  [.info "Shutdown signal received", .info "Node shutdown complete"]

end Session

/-! ### A whole run -/

/-- What a run of the program leaves behind. -/
structure Report where
  /-- the exit status, unless it is still running -/
  exit : Option Nat
  log : List Log.Line
  replies : List Session.Reply
  output : String
  /-- what went to the error channel; none where the words are those of a usage message -/
  errors : Option String

def versionLine : String := "peercache 0.1.0\n"

/-- The line with which a failed start ends. -/
def failureLine (e : CacheError) : String := "Error: " ++ e.outline.compact ++ "\n"

/-- Runs the program. With requests they are sent once it runs, and it is shut down after the last
one; without, it is left running. -/
def run (link : Net.Link) (args : List String) (env : Environment)
    (requests : Option (List Session.Request)) : Report :=
  let lost := Session.unanswered link (requests.getD [])
  match Invocation.read args env with
  | .help => ⟨some 0, [], lost, "", some ""⟩
  | .version => ⟨some 0, [], lost, versionLine, some ""⟩
  | .misuse => ⟨some 2, [], lost, "", none⟩
  | .run settings =>
    let (rules, faults) := logRules env settings
    let warnings := String.join faults
    let shown (lines : List Log.Line) :=
      (Log.Rule.visible rules origin (Session.banner settings ++ lines)).map
        (Log.Line.shown settings.logJson)
    match Session.start link settings, requests with
    | .error e, _ => ⟨some 1, shown [], lost, "", some (warnings ++ failureLine e)⟩
    | .ok _, none => ⟨none, shown [], [], "", some warnings⟩
    | .ok session, some requests =>
      let (replies, lines, _) := session.requests requests
      ⟨some 0, shown (lines ++ Session.farewell), replies, "", some warnings⟩

end RingCache.Cli

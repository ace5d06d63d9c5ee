import RingCache.Text.Decimal
import RingCache.Text.Parts

/-!
# The command line of a node

Options have long names and take one value, after an equals sign or as the next argument; a value
that begins with a dash needs the equals sign, a dash alone does not. `--api` and `--log-json` are
flags without a value. An option may be given once; `--peers` may be given again, and each of its
values is a list with commas. There are no other arguments.

Arguments are read from left to right. The first one that asks for help or for the version, or that
is at fault, decides. What was not given is taken from the environment, and else has a default.
-/

namespace RingCache.Cli

/-- How a node is set up. -/
structure Settings where
  port : Nat
  peers : List String
  api : Bool
  apiAddr : String
  cacheBytes : Nat
  replicas : Nat
  /-- how long an answer of a peer is awaited, in milliseconds -/
  peerTimeout : Nat
  metricsAddr : Option String
  logLevel : String
  logJson : Bool
  deriving DecidableEq

/-- What a command line asks for. -/
inductive Invocation where
  | run (settings : Settings)
  | help
  | version
  /-- the command line is at fault -/
  | misuse
  deriving DecidableEq

/-! ### Numbers -/

/-- A port: a number with an optional sign, from zero up to 65535. -/
def port? (s : String) : Option Nat :=
  match s.toList with
  | '-' :: cs => (Text.digits? cs).filter (· = 0)
  | _ => Text.unsigned? 65535 s

def wordLimit : Nat := UInt64.size - 1

/-! ### Options -/

/-- The options that take a value. -/
inductive Opt where
  | port
  | peers
  | apiAddr
  | cacheBytes
  | replicas
  | peerTimeout
  | metricsAddr
  | logLevel
  deriving DecidableEq

/-- The flags. -/
inductive Flag where
  | api
  | logJson
  deriving DecidableEq

def Opt.ofName? : String → Option Opt
  | "port" => some .port
  | "peers" => some .peers
  | "api-addr" => some .apiAddr
  | "cache-bytes" => some .cacheBytes
  | "replicas" => some .replicas
  | "peer-timeout-ms" => some .peerTimeout
  | "metrics-addr" => some .metricsAddr
  | "log-level" => some .logLevel
  | _ => none

/-- The environment variable that stands in for an option. -/
def Opt.variable : Opt → String
  | .port => "PEERCACHE_PORT"
  | .peers => "PEERCACHE_PEERS"
  | .apiAddr => "PEERCACHE_API_ADDR"
  | .cacheBytes => "PEERCACHE_CACHE_BYTES"
  | .replicas => "PEERCACHE_REPLICAS"
  | .peerTimeout => "PEERCACHE_PEER_TIMEOUT_MS"
  | .metricsAddr => "PEERCACHE_METRICS_ADDR"
  | .logLevel => "LOG_LEVEL"

def Flag.ofName? : String → Option Flag
  | "api" => some .api
  | "log-json" => some .logJson
  | _ => none

/-- The environment variable that stands in for a flag. -/
def Flag.variable : Flag → String
  | .api => "PEERCACHE_API"
  | .logJson => "LOG_JSON"

def Opt.all : List Opt :=
  [.port, .peers, .apiAddr, .cacheBytes, .replicas, .peerTimeout, .metricsAddr, .logLevel]

/-- The environment variable with the rules of the log. -/
def rulesVariable : String := "RUST_LOG"

/-- The variables that a node looks at in its environment. -/
def variableNames : List String :=
  Opt.all.map Opt.variable ++ [Flag.api.variable, Flag.logJson.variable, rulesVariable]

/-- Settings while they are being read: none for what is not given yet. -/
structure Draft where
  port : Option Nat
  peers : Option (List String)
  api : Option Bool
  apiAddr : Option String
  cacheBytes : Option Nat
  replicas : Option Nat
  peerTimeout : Option Nat
  metricsAddr : Option String
  logLevel : Option String
  logJson : Option Bool

namespace Draft

def empty : Draft := ⟨none, none, none, none, none, none, none, none, none, none⟩

def has (d : Draft) : Opt → Bool
  | .port => d.port.isSome
  | .peers => d.peers.isSome
  | .apiAddr => d.apiAddr.isSome
  | .cacheBytes => d.cacheBytes.isSome
  | .replicas => d.replicas.isSome
  | .peerTimeout => d.peerTimeout.isSome
  | .metricsAddr => d.metricsAddr.isSome
  | .logLevel => d.logLevel.isSome

/-- Writes the value of an option down, if it is a value of that option. -/
def put (d : Draft) (opt : Opt) (value : String) : Option Draft :=
  match opt with
  | .port => (port? value).map fun n => { d with port := some n }
  | .peers => some { d with peers := some (d.peers.getD [] ++ Text.split ',' value) }
  | .apiAddr => some { d with apiAddr := some value }
  | .cacheBytes => (Text.unsigned? wordLimit value).map fun n => { d with cacheBytes := some n }
  | .replicas => (Text.unsigned? wordLimit value).map fun n => { d with replicas := some n }
  | .peerTimeout => (Text.unsigned? wordLimit value).map fun n => { d with peerTimeout := some n }
  | .metricsAddr => some { d with metricsAddr := some value }
  | .logLevel => some { d with logLevel := some value }

/-- Takes an option from the command line; it may be there once, unless it is a list. -/
def take (d : Draft) (opt : Opt) (value : String) : Option Draft :=
  if d.has opt && opt ≠ .peers then none else d.put opt value

/-- Takes a flag from the command line; it may be there once. -/
def raise (d : Draft) : Flag → Option Draft
  | .api => if d.api.isSome then none else some { d with api := some true }
  | .logJson => if d.logJson.isSome then none else some { d with logJson := some true }

/-- The settings, with the default for what is not given. -/
def settings (d : Draft) : Settings where
  port := d.port.getD 8001
  peers := d.peers.getD
    ["http://localhost:8001", "http://localhost:8002", "http://localhost:8003"]
  api := d.api.getD false
  apiAddr := d.apiAddr.getD "0.0.0.0:9999"
  cacheBytes := d.cacheBytes.getD 2048
  replicas := d.replicas.getD 50
  peerTimeout := d.peerTimeout.getD 5000
  metricsAddr := d.metricsAddr
  logLevel := d.logLevel.getD "info"
  logJson := d.logJson.getD false

end Draft

/-! ### The command line -/

/-- What the command line alone comes to: a draft, or an invocation that runs nothing. -/
abbrev Outcome := Except Invocation Draft

/-- A draft, or misuse where there is none. -/
def orMisuse : Option Draft → Outcome
  | some d => .ok d
  | none => .error .misuse

/-- Whether an argument can be the value of the option before it. -/
def isValue (arg : String) : Bool :=
  match arg.toList with
  | ['-'] => true
  | '-' :: _ => false
  | _ => true

/-- What a single argument is. -/
inductive Word where
  /-- an option whose value is the next argument -/
  | option (opt : Opt)
  /-- an option with its value -/
  | assigned (opt : Opt) (value : String)
  | flag (flag : Flag)
  | help
  | version
  /-- two dashes alone: what follows is no option -/
  | close
  | fault
  deriving DecidableEq

/-- Reads a single argument. Of letters behind one dash the first one decides. -/
def Word.ofArgument (arg : String) : Word :=
  match arg.toList with
  | ['-', '-'] => .close
  | '-' :: '-' :: rest =>
    let (name, value) := Text.cut '=' rest
    match String.ofList name, value with
    | "help", none => .help
    | "version", none => .version
    | name, none =>
      match Opt.ofName? name, Flag.ofName? name with
      | some o, _ => .option o
      | none, some f => .flag f
      | none, none => .fault
    | name, some value =>
      match Opt.ofName? name with
      | some o => .assigned o (String.ofList value)
      | none => .fault
  | '-' :: 'h' :: _ => .help
  | '-' :: 'V' :: _ => .version
  | _ => .fault

/-- Reads the arguments in order into a draft. -/
def readArguments (d : Draft) : List String → Outcome
  | [] => .ok d
  | arg :: rest =>
    match Word.ofArgument arg, rest with
    | .option _, [] => .error .misuse
    | .option opt, value :: rest =>
      if isValue value then do
        let d ← orMisuse (d.take opt value)
        readArguments d rest
      else .error .misuse
    | .assigned opt value, rest => do
      let d ← orMisuse (d.take opt value)
      readArguments d rest
    | .flag flag, rest => do
      let d ← orMisuse (d.raise flag)
      readArguments d rest
    | .help, _ => .error .help
    | .version, _ => .error .version
    | .close, rest => if rest.isEmpty then .ok d else .error .misuse
    | .fault, _ => .error .misuse

/-! ### The environment -/

abbrev Environment := List (String × String)

/-- Takes an option that is not given from the environment. -/
def fillOption (env : Environment) (d : Draft) (opt : Opt) : Outcome :=
  if d.has opt then .ok d
  else
    match env.lookup opt.variable with
    | none => .ok d
    | some value => orMisuse (d.put opt value)

/-- A flag that is not given, from the environment. -/
def fillFlag (env : Environment) (flag : Flag) (given : Option Bool) :
    Except Invocation (Option Bool) :=
  match given, env.lookup flag.variable with
  | some b, _ => .ok (some b)
  | none, none => .ok none
  | none, some "true" => .ok (some true)
  | none, some "false" => .ok (some false)
  | none, some _ => .error .misuse

/-- Takes everything that is not given from the environment. -/
def fill (env : Environment) (d : Draft) : Outcome := do
  let d ← Opt.all.foldlM (fillOption env) d
  let api ← fillFlag env .api d.api
  let logJson ← fillFlag env .logJson d.logJson
  pure { d with api := api, logJson := logJson }

/-- What a command line asks for in an environment. -/
def Invocation.read (args : List String) (env : Environment) : Invocation :=
  let outcome := do
    let d ← readArguments .empty args
    fill env d
  match outcome with
  | .ok d => .run d.settings
  | .error invocation => invocation

end RingCache.Cli

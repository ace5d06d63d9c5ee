import RingCache.Group.Counters
import RingCache.Http
import RingCache.Number.Shortest
import RingCache.Registry

/-!
# The metrics page

The page shows the statistics of groups in the text format of metrics. What statistics count becomes
a family of samples, one sample per group. The families are registered under their names and written
in increasing order of them, each with a line of help, a line of its type, and its samples in
increasing order of the group names. A family without samples is left out.

A quantity whose name ends in `_total` is a counter: where several statistics have the same group,
its values add up, wrapping at `2 ^ 64`. Any other is a gauge: the last value stands, and is at most
`2 ^ 63 - 1`. Values pass through binary floating point and are written in the fewest digits that
read back.
-/

namespace RingCache.Metrics

/-! ### What is shown -/

/-- Whether values of one group add up or replace each other. -/
inductive Kind where
  | counter
  | gauge
  deriving DecidableEq

def Kind.name : Kind → String
  | .counter => "counter"
  | .gauge => "gauge"

/-- The largest value of a gauge. -/
def gaugeLimit : UInt64 := 9223372036854775807

/-- Takes one more value into a sample. -/
def Kind.update : Kind → UInt64 → UInt64 → UInt64
  | .counter, value, sample => sample + value
  | .gauge, value, _ => min value gaugeLimit

/-- Something that statistics count. -/
structure Quantity where
  name : String
  help : String
  value : Stats → UInt64

def Quantity.kind (q : Quantity) : Kind :=
  if "_total".toList.isSuffixOf q.name.toList then .counter else .gauge

def quantities : List Quantity := [
  ⟨"gets_total", "Lookups received", (·.counters.gets)⟩,
  ⟨"cache_hits_total", "Lookups answered from the local cache", (·.counters.cacheHits)⟩,
  ⟨"peer_loads_total", "Values fetched from remote peers", (·.counters.peerLoads)⟩,
  ⟨"peer_errors_total", "Failed peer fetches", (·.counters.peerErrors)⟩,
  ⟨"loads_total", "Misses dispatched to the loader path", (·.counters.loads)⟩,
  ⟨"loads_deduped_total", "Misses that joined an in-flight load", (·.counters.loadsDeduped)⟩,
  ⟨"local_loads_total", "Successful loader calls", (·.counters.localLoads)⟩,
  ⟨"local_load_errors_total", "Failed loader calls", (·.counters.localLoadErrs)⟩,
  ⟨"server_requests_total", "Requests served to peers", (·.counters.serverRequests)⟩,
  ⟨"local_cache_hits_total", "Local cache hits", (·.cache.hits)⟩,
  ⟨"local_cache_misses_total", "Local cache misses", (·.cache.misses)⟩,
  ⟨"local_cache_evictions_total", "Entries evicted from the local cache", (·.cache.evictions)⟩,
  ⟨"local_cache_bytes", "Bytes held by the local cache", (·.cache.bytes)⟩,
  ⟨"local_cache_items", "Entries held by the local cache", (·.cache.items)⟩]

/-- The budget of the cache, which is a gauge whatever its name is. -/
def capacity : Quantity :=
  ⟨"local_cache_capacity_bytes", "Local cache byte limit (0 = unbounded)", (·.cache.capacity)⟩

/-! ### Families -/

/-- Samples by label, in increasing order of the labels. -/
abbrev Samples := List (String × UInt64)

/-- Changes the sample of a label. It is zero before it is changed first. -/
def Samples.change (label : String) (f : UInt64 → UInt64) : Samples → Samples
  | [] => [(label, f 0)]
  | (other, sample) :: rest =>
    if label < other then (label, f 0) :: (other, sample) :: rest
    else if label = other then (label, f sample) :: rest
    else (other, sample) :: change label f rest

/-- The samples of one quantity. -/
structure Family where
  name : String
  help : String
  kind : Kind
  samples : Samples

/-- What the name of every family begins with. -/
def nameSpace : String := "peercache"

/-- Takes the values of a quantity into samples, one after the other. -/
def Quantity.family (q : Quantity) (kind : Kind) (stats : List Stats) : Family where
  name := nameSpace ++ "_" ++ q.name
  help := q.help
  kind := kind
  samples := stats.foldl (fun samples s => samples.change s.group (kind.update (q.value s))) []

/-- All families of statistics. -/
def families (stats : List Stats) : List Family :=
  (quantities.map fun q => q.family q.kind stats) ++ [capacity.family .gauge stats]

/-! ### Registering -/

/-- Why families cannot be shown. -/
inductive Fault where
  | helpMissing
  | badName (name : String)
  | nameTaken
  | noSamples (name : String)
  deriving DecidableEq

def Fault.message : Fault → String
  | .helpMissing => "Error: empty help string"
  | .badName name => s!"Error: '{name}' is not a valid metric name"
  | .nameTaken => "Duplicate metrics collector registration attempted"
  | .noSamples name => s!"Error: MetricFamily has no metrics: {name}"

def isNameChar (c : Char) : Bool := c.isAlphanum || c = '_' || c = ':'

/-- Whether a text can be the name of a family, which does not begin with a digit. -/
def isName (cs : List Char) : Bool :=
  cs.all isNameChar && cs.head?.any fun c => !c.isDigit

/-- Registers a family under its name. -/
def register (r : Registry Family) (f : Family) : Except Fault (Registry Family) :=
  if f.help.isEmpty then .error .helpMissing
  else if !isName f.name.toList then .error (.badName f.name)
  else
    match r.find? f.name with
    | some _ => .error .nameTaken
    | none => .ok ⟨Registry.insertSorted f.name f r.entries⟩

/-- The registered families that have samples. -/
def gather (r : Registry Family) : List Family := r.members.filter fun f => !f.samples.isEmpty

/-! ### Writing -/

/-- Backslashes and line ends are escaped, and quotes as well in a text that stands between quotes. -/
def escapeChar (quoted : Bool) : Char → List Char
  | '\\' => ['\\', '\\']
  | '\n' => ['\\', 'n']
  | '"' => if quoted then ['\\', '"'] else ['"']
  | c => [c]

def escape (quoted : Bool) (text : String) : String :=
  String.ofList (text.toList.flatMap (escapeChar quoted))

def helpLine (f : Family) : String := "# HELP " ++ f.name ++ " " ++ escape false f.help

def typeLine (f : Family) : String := "# TYPE " ++ f.name ++ " " ++ f.kind.name

def sampleLine (f : Family) (group : String) (sample : UInt64) : String :=
  f.name ++ "\x7bgroup=\"" ++ escape true group ++ "\"\x7d " ++
    (Binary64.ofNat sample.toNat).positional

def Family.lines (f : Family) : List String :=
  helpLine f :: typeLine f :: f.samples.map fun (group, sample) => sampleLine f group sample

/-- The lines of families, none of which may be without samples. -/
def encode (fs : List Family) : Except Fault (List String) := do
  let pages ← fs.mapM fun f =>
    if f.samples.isEmpty then .error (.noSamples f.name) else .ok f.lines
  pure pages.flatten

/-! ### The page -/

/-- The registered families of statistics, if all can be registered. -/
def collect (stats : List Stats) : Except Fault (Registry Family) :=
  (families stats).foldlM register .empty

/-- What is shown of families is a text, and why they cannot be shown is a fault inside. -/
def textOf : Except Fault (List String) → Except CacheError String
  | .ok lines => .ok (String.join (lines.map (· ++ "\n")))
  | .error fault => .error (.internal ("metrics: " ++ fault.message))

/-- The text of statistics, or why there is none. -/
def render (stats : List Stats) : Except CacheError String :=
  textOf (collect stats >>= fun r => encode (gather r))

/-- What the page says: the text, or the fault in words. -/
def page (stats : List Stats) : String :=
  match render stats with
  | .ok text => text
  | .error e => e.message

def contentType : String := "text/plain; version=0.0.4"

def respond : Except CacheError String → Http.Response
  | .ok text => ⟨200, some contentType, .ofString text⟩
  | .error e => .text 500 e.message

/-- Answers a request for the page. -/
def handle (target : Http.Target) (stats : List Stats) : Http.Response :=
  if target.path = "/metrics" then respond (render stats) else .text 404 "not found"

end RingCache.Metrics

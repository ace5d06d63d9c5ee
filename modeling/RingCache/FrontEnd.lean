import RingCache.CacheError
import RingCache.Group.Counters
import RingCache.Http
import RingCache.Text.Form

/-!
# The front end: one group for clients

The front end answers `GET` requests: `/api` with a field `key` for a value of its group,
`/api/stats` for the statistics of all groups, and `/healthz` for a sign of life.
-/

namespace RingCache.FrontEnd

/-- What a request asks the front end for. -/
inductive Route where
  | methodNotAllowed
  /-- the value of a key -/
  | value (key : String)
  /-- a value, but of no key -/
  | keyMissing
  /-- the statistics of all groups -/
  | statistics
  /-- a sign of life -/
  | health
  | notFound (path : String)
  deriving DecidableEq

def route (r : Http.Request) : Route :=
  if !r.isGet then .methodNotAllowed
  else
    match r.target.path with
    | "/api" =>
      match r.target.query.bind (Text.Form.field? "key") with
      | some key => .value key
      | none => .keyMissing
    | "/api/stats" => .statistics
    | "/healthz" => .health
    | path => .notFound path

def statistics (stats : List Stats) : Http.Response := .json (.array (stats.map Stats.json))

/-- What a look-up comes to: the bytes of the value, or the failure in words. -/
def answer (outcome : Except CacheError Value) : Http.Response :=
  match outcome with
  | .ok value => .octets value
  | .error e => .text 500 e.message

end RingCache.FrontEnd

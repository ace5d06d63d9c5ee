import RingCache.Json
import RingCache.Text.Parts
import RingCache.Value

/-!
# Requests and responses

What a handler sees of a request is its method and its target, a path with an optional query; what
it answers is a status, a kind of content and a body. Errors are answered as plain text.
-/

namespace RingCache.Http

/-- What a request asks for. -/
structure Target where
  path : String
  query : Option String
  deriving DecidableEq

namespace Target

/-- The path and the query of what follows the host: a fragment is dropped, the query begins at the
first question mark, and no path at all is the path `/`. -/
def ofLocal (cs : List Char) : Target :=
  let (unmarked, _) := Text.cut '#' cs
  let (path, query) := Text.cut '?' unmarked
  ⟨if path.isEmpty then "/" else String.ofList path, query.map String.ofList⟩

/-- The rest of a list after `://`, if that stands in it. -/
def afterScheme? : List Char → Option (List Char)
  | [] => none
  | ':' :: '/' :: '/' :: rest => some rest
  | _ :: rest => afterScheme? rest

/-- The target that a request line gives: a path with an optional query, or a whole address, whose
host is passed over. A bare host has no path. -/
def parse (s : String) : Target :=
  match s.toList with
  | '/' :: rest => ofLocal ('/' :: rest)
  | ['*'] => ⟨"*", none⟩
  | cs =>
    match afterScheme? cs with
    | some rest => ofLocal (rest.dropWhile fun c => c ≠ '/' && c ≠ '?' && c ≠ '#')
    | none => ⟨"", none⟩

end Target

/-- A request, as far as handlers look at it. -/
structure Request where
  method : String
  target : Target

/-- Reading is the only thing that a request may ask for. -/
def Request.isGet (r : Request) : Bool := r.method == "GET"

/-- An answer to a request. -/
structure Response where
  status : UInt16
  contentType : Option String
  body : Value
  deriving DecidableEq

namespace Response

/-- Plain text; every error is answered so. -/
def text (status : UInt16) (body : String) : Response :=
  ⟨status, some "text/plain; charset=utf-8", .ofString body⟩

def octets (body : Value) : Response := ⟨200, some "application/octet-stream", body⟩

/-- A value of the data format, or the fault that it has no text. -/
def json (body : Json) : Response :=
  match body.render with
  | .ok rendered => ⟨200, some "application/json", .ofString rendered⟩
  | .error fault => text 500 fault.message

def methodNotAllowed : Response := text 405 "method not allowed"

def malformed : Response := ⟨400, none, .empty⟩

end RingCache.Http.Response

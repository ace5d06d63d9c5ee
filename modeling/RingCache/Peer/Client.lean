import RingCache.Http
import RingCache.Text.Percent

/-!
# Asking a peer

A client asks one peer for values: the address is the peer, the base path, the group and the key,
the latter two percent encoded. What follows the authority in this address is asked for, so that the
peer has a part in the path unless it is a scheme and an authority alone. Before a request is sent,
its path is put in order as for any address: a segment of one dot is dropped, and one of two dots
takes the segment before it away.
-/

namespace RingCache.Peer

/-- The base path of nodes that are not told another one. -/
def defaultBasePath : String := "/_geecache/"

/-- How one peer is asked. -/
structure Client where
  peer : String
  basePath : String
  deriving DecidableEq

namespace Client

/-- The path of a key of a group, as it is written. -/
def path (c : Client) (group key : String) : String :=
  c.basePath ++ Text.Percent.encode group ++ "/" ++ Text.Percent.encode key

/-- The address of a key of a group at the peer. -/
def url (c : Client) (group key : String) : String := c.peer ++ c.path group key

end Client

/-! ### Paths in order -/

/-- Follows the segments of a path, over those that have been kept so far, last one first. A path
that ends in a segment of dots ends in an empty one. -/
def follow : List String → List String → List String
  | kept, [] => kept.reverse
  | kept, ".." :: rest =>
    let kept := kept.drop 1
    follow (if rest.isEmpty then "" :: kept else kept) rest
  | kept, "." :: rest => follow (if rest.isEmpty then "" :: kept else kept) rest
  | kept, segment :: rest => follow (segment :: kept) rest

/-- The path that a written path leads to: no segment is dots. -/
def orderly (path : String) : String :=
  match Text.split '/' path with
  | first :: rest => "/".intercalate (first :: follow [] rest)
  | [] => path

/-- The target of the request that a client sends for a key of a group: that of the address, with
its path in order. -/
def Client.target (c : Client) (group key : String) : Http.Target :=
  let written := Http.Target.parse (c.url group key)
  { written with path := orderly written.path }

end RingCache.Peer

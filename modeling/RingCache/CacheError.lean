import RingCache.Text.Outline

/-!
# Causes of failure

Every operation that can fail says why with a `CacheError`; the wording is in `message`. A caller
that can go on without its peers asks `isPeerFailure`.
-/

namespace RingCache

/-- Why an operation failed. -/
inductive CacheError where
  /-- the caller's argument cannot be used -/
  | invalidArgument (reason : String)
  /-- the configuration cannot be used -/
  | config (reason : String)
  /-- no group of that name is registered -/
  | groupNotFound (name : String)
  /-- no answer came from a peer -/
  | transport (peer reason : String)
  /-- a peer answered, but with a status other than success -/
  | peerStatus (peer : String) (status : UInt16)
  /-- the origin of the data refused or failed -/
  | loader (reason : String)
  /-- a listener failed -/
  | server (reason : String)
  /-- anything else -/
  | internal (reason : String)
  deriving DecidableEq

namespace CacheError

/-- The cause in words. What the origin says is passed on as it is. -/
def message : CacheError → String
  | .invalidArgument reason => "Invalid argument: " ++ reason
  | .config reason => "Configuration error: " ++ reason
  | .groupNotFound name => "Group not found: " ++ name
  | .transport peer reason => "Peer " ++ peer ++ " unreachable: " ++ reason
  | .peerStatus peer status => "Peer " ++ peer ++ " returned status " ++ toString status.toNat
  | .loader reason => reason
  | .server reason => "Server error: " ++ reason
  | .internal reason => "Internal error: " ++ reason

def kind : CacheError → String
  | .invalidArgument _ => "InvalidArgument"
  | .config _ => "Config"
  | .groupNotFound _ => "GroupNotFound"
  | .transport .. => "Transport"
  | .peerStatus .. => "PeerStatus"
  | .loader _ => "Loader"
  | .server _ => "Server"
  | .internal _ => "Internal"

def outline (e : CacheError) : Outline :=
  match e with
  | .transport peer reason =>
    .record e.kind [("peer", .text peer), ("reason", .text reason)]
  | .peerStatus peer status =>
    .record e.kind [("peer", .text peer), ("status", .nat status.toNat)]
  | .invalidArgument reason | .config reason | .groupNotFound reason | .loader reason
  | .server reason | .internal reason => .variant e.kind [.text reason]

/-- Whether a peer is to blame, so that the local origin may still answer. -/
def isPeerFailure : CacheError → Bool
  | .transport .. | .peerStatus .. => true
  | _ => false

end RingCache.CacheError

import RingCache.CacheError
import RingCache.Net.SocketAddress

/-!
# The machine a node runs on

A machine opens listeners at socket addresses of its own. Where its network interfaces are up these
are the loopback and the wildcard addresses. Where none is up the machine has no table of own
addresses, so that any address of version 4 may be listened at, but of version 6 only the wildcard;
and no connection can be made, not even to itself.

Two listeners conflict if they share a port other than zero and have the same address, or one of
them has a wildcard address. Port zero stands for any free port.
-/

namespace RingCache.Net

/-- Whether the network interfaces of a machine are up. -/
inductive Link where
  | up
  | down
  deriving DecidableEq

/-- Why a listener cannot be opened. -/
inductive BindFault where
  /-- another listener has the address -/
  | inUse
  /-- it is not an address of the machine -/
  | notOwn
  /-- it needs the number of an interface, or no listener can have it -/
  | unsuitable
  /-- there is no interface of that number -/
  | noInterface
  deriving DecidableEq

def BindFault.message : BindFault → String
  | .inUse => "Address already in use (os error 98)"
  | .notOwn => "Cannot assign requested address (os error 99)"
  | .unsuitable => "Invalid argument (os error 22)"
  | .noInterface => "No such device (os error 19)"

namespace Ip

/-- The address of version 4 that an address of version 6 wraps, or the address itself. -/
def unwrapped : Ip → Ip
  | .v6 [0, 0, 0, 0, 0, 0xFFFF, g, h] _ =>
    .v4 (g / 256).toUInt8 (g % 256).toUInt8 (h / 256).toUInt8 (h % 256).toUInt8
  | ip => ip

/-- Whether the address stands for all addresses of the machine. -/
def isWildcard (ip : Ip) : Bool :=
  match ip.unwrapped with
  | .v4 0 0 0 0 => true
  | .v4 .. => false
  | .v6 groups _ => groups.all (· == 0)

/-- Whether a listener at the address can be opened on a machine of which no other listener is
known. -/
def own (link : Link) (ip : Ip) : Except BindFault Unit :=
  match ip.unwrapped with
  | .v4 a _ _ _ =>
    if link = .down ∨ ip.isWildcard ∨ a = 127 then .ok () else .error .notOwn
  | .v6 groups scope =>
    let first := (groups.head?.getD 0).toNat
    if ip.isWildcard then .ok ()
    else if 0xFF00 ≤ first then .error .unsuitable
    else if first / 64 = 0xFE80 / 64 then
      if scope = 0 then .error .unsuitable
      else if scope = 1 then .error .notOwn
      else .error .noInterface
    else if link = .up ∧ groups = [0, 0, 0, 0, 0, 0, 0, 1] then .ok ()
    else .error .notOwn

end Ip

/-- Whether two listeners cannot be open at the same time. -/
def SocketAddress.conflicts (a b : SocketAddress) : Bool :=
  a.port != 0 && a.port == b.port &&
    (a.ip.isWildcard || b.ip.isWildcard || a.ip.unwrapped == b.ip.unwrapped)

/-- A machine and its open listeners. -/
structure Host where
  link : Link
  listeners : List SocketAddress

namespace Host

def fresh (link : Link) : Host := ⟨link, []⟩

def listen (h : Host) (a : SocketAddress) : Except BindFault Host := do
  a.ip.own h.link
  if h.listeners.any a.conflicts then throw .inUse
  pure { h with listeners := a :: h.listeners }

/-- Opens a listener at an address that is given as text. -/
def bind (h : Host) (addr : String) : Except CacheError (SocketAddress × Host) :=
  match SocketAddress.parse? addr with
  | none => .error (.config s!"Invalid listen address {addr}: invalid socket address syntax")
  | some a =>
    match h.listen a with
    | .ok h => .ok (a, h)
    | .error fault => .error (.server s!"Failed to bind {a.text}: {fault.message}")

end RingCache.Net.Host

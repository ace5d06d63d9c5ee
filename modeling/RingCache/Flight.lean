import RingCache.CacheError

/-!
# Flights: one load per key at a time

Whoever asks for a key that nobody is loading becomes the *leader* of a new flight and loads it; who
asks for it meanwhile becomes a *waiter* of that flight and gets the outcome of the leader, failures
included. A flight ends when its leader lands with an outcome or is given up, and from then on the
key is free again: no outcome is kept for later callers.

Each flight has a ticket, the count of earlier flights, under which its waiters find its outcome.
-/

namespace RingCache

/-- How far a flight has come. -/
inductive Flights.Phase (α : Type) where
  /-- the leader is still loading -/
  | airborne
  /-- the leader has its outcome -/
  | landed (outcome : Except CacheError α)
  /-- the leader was given up -/
  | lost

/-- The flights of all keys. -/
structure Flights (α : Type) where
  /-- the keys that are being loaded, each with the ticket of its flight -/
  live : List (String × Nat)
  /-- the phase of each flight, by ticket -/
  phases : Array (Flights.Phase α)

namespace Flights

variable {α : Type}

def empty : Flights α := ⟨[], #[]⟩

/-- The part that a caller plays in a flight. -/
inductive Role where
  | leader (ticket : Nat)
  | waiter (ticket : Nat)
  deriving DecidableEq

/-- Joins the flight of `key`, or begins one. -/
def join (f : Flights α) (key : String) : Role × Flights α :=
  match f.live.lookup key with
  | some ticket => (.waiter ticket, f)
  | none =>
    let ticket := f.phases.size
    (.leader ticket, ⟨(key, ticket) :: f.live, f.phases.push .airborne⟩)

/-- The key for which a flight is live. -/
def key? (f : Flights α) (ticket : Nat) : Option String :=
  (f.live.find? fun e => e.2 == ticket).map Prod.fst

/-- What is still being loaded once a key is free. -/
def free (f : Flights α) (key : String) : List (String × Nat) := f.live.filter fun e => e.1 != key

/-- Ends a flight in the given phase, which frees its key. -/
def finish (f : Flights α) (ticket : Nat) (phase : Phase α) : Flights α where
  live := (f.key? ticket).elim f.live f.free
  phases := f.phases.setIfInBounds ticket phase

def land (f : Flights α) (ticket : Nat) (outcome : Except CacheError α) : Flights α :=
  f.finish ticket (.landed outcome)

/-- The leader is given up. -/
def abandon (f : Flights α) (ticket : Nat) : Flights α := f.finish ticket .lost

/-- What waiters get whose leader was given up. -/
def abandoned : CacheError := .internal "in-flight call abandoned"

/-- What a waiter gets, once the flight has ended. -/
def outcome? (f : Flights α) (ticket : Nat) : Option (Except CacheError α) :=
  match f.phases[ticket]? with
  | some .airborne => none
  | some (.landed outcome) => some outcome
  | some .lost => some (.error abandoned)
  | none => none

/-- The number of keys that are being loaded. -/
def inFlight (f : Flights α) : Nat := f.live.length

end RingCache.Flights

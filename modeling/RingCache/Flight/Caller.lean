import RingCache.Bench
import RingCache.Flight

/-!
# Callers of flights on the bench

A caller asks for a key. As a leader it makes the load, a call that is answered by hand, or one that
is answered at once; as a waiter it waits for the outcome of its leader. It comes to an outcome and,
unless it does not care, to whether that outcome was shared with it.
-/

namespace RingCache.Flights

/-- A caller and how far it has come. -/
inductive Caller (α : Type := Value) where
  /-- it has not asked yet; `instant` is the answer of its load where that comes at once -/
  | fresh (key : String) (instant : Option (Answer α)) (tellsShared : Bool)
  /-- it leads the flight of `ticket` and waits for its load -/
  | leading (ticket call : Nat) (tellsShared : Bool)
  /-- it waits for the flight of `ticket` -/
  | waiting (ticket : Nat) (tellsShared : Bool)

/-- What a caller comes to. -/
structure Caller.Result (α : Type := Value) where
  outcome : Answer α
  /-- whether another caller made the load; none where the caller does not care -/
  shared : Option Bool

namespace Caller

variable {α : Type}

/-- A result that tells whether it was shared only to those who ask. -/
def result (outcome : Answer α) (shared tellsShared : Bool) : Result α :=
  ⟨outcome, if tellsShared then some shared else none⟩

/-- A waiter looks whether its flight has ended. -/
def await (flights : Flights α) (ticket : Nat) (tellsShared : Bool) : Caller α ⊕ Result α :=
  match flights.outcome? ticket with
  | none => .inl (.waiting ticket tellsShared)
  | some outcome => .inr (result outcome true tellsShared)

def resume (flights : Flights α) (gates : Gates α) :
    Caller α → Flights α × Gates α × (Caller α ⊕ Result α)
  | .fresh key instant tellsShared =>
    match flights.join key with
    | (.waiter ticket, flights) => (flights, gates, await flights ticket tellsShared)
    | (.leader ticket, flights) =>
      let (call, gates) := gates.place key
      match instant with
      | some outcome => (flights.land ticket outcome, gates, .inr (result outcome false tellsShared))
      | none => (flights, gates, .inl (.leading ticket call tellsShared))
  | .leading ticket call tellsShared =>
    match gates.answer? call with
    | none => (flights, gates, .inl (.leading ticket call tellsShared))
    | some outcome => (flights.land ticket outcome, gates, .inr (result outcome false tellsShared))
  | .waiting ticket tellsShared => (flights, gates, await flights ticket tellsShared)

/-- Gives a caller up. Only a leader leaves something behind. -/
def abandon (flights : Flights α) : Caller α → Flights α
  | .leading ticket _ _ => flights.abandon ticket
  | _ => flights

instance : Resumable (Flights α) (Caller α) (Result α) α := ⟨resume, abandon⟩

end RingCache.Flights.Caller

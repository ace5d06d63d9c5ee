import Std.Data.HashMap
import RingCache.Ring.Hash
import RingCache.Text.Outline

/-!
# The ring: which node owns a key

Each node takes a number of positions on a circle of `2^32` points: position `i` is the hash of the
decimal text of `i` followed by the name of the node. A key belongs to the node at the first
position at or after the hash of the key, past the largest position to the smallest one. Where
several positions fall together, the node that was added last has the point.

`positions` is kept sorted, with repetitions, and is searched by halving.
-/

namespace RingCache

/-- Nodes on a circle. -/
structure Ring where
  hash : Ring.Hash
  /-- how many positions each node takes -/
  replicas : Nat
  /-- all positions, in increasing order and with repetitions -/
  positions : Array UInt32
  /-- the node at each position -/
  owners : Std.HashMap UInt32 String

namespace Ring

def empty (hash : Hash) (replicas : Nat) : Ring := ⟨hash, replicas, #[], ∅⟩

def position (hash : Hash) (node : String) (i : Nat) : UInt32 :=
  hash (toString i ++ node).toUTF8

/-- The positions of a node in order. -/
def placesOf (r : Ring) (node : String) : List UInt32 :=
  (List.range r.replicas).map (position r.hash node)

/-- Adds nodes in order. A node that is added again takes its positions again. -/
def add (r : Ring) (nodes : List String) : Ring :=
  let places := nodes.flatMap fun node => (r.placesOf node).map fun p => (p, node)
  { r with
    positions :=
      ((r.positions.toList ++ places.map Prod.fst).mergeSort (fun a b => decide (a ≤ b))).toArray
    owners := places.foldl (fun owners (p, node) => owners.insert p node) r.owners }

/-- The least index from `lo` up to `hi` whose position is not below `point`. Each step halves the
stretch, so `fuel` may be any number with `hi - lo < 2 ^ fuel`. -/
def search (positions : Array UInt32) (point : UInt32) : Nat → Nat → Nat → Nat
  | 0, lo, _ => lo
  | fuel + 1, lo, hi =>
    if lo < hi then
      let mid := (lo + hi) / 2
      match positions[mid]? with
      | none => lo
      | some p =>
        if p < point then search positions point fuel (mid + 1) hi
        else search positions point fuel lo mid
    else lo

/-- The number of positions below `point`. -/
def below (r : Ring) (point : UInt32) : Nat :=
  search r.positions point (r.positions.size.log2 + 1) 0 r.positions.size

/-- The node that owns `key`; none where there are no positions. -/
def owner? (r : Ring) (key : String) : Option String := do
  let place ← r.positions[r.below (r.hash key.toUTF8) % r.positions.size]?
  r.owners[place]?

/-- The number of positions, with repetitions. -/
def size (r : Ring) : Nat := r.positions.size

def isEmpty (r : Ring) : Bool := r.positions.isEmpty

/-- A sorted list without its repetitions. -/
def distinct : List String → List String
  | [] => []
  | [a] => [a]
  | a :: b :: rest => if a = b then distinct (b :: rest) else a :: distinct (b :: rest)

/-- The texts of a list in increasing order, each once. -/
def sortedDistinct (names : List String) : List String :=
  distinct (names.mergeSort (fun a b => decide (a ≤ b)))

/-- The nodes that own a position, in increasing order. -/
def nodes (r : Ring) : List String := sortedDistinct r.owners.values

def outline (r : Ring) : Outline :=
  .record "HashRing" [("replicas", .nat r.replicas), ("positions", .nat r.size),
    ("nodes", .list (r.nodes.map .text))]

end RingCache.Ring

import RingCache.Group

/-!
# A whole look-up

`lookUp` carries one look-up from its first stage to its outcome. The group stands in a surrounding
state `m`, which the answers of peers and of the origin may change; so the group is read anew after
each of them. The peer is asked at most once, and the origin only where no peer gives a value.

A look-up that joins a flight under way has no outcome here: its leader waits for it in turn.
-/

namespace RingCache.Group

variable {m : Type → Type} [Monad m] {π ρ : Type}

/-- What a look-up needs of its surroundings. -/
structure Surroundings (m : Type → Type) (π ρ : Type) where
  read : m (Group π)
  write : Group π → m Unit
  /-- asks a peer for the key -/
  fetch : ρ → m (Except CacheError Value)
  /-- asks the origin for the key -/
  load : m (Except CacheError Value)

/-- The part of a look-up that asks the origin. -/
def loadFrom (s : Surroundings m π ρ) (key : String) (ticket : Nat) :
    m (Option (Except CacheError Value)) := do
  let answer ← s.load
  let (_, g) := ((← s.read).afterLoad key ticket answer : Stage ρ × Group π)
  s.write g
  pure (some answer)

/-- A look-up from its beginning to its outcome. -/
def lookUp (s : Surroundings m π ρ) (pick : π → String → Option ρ) (key : String) :
    m (Option (Except CacheError Value)) := do
  let (stage, g) := (← s.read).start pick key
  s.write g
  match stage with
  | .done outcome => pure (some outcome)
  | .waiting _ => pure none
  | .loading ticket => loadFrom s key ticket
  | .fetching ticket route =>
    let answer ← s.fetch route
    let (stage, g) := ((← s.read).afterFetch ticket answer : Stage ρ × Group π)
    s.write g
    match stage with
    | .done outcome => pure (some outcome)
    | _ => loadFrom s key ticket

end RingCache.Group

import RingCache.Bench
import RingCache.Group

/-!
# Look-ups on the bench

Look-ups in one group, whose peers and whose origin are calls that are answered by hand. A call is
labelled `peer:` or `load:` and the key. Which keys have a peer is up to a picker, whose choice may
change with the number of calls that were made before.
-/

namespace RingCache.Group

/-- A look-up and how far it has come. -/
inductive Lookup where
  /-- it has not begun -/
  | fresh (key : String)
  /-- it leads a flight and waits for a call to its peer -/
  | fetching (key : String) (ticket call : Nat)
  /-- it leads a flight and waits for a call to the origin -/
  | loading (key : String) (ticket call : Nat)
  /-- it waits for the leader of a flight -/
  | waiting (ticket : Nat)

namespace Lookup

/-- Whether a key has a peer, after so many calls. -/
abbrev Picker := Nat → String → Bool

/-- The keys with a given beginning have a peer. -/
def Picker.beginning (text : String) : Picker := fun _ key =>
  text.toList.isPrefixOf key.toList

/-- A group on the bench. -/
abbrev Shared := Group Picker

def pick (calls : Nat) (picker : Picker) (key : String) : Option Unit :=
  if picker calls key then some () else none

/-- Makes the call that a stage waits for. -/
def enter (key : String) (gates : Gates) :
    Stage Unit × Shared → Shared × Gates × (Lookup ⊕ Answer)
  | (.done outcome, g) => (g, gates, .inr outcome)
  | (.fetching ticket (), g) =>
    let (call, gates) := gates.place ("peer:" ++ key)
    (g, gates, .inl (.fetching key ticket call))
  | (.loading ticket, g) =>
    let (call, gates) := gates.place ("load:" ++ key)
    (g, gates, .inl (.loading key ticket call))
  | (.waiting ticket, g) => (g, gates, .inl (.waiting ticket))

def resume (g : Shared) (gates : Gates) : Lookup → Shared × Gates × (Lookup ⊕ Answer)
  | .fresh key => enter key gates (g.start (pick gates.calls.size) key)
  | .fetching key ticket call =>
    match gates.answer? call with
    | none => (g, gates, .inl (.fetching key ticket call))
    | some answer => enter key gates (g.afterFetch ticket answer)
  | .loading key ticket call =>
    match gates.answer? call with
    | none => (g, gates, .inl (.loading key ticket call))
    | some answer => enter key gates (g.afterLoad key ticket answer)
  | .waiting ticket =>
    match (g.await ticket : Stage Unit × Shared) with
    | (.done outcome, g) => (g, gates, .inr outcome)
    | (_, g) => (g, gates, .inl (.waiting ticket))

def abandon (g : Shared) : Lookup → Shared
  | .fetching _ ticket _ => g.abandon (.fetching ticket ())
  | .loading _ ticket _ => g.abandon (.loading ticket : Stage Unit)
  | _ => g

instance : Resumable Shared Lookup Answer := ⟨resume, abandon⟩

end RingCache.Group.Lookup

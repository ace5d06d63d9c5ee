import Mathlib.Tactic.Common
import RingCache.Group.Lookup
import RingCache.Proofs.Flight.Crew

/-!
# The turns of a look-up

`Turn` lists what a look-up may do when it takes its turn, with everything that happens to the group
and to the calls. Look-ups are a crew (`Lookup.crew`): those that find nothing in the cache take
part in flights.

What is proved of look-ups elsewhere goes through `resume_turn` and never opens `Lookup.resume`.
-/

namespace RingCache.Group.Lookup

open Flights Bench

/-- Adds to the counters of a group. -/
def counting (g : Shared) (f : Counters → Counters) : Shared := { g with counters := f g.counters }

/-- One turn of a look-up: the group and the calls before it, the look-up, and what it leaves. -/
inductive Turn (g : Shared) (gates : Gates) : Lookup → Shared → Gates → Lookup ⊕ Answer → Prop where
  /-- without a key there is nothing to find -/
  | refused {key : String} (hempty : key.isEmpty = true) :
      Turn g gates (.fresh key) (counting g fun n => { n with gets := n.gets + 1 }) gates
        (.inr (.error keyRequired))
  | found {key : String} {value : Value} {cache : Cache} (hempty : ¬ key.isEmpty = true)
      (hcache : g.cache.get key = (some value, cache)) :
      Turn g gates (.fresh key)
        { counting g fun n => { n with gets := n.gets + 1, cacheHits := n.cacheHits + 1 } with
          cache := cache }
        gates (.inr (.ok value))
  | joins {key : String} {ticket : Nat} {cache : Cache} (hempty : ¬ key.isEmpty = true)
      (hcache : g.cache.get key = (none, cache))
      (hlive : g.flights.live.lookup key = some ticket) :
      Turn g gates (.fresh key)
        { counting g fun n => { n with gets := n.gets + 1, loads := n.loads + 1 } with
          cache := cache }
        gates (.inl (.waiting ticket))
  | asksPeer {key : String} {cache : Cache} (hempty : ¬ key.isEmpty = true)
      (hcache : g.cache.get key = (none, cache)) (hlive : g.flights.live.lookup key = none) :
      Turn g gates (.fresh key)
        { counting g fun n => { n with gets := n.gets + 1, loads := n.loads + 1 } with
          cache := cache
          flights := g.flights.board key }
        (gates.place ("peer:" ++ key)).2
        (.inl (.fetching key g.flights.phases.size gates.calls.size))
  | asksOrigin {key : String} {cache : Cache} (hempty : ¬ key.isEmpty = true)
      (hcache : g.cache.get key = (none, cache)) (hlive : g.flights.live.lookup key = none) :
      Turn g gates (.fresh key)
        { counting g fun n => { n with gets := n.gets + 1, loads := n.loads + 1 } with
          cache := cache
          flights := g.flights.board key }
        (gates.place ("load:" ++ key)).2
        (.inl (.loading key g.flights.phases.size gates.calls.size))
  | stillFetching {key : String} {ticket call : Nat} (hanswer : gates.answer? call = none) :
      Turn g gates (.fetching key ticket call) g gates (.inl (.fetching key ticket call))
  | fetched {key : String} {ticket call : Nat} {value : Value}
      (hanswer : gates.answer? call = some (.ok value)) :
      Turn g gates (.fetching key ticket call)
        { counting g fun n => { n with peerLoads := n.peerLoads + 1 } with
          flights := g.flights.land ticket (.ok value) }
        gates (.inr (.ok value))
  | fallsBack {key : String} {ticket call : Nat} {e : CacheError}
      (hanswer : gates.answer? call = some (.error e)) :
      Turn g gates (.fetching key ticket call)
        (counting g fun n => { n with peerErrors := n.peerErrors + 1 })
        (gates.place ("load:" ++ key)).2 (.inl (.loading key ticket gates.calls.size))
  | stillLoading {key : String} {ticket call : Nat} (hanswer : gates.answer? call = none) :
      Turn g gates (.loading key ticket call) g gates (.inl (.loading key ticket call))
  | loaded {key : String} {ticket call : Nat} {value : Value}
      (hanswer : gates.answer? call = some (.ok value)) :
      Turn g gates (.loading key ticket call)
        { counting g fun n => { n with localLoads := n.localLoads + 1 } with
          cache := g.cache.add key value
          flights := g.flights.land ticket (.ok value) }
        gates (.inr (.ok value))
  | failed {key : String} {ticket call : Nat} {e : CacheError}
      (hanswer : gates.answer? call = some (.error e)) :
      Turn g gates (.loading key ticket call)
        { counting g fun n => { n with localLoadErrs := n.localLoadErrs + 1 } with
          flights := g.flights.land ticket (.error e) }
        gates (.inr (.error e))
  | stillWaiting {ticket : Nat} (houtcome : g.flights.outcome? ticket = none) :
      Turn g gates (.waiting ticket) g gates (.inl (.waiting ticket))
  | shared {ticket : Nat} {outcome : Answer} (houtcome : g.flights.outcome? ticket = some outcome) :
      Turn g gates (.waiting ticket)
        (counting g fun n => { n with loadsDeduped := n.loadsDeduped + 1 }) gates (.inr outcome)

variable {g g' : Shared} {gates gates' : Gates} {task : Lookup} {next : Lookup ⊕ Answer}

/-- **Each turn of a look-up** is one of those that `Turn` lists. -/
theorem resume_turn (hsound : g.flights.Sound)
    (h : resume g gates task = (g', gates', next)) : Turn g gates task g' gates' next := by
  cases task with
  | fresh key =>
    simp only [resume, Group.start] at h
    by_cases hempty : key.isEmpty = true
    · rw [if_pos hempty] at h
      cases h
      exact .refused hempty
    · rw [if_neg hempty] at h
      rcases hcache : g.cache.get key with ⟨found, cache⟩
      rw [hcache] at h
      cases found with
      | some value =>
        cases h
        exact .found hempty hcache
      | none =>
        cases hlive : g.flights.live.lookup key with
        | some ticket =>
          -- a live flight has no outcome, so that nobody shares one in its first turn
          have hnone := hsound.outcome?_live (hsound.lookup_eq_some.mp hlive)
          simp only [load, join_of_some hlive, await, hnone] at h
          cases h
          exact .joins hempty hcache hlive
        | none =>
          simp only [load, join_of_none hlive] at h
          cases hpeer : g.peers.bind (fun peers => pick gates.calls.size peers key) with
          | some route =>
            rw [hpeer] at h
            cases h
            exact .asksPeer hempty hcache hlive
          | none =>
            rw [hpeer] at h
            cases h
            exact .asksOrigin hempty hcache hlive
  | fetching key ticket call =>
    simp only [resume] at h
    cases hanswer : gates.answer? call with
    | none =>
      rw [hanswer] at h
      cases h
      exact .stillFetching hanswer
    | some answer =>
      rw [hanswer] at h
      cases answer with
      | ok value =>
        cases h
        exact .fetched hanswer
      | error e =>
        cases h
        exact .fallsBack hanswer
  | loading key ticket call =>
    simp only [resume] at h
    cases hanswer : gates.answer? call with
    | none =>
      rw [hanswer] at h
      cases h
      exact .stillLoading hanswer
    | some answer =>
      rw [hanswer] at h
      cases answer with
      | ok value =>
        cases h
        exact .loaded hanswer
      | error e =>
        cases h
        exact .failed hanswer
  | waiting ticket =>
    simp only [resume, await] at h
    cases houtcome : g.flights.outcome? ticket with
    | none =>
      rw [houtcome] at h
      cases h
      exact .stillWaiting houtcome
    | some outcome =>
      rw [houtcome] at h
      cases h
      exact .shared houtcome

/-- A look-up that waits for the origin waited for the same call before, or made the call in this
turn. -/
theorem Turn.loads {key : String} {ticket call : Nat}
    (h : Turn g gates task g' gates' (.inl (.loading key ticket call))) :
    (task = .loading key ticket call ∧ gates.answer? call = none) ∨
      (∀ t c, task ≠ .loading key t c) ∧ call = gates.calls.size ∧
        gates' = (gates.place ("load:" ++ key)).2 := by
  cases h with
  | asksOrigin hempty hcache hlive => exact .inr ⟨nofun, rfl, rfl⟩
  | fallsBack hanswer => exact .inr ⟨nofun, rfl, rfl⟩
  | stillLoading hanswer => exact .inl ⟨rfl, hanswer⟩

/-! ### Look-ups as a crew -/

/-- A look-up begins with its key. -/
instance : Asking String Lookup := ⟨.fresh⟩

/-- The role that a look-up plays once it takes part in a flight. -/
def role : Lookup → Option Role
  | .fresh _ => none
  | .fetching _ ticket _ | .loading _ ticket _ => some (.leader ticket)
  | .waiting ticket => some (.waiter ticket)

/-- A look-up that waits for what `key` leads to. -/
inductive Suits (key : String) : Lookup → Prop where
  | fetching (ticket call : Nat) : Suits key (.fetching key ticket call)
  | loading (ticket call : Nat) : Suits key (.loading key ticket call)
  | waiting (ticket : Nat) : Suits key (.waiting ticket)

/-- How look-ups take part in flights. Those without a key do not, nor those that the cache
answers. -/
def crew : Crew Shared Lookup Answer String Value where
  key := id
  role := role
  tell _ _ outcome := outcome
  suits := Suits
  flights := Group.flights
  served g key := key.isEmpty = true ∨ (g.cache.get key).1.isSome = true
  plays_role := by
    rintro ask task (⟨ticket, call⟩ | ⟨ticket, call⟩ | ⟨ticket⟩)
    · exact ⟨_, rfl⟩
    · exact ⟨_, rfl⟩
    · exact ⟨_, rfl⟩
  begins := by
    intro g gates key g' gates' next hsound hresume
    have hturn := resume_turn hsound hresume
    have hmissed : ∀ {cache : Cache}, ¬ key.isEmpty = true → g.cache.get key = (none, cache) →
        ¬ (key.isEmpty = true ∨ (g.cache.get key).1.isSome = true) := by
      rintro cache hempty hcache (h | h)
      · exact hempty h
      · rw [hcache] at h
        cases h
    change Turn g gates (.fresh key) g' gates' next at hturn
    cases hturn with
    | refused hempty => exact ⟨_, .aside, .aside _, fun _ => .inl hempty, fun _ => rfl⟩
    | found hempty hcache =>
      exact ⟨_, .aside, .aside _, fun _ => .inr (by rw [hcache]; rfl), fun _ => rfl⟩
    | joins hempty hcache hlive =>
      exact ⟨_, .follow hlive, .plays (.waiting _) rfl, nofun,
        fun h => absurd h (hmissed hempty hcache)⟩
    | asksPeer hempty hcache hlive =>
      exact ⟨_, .lead hlive, .plays (.fetching _ _) rfl, nofun,
        fun h => absurd h (hmissed hempty hcache)⟩
    | asksOrigin hempty hcache hlive =>
      exact ⟨_, .lead hlive, .plays (.loading _ _) rfl, nofun,
        fun h => absurd h (hmissed hempty hcache)⟩
  turns := by
    intro g gates key task r g' gates' next hsound hsuits hrole hresume
    have hturn := resume_turn hsound hresume
    cases hsuits with
    | fetching ticket call =>
      cases hrole
      cases hturn with
      | stillFetching hanswer => exact ⟨_, .fly ticket, .plays (.fetching _ _) rfl⟩
      | @fetched key ticket call value hanswer =>
        exact ⟨_, .land ticket (.ok value), .told false (.ok value)⟩
      | fallsBack hanswer => exact ⟨_, .fly ticket, .plays (.loading _ _) rfl⟩
    | loading ticket call =>
      cases hrole
      cases hturn with
      | stillLoading hanswer => exact ⟨_, .fly ticket, .plays (.loading _ _) rfl⟩
      | @loaded key ticket call value hanswer =>
        exact ⟨_, .land ticket (.ok value), .told false (.ok value)⟩
      | @failed key ticket call e hanswer =>
        exact ⟨_, .land ticket (.error e), .told false (.error e)⟩
    | waiting ticket =>
      cases hrole
      cases hturn with
      | stillWaiting houtcome => exact ⟨_, .wait houtcome, .plays (.waiting _) rfl⟩
      | @shared ticket outcome houtcome => exact ⟨_, .share houtcome, .told true outcome⟩
  leaves := by
    intro key task r g hsuits hrole
    cases hsuits with
    | fetching ticket call | loading ticket call =>
      cases hrole
      exact .lose ticket
    | waiting ticket =>
      cases hrole
      exact .leave ticket

/-! ### Runs of look-ups -/

theorem grown_enter (key : String) (gates : Gates) (stage : Stage Unit × Shared) :
    gates.Grown (enter key gates stage).2.1 := by
  obtain ⟨stage, g⟩ := stage
  cases stage with
  | done outcome | waiting ticket => exact .refl gates
  | fetching ticket route | loading ticket => exact Gates.grown_place gates _

theorem grown_resume (g : Shared) (gates : Gates) (task : Lookup) :
    gates.Grown (resume g gates task).2.1 := by
  cases task with
  | fresh key => exact grown_enter _ _ _
  | fetching key ticket call | loading key ticket call =>
    simp only [resume]
    cases gates.answer? call with
    | none => exact .refl gates
    | some answer => exact grown_enter _ _ _
  | waiting ticket =>
    simp only [resume, await]
    cases g.flights.outcome? ticket <;> exact .refl gates

/-- A scene of look-ups. -/
abbrev View := Scene Shared Lookup Answer String Value

/-- A group that has answered nothing yet, with what picks its peers. -/
def opened (name : String) (budget : UInt64) (peers : Option Picker) : Shared :=
  { (Group.fresh name budget : Shared) with peers := peers }

/-- The scene after these steps of look-ups in a group. -/
abbrev view (g : Shared) (steps : List (Step String)) : View := scene g steps

/-- Whoever makes a call for its key leads the flight of that key. -/
theorem leads_of_call {x : View} {i : Nat} {key : String} {ticket call : Nat}
    (h : x.cards[i]? = some (key, .waiting (.fetching key ticket call)) ∨
      x.cards[i]? = some (key, .waiting (.loading key ticket call))) :
    crew.Leads x i key ticket := by
  rcases h with hcard | hcard
  · exact Parts.leads_of_role hcard rfl
  · exact Parts.leads_of_role hcard rfl

theorem manned {g : Shared} (hg : g.flights = .empty) (steps : List (Step String)) :
    crew.Manned (view g steps) :=
  Crew.manned hg steps

end RingCache.Group.Lookup

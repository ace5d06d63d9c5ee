import Mathlib.Tactic.Common
import RingCache.Group.Get
import RingCache.Proofs.Group.Coherence
import RingCache.Proofs.Lru.Reuse

/-!
# A look-up by itself

A group is *at rest* while nobody looks anything up in it (`AtRest`); every run of look-ups is there
once all of them have come to their end (`Lookup.atRest_of_ended`). A look-up that begins then goes
one of five ways to its end, each with its own calls and its own changes of the group (`Goes`):
it is refused, finds its value in the cache, has it from a peer, or asks the origin, which gives a
value or fails.

Who answers, and what, is free: a peer and the origin may go by all the calls that were made before
(`Answering`).
-/

namespace RingCache

open Lru Recency

/-! ### Groups at rest -/

/-- The only flight ends with its outcome. -/
theorem Flights.live_land {f : Flights Value} {key : String} {ticket : Nat}
    (h : f.live = [(key, ticket)]) (outcome : Except CacheError Value) :
    (f.land ticket outcome).live = [] :=
  live_finish_last h rfl _

namespace Group

variable {π ρ : Type} {g : Group π} {key : String} {cache : Cache}

/-- Nobody loads anything in the group. -/
structure AtRest (g : Group π) : Prop where
  live : g.flights.live = []
  carried : g.cache.Carried

/-- The group after a look-up without a key. -/
def refused (g : Group π) : Group π :=
  { g with counters := { g.counters with gets := g.counters.gets + 1 } }

/-- The group after a look-up that the cache answers. -/
def found (g : Group π) (cache : Cache) : Group π :=
  { g with
    cache := cache
    counters :=
      { g.counters with gets := g.counters.gets + 1, cacheHits := g.counters.cacheHits + 1 } }

/-- The group after the first turn of a look-up that leads the flight of `key`. -/
def departed (g : Group π) (cache : Cache) (key : String) : Group π :=
  { g with
    cache := cache
    flights := g.flights.board key
    counters := { g.counters with gets := g.counters.gets + 1, loads := g.counters.loads + 1 } }

theorem start_refused (pick : π → String → Option ρ) :
    g.start pick "" = (.done (.error keyRequired), g.refused) := rfl

theorem start_found (hkey : key ≠ "") {value : Value} (hcache : g.cache.get key = (some value, cache))
    (pick : π → String → Option ρ) : g.start pick key = (.done (.ok value), g.found cache) := by
  have hempty := mt String.isEmpty_iff.mp hkey
  simp only [start, if_neg hempty, hcache]
  rfl

theorem start_departed (hkey : key ≠ "") (hcache : g.cache.get key = (none, cache))
    (hfree : g.flights.live.lookup key = none) (pick : π → String → Option ρ) :
    g.start pick key =
      (match g.peers.bind fun peers => pick peers key with
        | some route => .fetching g.flights.phases.size route
        | none => .loading g.flights.phases.size, g.departed cache key) := by
  have hempty := mt String.isEmpty_iff.mp hkey
  simp only [start, if_neg hempty, hcache, load, Flights.join_of_none hfree]
  cases g.peers.bind fun peers => pick peers key <;> rfl

/-! ### A group and the calls of its look-ups -/

/-- A call that a look-up makes. -/
inductive Call (ρ : Type) where
  | peer (route : ρ) (key : String)
  | origin (key : String)

/-- What peers and the origin answer, after the calls that were made so far. -/
structure Answering (ρ : Type) where
  peer : List (Call ρ) → ρ → String → Except CacheError Value
  origin : List (Call ρ) → String → Except CacheError Value

/-- A group, and the calls that its look-ups made, in order. -/
structure Site (π ρ : Type) where
  group : Group π
  calls : List (Call ρ)

/-- The surroundings of a look-up for `key`: each call is written down and answered. -/
def Answering.around (a : Answering ρ) (key : String) : Surroundings (StateM (Site π ρ)) π ρ where
  read := do pure (← get).group
  write g := modify fun x => { x with group := g }
  fetch route := modifyGet fun x =>
    (a.peer x.calls route key, { x with calls := x.calls ++ [.peer route key] })
  load := modifyGet fun x => (a.origin x.calls key, { x with calls := x.calls ++ [.origin key] })

namespace Site

/-- A look-up, from its beginning to its end. -/
def lookUp (a : Answering ρ) (pick : π → String → Option ρ) (key : String) (x : Site π ρ) :
    Option (Except CacheError Value) × Site π ρ :=
  (Group.lookUp (a.around key) pick key).run x

/-- The peer that is picked for a key. -/
def route? (pick : π → String → Option ρ) (key : String) (x : Site π ρ) : Option ρ :=
  x.group.peers.bind fun peers => pick peers key

/-- The site after the origin was asked by the leader of a flight. -/
def loaded (a : Answering ρ) (key : String) (ticket : Nat) (x : Site π ρ) : Site π ρ where
  group := (x.group.afterLoad key ticket (a.origin x.calls key) : Stage ρ × Group π).2
  calls := x.calls ++ [.origin key]

/-- The site after a peer was asked by the leader of a flight. -/
def fetched (a : Answering ρ) (key : String) (ticket : Nat) (route : ρ) (x : Site π ρ) :
    Site π ρ where
  group := (x.group.afterFetch ticket (a.peer x.calls route key) : Stage ρ × Group π).2
  calls := x.calls ++ [.peer route key]

variable {a : Answering ρ} {pick : π → String → Option ρ} {x : Site π ρ} {g' : Group π}
  {ticket : Nat} {route : ρ}

/-- A look-up by its stages. -/
theorem lookUp_eq (a : Answering ρ) (pick : π → String → Option ρ) (key : String) (x : Site π ρ) :
    x.lookUp a pick key =
      match x.group.start pick key with
      | (.done outcome, g) => (some outcome, ⟨g, x.calls⟩)
      | (.waiting _, g) => (none, ⟨g, x.calls⟩)
      | (.loading ticket, g) => (some (a.origin x.calls key), loaded a key ticket ⟨g, x.calls⟩)
      | (.fetching ticket route, g) =>
        match a.peer x.calls route key with
        | .ok value => (some (.ok value), fetched a key ticket route ⟨g, x.calls⟩)
        | .error _ =>
          (some (a.origin (x.calls ++ [.peer route key]) key),
            loaded a key ticket (fetched a key ticket route ⟨g, x.calls⟩)) := by
  rw [lookUp, Group.lookUp]
  simp only [Answering.around, StateT.run_bind, StateT.run_get, StateT.run_pure, StateT.run_modify,
    pure_bind]
  rcases x.group.start pick key with ⟨stage, g⟩
  cases stage with
  | done outcome | waiting ticket => rfl
  | loading ticket => rfl
  | fetching ticket route =>
    -- the answer decides about the next stage, inside the monad
    simp only [StateT.run_bind, StateT.run_modifyGet, pure_bind]
    cases hanswer : a.peer x.calls route key with
    | ok value | error e =>
      simp only [fetched, hanswer]
      rfl

/-- What the origin gives is kept, and its failure leaves the cache as it was. -/
theorem cache_loaded (a : Answering ρ) (key : String) (ticket : Nat) (x : Site π ρ) :
    (loaded a key ticket x).group.cache =
      match a.origin x.calls key with
      | .ok value => x.group.cache.add key value
      | .error _ => x.group.cache := by
  rw [loaded]
  cases a.origin x.calls key <;> rfl

theorem live_loaded (h : x.group.flights.live = [(key, ticket)]) :
    (loaded a key ticket x).group.flights.live = [] := by
  rw [loaded]
  cases a.origin x.calls key <;> exact Flights.live_land h _

/-- A peer changes nothing in the cache, whatever it answers. -/
theorem cache_fetched (a : Answering ρ) (key : String) (ticket : Nat) (route : ρ) (x : Site π ρ) :
    (fetched a key ticket route x).group.cache = x.group.cache := by
  rw [fetched]
  cases a.peer x.calls route key <;> rfl

/-! ### What becomes of a look-up -/

/-- The entries that are kept, newest first. -/
def entries (x : Site π ρ) : Recency Value := x.group.cache.store.toList

/-- The calls to a peer that come before a call to the origin: none where no peer is picked, and one
where the peer failed, with whatever error. -/
inductive Unhelped (a : Answering ρ) (key : String) (calls : List (Call ρ)) :
    Option ρ → List (Call ρ) → Prop where
  | nobody : Unhelped a key calls none []
  | failed {route : ρ} {e : CacheError} (hanswer : a.peer calls route key = .error e) :
      Unhelped a key calls (some route) [.peer route key]

/-- The calls of a look-up that the cache does not answer: the peer, if one is picked, and the origin
unless the peer gives a value. -/
def missCalls (a : Answering ρ) (key : String) (calls : List (Call ρ)) : Option ρ → List (Call ρ)
  | none => [.origin key]
  | some route =>
    match a.peer calls route key with
    | .ok _ => [.peer route key]
    | .error _ => [.peer route key, .origin key]

/-- The outcome of a look-up for `key` at the site `x`, and the site `y` that it leaves. -/
structure Ends (a : Answering ρ) (pick : π → String → Option ρ) (key : String) (x : Site π ρ)
    (outcome : Except CacheError Value) (y : Site π ρ) : Prop where
  /-- nobody loads anything afterwards -/
  rests : y.group.flights.live = []
  /-- without a key, only the look-up is counted -/
  refused : key = "" → outcome = .error keyRequired ∧
    y = { x with group := { x.group with
      counters := { x.group.counters with gets := x.group.counters.gets + 1 } } }
  /-- a value that is kept is the outcome; nobody is called, and the entry moves to the front -/
  found : key ≠ "" → ∀ value, (key, value) ∈ x.entries → outcome = .ok value ∧
    y.calls = x.calls ∧ y.entries = (key, value) :: without x.entries key ∧
    y.group.cache =
      { x.group.cache with store := y.group.cache.store, hits := x.group.cache.hits + 1 } ∧
    y.group.cache.store.used = x.group.cache.store.used ∧
    y.group.cache.store.budget = x.group.cache.store.budget
  /-- a value from a peer is the outcome; the origin is not called, and nothing is kept -/
  fetched : key ≠ "" → key ∉ x.entries.keys → ∀ route value, x.route? pick key = some route →
    a.peer x.calls route key = .ok value → outcome = .ok value ∧
    y.calls = x.calls ++ [.peer route key] ∧
    y.group.cache = { x.group.cache with misses := x.group.cache.misses + 1 }
  /-- else the origin is called once, and its answer is the outcome; a value is kept, and a failure
  leaves all entries as they were -/
  loaded : key ≠ "" → key ∉ x.entries.keys → ∀ asked,
    Unhelped a key x.calls (x.route? pick key) asked →
    outcome = a.origin (x.calls ++ asked) key ∧
    y.calls = x.calls ++ asked ++ [.origin key] ∧
    y.group.cache =
      match outcome with
      | .ok value => Cache.add { x.group.cache with misses := x.group.cache.misses + 1 } key value
      | .error _ => { x.group.cache with misses := x.group.cache.misses + 1 }

variable {y : Site π ρ} {outcome : Except CacheError Value}

/-- **A look-up that the cache does not answer** makes just the calls that it must. -/
theorem Ends.calls (h : Ends a pick key x outcome y) (hkey : key ≠ "")
    (hmissed : key ∉ x.entries.keys) :
    y.calls = x.calls ++ missCalls a key x.calls (x.route? pick key) := by
  cases hroute : x.route? pick key with
  | none =>
    have hcalls := (h.loaded hkey hmissed [] (hroute ▸ .nobody)).2.1
    rwa [List.append_nil] at hcalls
  | some route =>
    rw [missCalls]
    cases hanswer : a.peer x.calls route key with
    | ok value => exact (h.fetched hkey hmissed route value hroute hanswer).2.1
    | error e =>
      have hasked : Unhelped a key x.calls (x.route? pick key) [.peer route key] :=
        hroute ▸ .failed hanswer
      have hcalls := (h.loaded hkey hmissed _ hasked).2.1
      rwa [List.append_assoc] at hcalls

/-- Only the origin fails a look-up with a key, and then all entries stay as they were. -/
theorem Ends.failed {e : CacheError} (h : Ends a pick key x (.error e) y)
    (hkey : key ≠ "") :
    key ∉ x.entries.keys ∧
      y.group.cache = { x.group.cache with misses := x.group.cache.misses + 1 } := by
  have hmissed : key ∉ x.entries.keys := by
    intro hmem
    obtain ⟨⟨k, value⟩, he, rfl⟩ := List.mem_map.mp hmem
    cases (h.found hkey value he).1
  refine ⟨hmissed, ?_⟩
  cases hroute : x.route? pick key with
  | none => exact (h.loaded hkey hmissed [] (hroute ▸ .nobody)).2.2
  | some route =>
    cases hanswer : a.peer x.calls route key with
    | ok value => cases (h.fetched hkey hmissed route value hroute hanswer).1
    | error e =>
      have hasked : Unhelped a key x.calls (x.route? pick key) [.peer route key] :=
        hroute ▸ .failed hanswer
      exact (h.loaded hkey hmissed _ hasked).2.2

/-! ### Each of the five ways -/

theorem ends_refused (hx : x.group.AtRest) :
    Ends a pick "" x (.error keyRequired) ⟨x.group.refused, x.calls⟩ where
  rests := hx.live
  refused _ := ⟨rfl, rfl⟩
  found hkey := absurd rfl hkey
  fetched hkey := absurd rfl hkey
  loaded hkey := absurd rfl hkey

theorem ends_found (hx : x.group.AtRest) (hkey : key ≠ "") {value : Value}
    (hcache : x.group.cache.get key = (some value, cache)) :
    Ends a pick key x (.ok value) ⟨x.group.found cache, x.calls⟩ := by
  obtain ⟨l, hcarries⟩ := hx.carried
  obtain ⟨hmem, hbudget, hstore⟩ := Cache.get_found hcarries hcache
  obtain ⟨hhits, hmisses⟩ := Cache.counts_found hcache
  have hevictions : cache.evictions = x.group.cache.evictions := by
    rw [← Cache.evictions_get x.group.cache key, hcache]
  have hentries : x.entries = l := hcarries.toList_eq
  have hkeys := hcarries.nodup_keys
  have hkept : key ∈ x.entries.keys := hentries ▸ List.mem_map_of_mem (f := Prod.fst) hmem
  refine ⟨hx.live, fun h => absurd h hkey, ?_, fun _ h => absurd hkept h, fun _ h => absurd hkept h⟩
  rintro - v hv
  rw [hentries] at hv ⊢
  obtain rfl : v = value :=
    congrArg Prod.snd (List.inj_on_of_nodup_map hkeys hv hmem rfl)
  refine ⟨rfl, rfl, hstore.toList_eq, ?_, ?_, hbudget⟩
  · show cache = _
    obtain ⟨store, hits, misses, evictions⟩ := cache
    dsimp only at hhits hmisses hevictions
    rw [hhits, hmisses, hevictions]
    rfl
  · show cache.store.used = _
    rw [hstore.used_eq, hcarries.used_eq, bytes_renewed hkeys hmem]

/-- What a look-up does before it calls anybody, where the cache does not answer it. -/
theorem departed_spec (hx : x.group.AtRest)
    (hcache : x.group.cache.get key = (none, cache)) :
    key ∉ x.entries.keys ∧
      (x.group.departed cache key).cache =
        { x.group.cache with misses := x.group.cache.misses + 1 } ∧
      (x.group.departed cache key).flights.live = [(key, x.group.flights.phases.size)] := by
  obtain ⟨l, hcarries⟩ := hx.carried
  refine ⟨?_, Cache.eq_of_get_missed hcache, ?_⟩
  · rw [entries, hcarries.toList_eq]
    exact (Cache.get_missed hcarries hcache).1
  · show (key, _) :: x.group.flights.live = _
    rw [hx.live]

theorem ends_loaded (hx : x.group.AtRest) (hkey : key ≠ "")
    (hcache : x.group.cache.get key = (none, cache)) {asked : List (Call ρ)}
    (hasked : Unhelped a key x.calls (x.route? pick key) asked) {z : Site π ρ}
    (hcalls : z.calls = x.calls ++ asked)
    (hkept : z.group.cache = (x.group.departed cache key).cache)
    (hlive : z.group.flights.live = [(key, ticket)]) :
    Ends a pick key x (a.origin z.calls key) (loaded a key ticket z) := by
  obtain ⟨hmissed, hdeparted, -⟩ := departed_spec hx hcache
  refine ⟨live_loaded hlive, fun h => absurd h hkey, ?_, ?_, ?_⟩
  · intro _ value hvalue
    exact absurd (List.mem_map_of_mem (f := Prod.fst) hvalue) hmissed
  · -- a peer that gives a value is not one that failed
    intro _ _ route value hroute hanswer
    rw [hroute] at hasked
    cases hasked with
    | failed hfailed =>
      rw [hanswer] at hfailed
      cases hfailed
  · intro _ _ asked' hasked'
    have hsame : asked' = asked := by
      generalize x.route? pick key = route at hasked hasked'
      cases hasked <;> cases hasked' <;> rfl
    rw [hsame, ← hcalls]
    refine ⟨rfl, rfl, ?_⟩
    rw [cache_loaded, hkept, hdeparted]

theorem ends_fetched (hx : x.group.AtRest) (hkey : key ≠ "")
    (hcache : x.group.cache.get key = (none, cache)) (hroute : x.route? pick key = some route)
    {value : Value} (hanswer : a.peer x.calls route key = .ok value) :
    Ends a pick key x (.ok value)
      (fetched a key x.group.flights.phases.size route ⟨x.group.departed cache key, x.calls⟩) := by
  obtain ⟨hmissed, hdeparted, hlive⟩ := departed_spec hx hcache
  refine ⟨?_, fun h => absurd h hkey, ?_, ?_, ?_⟩
  · rw [fetched, hanswer]
    exact Flights.live_land hlive _
  · intro _ v hv
    exact absurd (List.mem_map_of_mem (f := Prod.fst) hv) hmissed
  · intro _ _ route' value' hroute' hanswer'
    obtain rfl := Option.some_inj.mp (hroute.symm.trans hroute')
    rw [hanswer] at hanswer'
    cases hanswer'
    exact ⟨rfl, rfl, (cache_fetched ..).trans hdeparted⟩
  · intro _ _ asked hasked
    rw [hroute] at hasked
    cases hasked with
    | failed hfailed =>
      rw [hanswer] at hfailed
      cases hfailed

/-- **A look-up at a site at rest ends**, in one of the five ways. -/
theorem lookUp_ends (a : Answering ρ) (pick : π → String → Option ρ) (key : String)
    (hx : x.group.AtRest) :
    ∃ outcome y, x.lookUp a pick key = (some outcome, y) ∧ Ends a pick key x outcome y := by
  rw [lookUp_eq]
  by_cases hkey : key = ""
  · subst hkey
    rw [start_refused]
    exact ⟨_, _, rfl, ends_refused hx⟩
  rcases hcache : x.group.cache.get key with ⟨_ | value, cache⟩
  · have hfree : x.group.flights.live.lookup key = none := by rw [hx.live, List.lookup_nil]
    have hlive := (departed_spec hx hcache).2.2
    rw [start_departed hkey hcache hfree]
    cases hroute : x.route? pick key with
    | none =>
      have hasked : Unhelped a key x.calls (x.route? pick key) [] := hroute ▸ .nobody
      rw [show (x.group.peers.bind fun peers => pick peers key) = none from hroute]
      exact ⟨_, _, rfl, ends_loaded (z := ⟨x.group.departed cache key, x.calls⟩) hx hkey hcache hasked
        (List.append_nil _).symm rfl hlive⟩
    | some route =>
      rw [show (x.group.peers.bind fun peers => pick peers key) = some route from hroute]
      cases hanswer : a.peer x.calls route key with
      | ok value =>
        simp only [hanswer]
        exact ⟨_, _, rfl, ends_fetched hx hkey hcache hroute hanswer⟩
      | error e =>
        have hasked : Unhelped a key x.calls (x.route? pick key) [.peer route key] :=
          hroute ▸ .failed hanswer
        have hfetched : (fetched a key x.group.flights.phases.size route
            ⟨x.group.departed cache key, x.calls⟩).group.flights.live =
              [(key, x.group.flights.phases.size)] := by
          rw [fetched, hanswer]
          exact hlive
        simp only [hanswer]
        exact ⟨_, _, rfl, ends_loaded hx hkey hcache hasked rfl (cache_fetched ..) hfetched⟩
  · rw [start_found hkey hcache]
    exact ⟨_, _, rfl, ends_found hx hkey hcache⟩

/-- After a failure the group is at rest again, and still keeps nothing for the key. -/
theorem Ends.atRest_failed {e : CacheError} (h : Ends a pick key x (.error e) y)
    (hx : x.group.AtRest) (hkey : key ≠ "") : y.group.AtRest ∧ key ∉ y.entries.keys := by
  obtain ⟨hmissed, hcache⟩ := h.failed hkey
  refine ⟨⟨h.rests, ?_⟩, ?_⟩
  · rw [hcache]
    exact hx.carried
  · rw [entries, hcache]
    exact hmissed

end Site

/-! ### After any run of look-ups -/

namespace Lookup

open Flights Bench

variable {peers : Option Picker} {steps : List (Step String)}

/-- **A group is at rest** once all look-ups have come to their end. -/
theorem atRest_of_ended (name : String) (budget : UInt64)
    (hended : ∀ card ∈ (view (opened name budget peers) steps).cards,
      ∀ task, card.2 ≠ .waiting task) :
    (view (opened name budget peers) steps).state.AtRest := by
  have hmanned := manned (g := opened name budget peers) rfl steps
  refine ⟨?_, ?_⟩
  · have hnobody : (view (opened name budget peers) steps).cards.filterMap crew.flight = [] := by
      rw [List.filterMap_eq_nil_iff]
      rintro ⟨ask, fate⟩ hcard
      cases fate with
      | waiting task => exact absurd rfl (hended _ hcard task)
      | finished result | dropped => rfl
    have hroster := hmanned.roster
    rw [hnobody] at hroster
    exact hroster.eq_nil
  · obtain ⟨l, hcarries, -⟩ := (coherent name budget peers steps).cached
    exact ⟨l, hcarries⟩

/-- **What a single look-up does.** Let any look-ups have been in a group, and all have come to their
end. Then a look-up for any key, whatever picks the peer and whatever the peers and the origin answer,
comes to the outcome and leaves the group and the calls that `Site.Ends` says. And if it fails, the
next look-up for this key makes all its calls anew. -/
theorem lookUp_alone {ρ : Type} (name : String) (budget : UInt64) (peers : Option Picker)
    (steps : List (Step String))
    (hended : ∀ card ∈ (view (opened name budget peers) steps).cards,
      ∀ task, card.2 ≠ .waiting task)
    (a : Answering ρ) (pick : Picker → String → Option ρ) (calls : List (Call ρ)) (key : String) :
    let x : Site Picker ρ := ⟨(view (opened name budget peers) steps).state, calls⟩
    ∃ outcome y, x.lookUp a pick key = (some outcome, y) ∧ Site.Ends a pick key x outcome y ∧
      (key ≠ "" → ∀ e, outcome = .error e → ∀ pick' : Picker → String → Option ρ,
        ∃ outcome' y', y.lookUp a pick' key = (some outcome', y') ∧
          y'.calls = y.calls ++ Site.missCalls a key y.calls (y.route? pick' key)) := by
  intro x
  have hx : x.group.AtRest := atRest_of_ended name budget hended
  obtain ⟨outcome, y, hlook, hends⟩ := Site.lookUp_ends a pick key hx
  refine ⟨outcome, y, hlook, hends, ?_⟩
  rintro hkey e rfl pick'
  obtain ⟨hy, hmissed⟩ := hends.atRest_failed hx hkey
  obtain ⟨outcome', y', hlook', hends'⟩ := Site.lookUp_ends a pick' key hy
  exact ⟨outcome', y', hlook', hends'.calls hkey hmissed⟩

/-- A look-up was refused before; the peer fails the next one, and the origin gives its value. -/
theorem lookUp_alone_falls_back :
    let a : Answering Unit := ⟨fun _ _ _ => .error keyRequired, fun _ _ => .ok Value.empty⟩
    let g := (view (opened "scores" 0 (some (Picker.beginning "T"))) [.start 0 ""]).state
    ∃ y : Site Picker Unit, Site.lookUp a (pick 0) "Tom" ⟨g, []⟩ = (some (.ok Value.empty), y) ∧
      y.calls = [.peer () "Tom", .origin "Tom"] ∧
      y.group.cache = Cache.add { g.cache with misses := 1 } "Tom" Value.empty := by
  intro a g
  obtain ⟨outcome, y, hlook, hends, -⟩ :=
    lookUp_alone "scores" 0 (some (Picker.beginning "T")) [.start 0 ""]
      (by
        intro card hcard task
        cases List.mem_singleton.mp hcard
        exact nofun)
      a (pick 0) [] "Tom"
  obtain ⟨rfl, hcalls, hcache⟩ := hends.loaded (by decide) (List.not_mem_nil) [.peer () "Tom"]
    (.failed rfl)
  exact ⟨y, hlook, hcalls, hcache⟩

end Lookup

end Group

end RingCache

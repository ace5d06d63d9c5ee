import Mathlib.Tactic.Common
import RingCache.Proofs.Cluster.Served
import RingCache.Proofs.Flight.Sound
import RingCache.Proofs.Group.Alone
import RingCache.Proofs.Lru.Counted

/-!
# A look-up in a member at rest

Nobody loads anything in a member at rest. A look-up there is answered from the cache or by the
origin, where no peer is picked (`Cluster.lookWithin_stays`), or else it asks its peer and goes on
with the answer (`Cluster.lookWithin_fetches`). Afterwards the member is at rest again, and no key is
kept or was loaded that was not before, except the one that was asked for (`Member.Tended`).
-/

namespace RingCache

/-! ### What a look-up makes of a member -/

namespace Member

/-- The keys that a member keeps. -/
def kept (m : Member) : List String := m.group.cache.store.keys

/-- The member after a look-up that the cache answers. -/
def found (m : Member) (cache : Cache) : Member := { m with group := m.group.found cache }

/-- The member after the first turn of a look-up that leads the flight of `key`. -/
def departed (m : Member) (cache : Cache) (key : String) : Member :=
  { m with group := m.group.departed cache key }

/-- The ticket of the next flight. -/
def ticket (m : Member) : Nat := m.group.flights.phases.size

/-- A member of this group in which nobody loads anything. -/
structure Rests (m : Member) (name : String) : Prop where
  name : m.group.name = name
  live : m.group.flights.live = []
  carried : m.group.cache.Carried

/-- What a look-up for `key` leaves of a member. Either it calls the origin for the key, and may keep
it, or it keeps no other keys than before. -/
structure Tended (key : String) (m m' : Member) : Prop where
  name : m'.group.name = m.group.name
  peers : m'.group.peers = m.group.peers
  source : m'.origin.source = m.origin.source
  live : m'.group.flights.live = []
  carried : m'.group.cache.Carried
  calls : m'.origin.calls = m.origin.calls ∧ m'.kept ⊆ m.kept ∨
    m'.origin.calls = m.origin.calls ++ [key] ∧ m'.kept ⊆ key :: m.kept

variable {m m' : Member} {name key : String} {cache : Cache} {ticket : Nat}

theorem Rests.tended (h : m.Rests name) (htended : Tended key m m') : m'.Rests name :=
  ⟨htended.name.trans h.name, htended.live, htended.carried⟩

theorem Rests.free (h : m.Rests name) (key : String) : m.group.flights.live.lookup key = none := by
  rw [h.live, List.lookup_nil]

theorem carried_of_get {c : Cache} (h : c.Carried) {answer : Option Value}
    (hcache : c.get key = (answer, cache)) : cache.Carried ∧ cache.store.keys ⊆ c.store.keys := by
  have hget := Cache.carried_get h key
  rwa [hcache] at hget

theorem tended_found (h : m.Rests name) {value : Value}
    (hcache : m.group.cache.get key = (some value, cache)) : Tended key m (m.found cache) where
  name := rfl
  peers := rfl
  source := rfl
  live := h.live
  carried := (carried_of_get h.carried hcache).1
  calls := .inl ⟨rfl, (carried_of_get h.carried hcache).2⟩

/-- A call of the origin ends the only flight. -/
theorem tended_loaded (hlive : m.group.flights.live = [(key, ticket)])
    (hcarried : m.group.cache.Carried) : Tended key m (m.loaded key ticket) := by
  have hcall : (m.loaded key ticket).origin = (m.origin.call key).2 := rfl
  cases hanswer : (m.origin.call key).1 with
  | ok value =>
    have hgroup : (m.loaded key ticket).group = { m.group with
        cache := m.group.cache.add key value
        counters := { m.group.counters with localLoads := m.group.counters.localLoads + 1 }
        flights := m.group.flights.land ticket (.ok value) } := by
      simp only [loaded, hanswer]
      rfl
    obtain ⟨hadd, hkeys⟩ := Cache.carried_add hcarried key value
    refine ⟨by rw [hgroup], by rw [hgroup], by rw [hcall]; rfl, ?_, by rwa [hgroup], .inr ⟨?_, ?_⟩⟩
    · rw [hgroup]
      exact Flights.live_land hlive _
    · rw [hcall]
      rfl
    · rw [kept, hgroup]
      exact hkeys
  | error e =>
    have hgroup : (m.loaded key ticket).group = { m.group with
        counters := { m.group.counters with localLoadErrs := m.group.counters.localLoadErrs + 1 }
        flights := m.group.flights.land ticket (.error e) } := by
      simp only [loaded, hanswer]
      rfl
    refine ⟨by rw [hgroup], by rw [hgroup], by rw [hcall]; rfl, ?_, by rwa [hgroup], .inr ⟨?_, ?_⟩⟩
    · rw [hgroup]
      exact Flights.live_land hlive _
    · rw [hcall]
      rfl
    · rw [kept, hgroup]
      exact List.subset_cons_self _ _

/-- So does an answer of the peer, and the origin is called only if the peer fails. -/
theorem tended_settled (hlive : m.group.flights.live = [(key, ticket)])
    (hcarried : m.group.cache.Carried) (answer : Except CacheError Value) :
    Tended key m (m.settled key ticket answer) := by
  cases answer with
  | ok value => exact ⟨rfl, rfl, rfl, Flights.live_land hlive _, hcarried, .inl ⟨rfl, List.Subset.refl _⟩⟩
  | error e =>
    obtain ⟨hname, hpeers, hsource, hrest, hcarried', hcalls⟩ :=
      tended_loaded (m := { m with group := { m.group with
        counters := { m.group.counters with peerErrors := m.group.counters.peerErrors + 1 } } })
        hlive hcarried
    exact ⟨hname, hpeers, hsource, hrest, hcarried', hcalls⟩

/-- Without a call, nothing new is kept. -/
theorem Tended.kept_subset (h : Tended key m m') (hcalls : m'.origin.calls = m.origin.calls) :
    m'.kept ⊆ m.kept := by
  rcases h.calls with ⟨-, hsub⟩ | ⟨hcall, -⟩
  · exact hsub
  · rw [hcalls] at hcall
    have hlength := congrArg List.length hcall
    rw [List.length_append, List.length_singleton] at hlength
    omega

/-- The first turn of a look-up calls nobody and keeps nothing new. -/
theorem Tended.departed (hm : m.Rests name) (hcache : m.group.cache.get key = (none, cache))
    (h : Tended key (m.departed cache key) m') : Tended key m m' := by
  obtain ⟨hname, hpeers, hsource, hlive, hcarried, hcalls⟩ := h
  have hkeys := (carried_of_get hm.carried hcache).2
  refine ⟨hname, hpeers, hsource, hlive, hcarried, hcalls.imp ?_ ?_⟩
  · rintro ⟨hsame, hsub⟩
    exact ⟨hsame, List.Subset.trans hsub hkeys⟩
  · rintro ⟨hcall, hsub⟩
    exact ⟨hcall, List.Subset.trans hsub (List.cons_subset_cons _ hkeys)⟩

theorem Tended.countServed (h : Tended key m m') : Tended key m m'.countServed :=
  ⟨h.name, h.peers, h.source, h.live, h.carried, h.calls⟩

theorem Rests.live_departed (h : m.Rests name) (cache : Cache) (key : String) :
    (m.departed cache key).group.flights.live = [(key, m.ticket)] := by
  show (key, m.ticket) :: m.group.flights.live = _
  rw [h.live]

/-- A whole look-up that asks a peer tends its member. -/
theorem Rests.tended_fetched (h : m.Rests name) (hcache : m.group.cache.get key = (none, cache))
    (answer : Except CacheError Value) :
    Tended key m ((m.departed cache key).settled key m.ticket answer) :=
  (tended_settled (h.live_departed cache key) (carried_of_get h.carried hcache).1 answer).departed h
    hcache

/-! ### Look-ups without a peer -/

/-- What a look-up for `key` that asks no peer answers, and what it leaves of a member at rest. -/
inductive Stays (key : String) (m : Member) : Except CacheError Value → Member → Prop where
  | found {value : Value} {cache : Cache} (hcache : m.group.cache.get key = (some value, cache)) :
      Stays key m (.ok value) (m.found cache)
  | loaded {cache : Cache} (hcache : m.group.cache.get key = (none, cache)) :
      Stays key m (m.origin.call key).1 ((m.departed cache key).loaded key m.ticket)

theorem stays_exists (key : String) (m : Member) : ∃ outcome m', Stays key m outcome m' := by
  rcases hcache : m.group.cache.get key with ⟨_ | value, cache⟩
  · exact ⟨_, _, .loaded hcache⟩
  · exact ⟨_, _, .found hcache⟩

variable {outcome : Except CacheError Value}

theorem Stays.tended (h : Stays key m outcome m') (hm : m.Rests name) : Tended key m m' := by
  cases h with
  | found hcache => exact tended_found hm hcache
  | loaded hcache =>
    exact (tended_loaded (hm.live_departed _ key) (carried_of_get hm.carried hcache).1).departed hm
      hcache

/-- Neither is a request served nor a peer asked. -/
theorem Stays.counters (h : Stays key m outcome m') :
    m'.group.counters.serverRequests = m.group.counters.serverRequests ∧
      m'.group.counters.peerLoads = m.group.counters.peerLoads ∧
      m'.group.counters.peerErrors = m.group.counters.peerErrors := by
  cases h with
  | found hcache => exact ⟨rfl, rfl, rfl⟩
  | @loaded cache hcache =>
    simp only [Member.loaded]
    cases ((m.departed cache key).origin.call key).1 <;> exact ⟨rfl, rfl, rfl⟩

/-- Only the origin fails. -/
theorem Stays.failed {e : CacheError} (h : Stays key m (.error e) m') :
    m'.origin.calls = m.origin.calls ++ [key] ∧
      m.origin.source (m.origin.calls.length + 1) key = .error e := by
  generalize houtcome : Except.error e = outcome at h
  cases h with
  | found hcache => cases houtcome
  | loaded hcache => exact ⟨rfl, rfl⟩

end Member

/-! ### Look-ups in a cluster -/

namespace Cluster

variable {c : Cluster} {i : Nat} {name key : String} {m m' : Member}
  {outcome : Except CacheError Value}

/-- **A look-up that picks no peer stays on its node.** -/
theorem lookWithin_stays (hm : c.member? i name = some m) (hrests : m.Rests name) (hkey : key ≠ "")
    (hstays : m.Stays key outcome m')
    (hpick : (m.group.cache.get key).1 = none →
      m.group.peers.bind (fun peers => (c.node i).pick peers key) = none) (hops : Nat) :
    lookWithin (hops + 1) i name key c = (some outcome, c.modify i name fun _ => m') := by
  have hfree := hrests.free key
  obtain rfl := hrests.name
  rw [lookWithin_succ, hm]
  show Group.lookUp (surroundings (lookWithin hops) i m key) (c.node i).pick key c = _
  cases hstays with
  | found hcache => rw [lookUp_of_done hm (Group.start_found hkey hcache _), Member.found]
  | loaded hcache =>
    have hstart := Group.start_departed hkey hcache hfree (c.node i).pick
    rw [hpick (by rw [hcache])] at hstart
    rw [lookUp_of_loading hm hstart, loadFrom_of_some (member?_put hm _), modify_modify,
      Member.departed, Member.ticket]

/-- **A look-up that picks a peer asks it**, and goes on with its answer. -/
theorem lookWithin_fetches (hm : c.member? i name = some m) (hrests : m.Rests name) (hkey : key ≠ "")
    {cache : Cache} (hcache : m.group.cache.get key = (none, cache)) {client : Peer.Client}
    (hpick : m.group.peers.bind (fun peers => (c.node i).pick peers key) = some (.remote client))
    (hops : Nat) :
    lookWithin (hops + 1) i name key c =
      (fetchBy (lookWithin hops) client name key >>= settle i m key m.ticket)
        (c.modify i name fun _ => m.departed cache key) := by
  have hfree := hrests.free key
  obtain rfl := hrests.name
  have hstart := Group.start_departed hkey hcache hfree (c.node i).pick
  rw [hpick] at hstart
  rw [lookWithin_succ, hm]
  show Group.lookUp (surroundings (lookWithin hops) i m key) (c.node i).pick key c = _
  rw [lookUp_of_fetching hm hstart, Member.departed, Member.ticket, fetchFrom]

end Cluster

end RingCache

import Mathlib.Tactic.Common
import RingCache.Proofs.Group.Coherence

/-!
# What the origin brings goes into the cache once

Only the leader of a key puts something into the cache, in the step in which it receives a value
from the origin (`Stores`). As long as a key is led, the cache keeps nothing for it, so that every
entry that is put in is a new one (`Coherent.absent`). An entry that was put in stands in the cache
or was pushed out: entries and evictions together are the loads from the origin (`loads_stored`).
-/

namespace RingCache.Group.Lookup

open Flights Bench Lru Recency

variable {R : Receipts} {x y : View} {step : Step String} {key : String} {i call : Nat}
  {value : Value}

/-! ### How a step changes the cache -/

/-- What a step does to the cache, beside the count of the loads from the origin. -/
inductive Stores (x : View) (step : Step String) (y : View) : Prop where
  | inserts {key : String} {call : Nat} {value : Value} (hreceives : Receives x step key call value)
      (hcache : y.state.cache = x.state.cache.add key value)
      (hloads : y.state.counters.localLoads = x.state.counters.localLoads + 1)
  | looks {key : String} (hnone : ∀ key call value, ¬ Receives x step key call value)
      (hcache : y.state.cache = (x.state.cache.get key).2)
      (hloads : y.state.counters.localLoads = x.state.counters.localLoads)
  | keeps (hnone : ∀ key call value, ¬ Receives x step key call value)
      (hcache : y.state.cache = x.state.cache)
      (hloads : y.state.counters.localLoads = x.state.counters.localLoads)

theorem stores_resume (hx : crew.Manned x) {task : Lookup} {s : Shared} {gates : Gates}
    {next : Lookup ⊕ Answer} (hcard : x.cards[i]? = some (key, .waiting task))
    (hresume : resume x.state x.gates task = (s, gates, next)) :
    Stores x (.resume i) ⟨s, gates, x.cards.set i (key, .of next)⟩ := by
  have hturn := resume_turn hx.sound hresume
  have hnothing : (∀ ticket call value, task = .loading key ticket call →
      x.gates.answer? call ≠ some (.ok value)) →
      ∀ key call value, ¬ Receives x (.resume i) key call value :=
    fun hnot _ _ _ => not_receives_resume hcard hnot
  -- a call that has no answer, or another one, brings no value
  have hunanswered : ∀ {ticket call : Nat}, (∀ value, x.gates.answer? call ≠ some (.ok value)) →
      ∀ t c value, Lookup.loading key ticket call = .loading key t c →
        x.gates.answer? c ≠ some (.ok value) := by
    rintro ticket call hnot t c value ⟨⟩
    exact hnot value
  cases hx.suits _ _ _ hcard with
  | fetching ticket call =>
    cases hturn with
    | stillFetching hanswer | fetched hanswer | fallsBack hanswer =>
      exact .keeps (hnothing nofun) rfl rfl
  | waiting ticket =>
    cases hturn with
    | stillWaiting houtcome | shared houtcome => exact .keeps (hnothing nofun) rfl rfl
  | loading ticket call =>
    cases hturn with
    | loaded hanswer => exact .inserts ⟨i, ticket, rfl, hcard, hanswer⟩ rfl rfl
    | stillLoading hanswer | failed hanswer =>
      refine .keeps (hnothing (hunanswered ?_)) rfl rfl
      intro value hok
      rw [hanswer] at hok
      cases hok

/-- **Only a received value is put into the cache**, and it is counted as a load. -/
theorem stores_goes (hx : crew.Manned x) (hgoes : x.Goes step y) : Stores x step y := by
  cases hgoes with
  | start hresume =>
    have hnone : ∀ id ask key call value, ¬ Receives x (.start id ask) key call value :=
      fun _ _ _ _ _ => not_receives nofun
    cases resume_turn hx.sound hresume with
    | refused hempty => exact .keeps (hnone _ _) rfl rfl
    | found hempty hcache | joins hempty hcache hlive | asksPeer hempty hcache hlive
    | asksOrigin hempty hcache hlive =>
      exact .looks (hnone _ _) (congrArg Prod.snd hcache).symm rfl
  | resume hcard hresume => exact stores_resume hx hcard hresume
  | give hgive => exact .keeps (fun _ _ _ => not_receives nofun) rfl rfl
  | @drop j key task hcard =>
    refine .keeps (fun _ _ _ => not_receives nofun) ?_ ?_
    · cases task <;> rfl
    · cases task <;> rfl
  | idle hidle => exact .keeps (fun _ _ _ => not_receives_idle hidle) rfl rfl

/-! ### Keys under way -/

/-- The call that a look-up waits for, and its key. -/
def callOf : Lookup → Option (String × Nat)
  | .fetching key _ call | .loading key _ call => some (key, call)
  | .fresh _ | .waiting _ => none

/-- The look-up at place `i` has a call for `key` under way, to a peer or to the origin. -/
def Calls (x : View) (i : Nat) (key : String) (call : Nat) : Prop :=
  ∃ ask task, x.cards[i]? = some (ask, .waiting task) ∧ callOf task = some (key, call)

theorem Calls.leads (hx : crew.Manned x) (h : Calls x i key call) :
    ∃ ticket, crew.Leads x i key ticket := by
  obtain ⟨ask, task, hcard, hcall⟩ := h
  cases hx.suits _ _ _ hcard with
  | fetching ticket call =>
    cases hcall
    exact ⟨ticket, leads_of_call (.inl hcard)⟩
  | loading ticket call =>
    cases hcall
    exact ⟨ticket, leads_of_call (.inr hcard)⟩
  | waiting ticket => cases hcall

/-- **A key has at most one call under way.** -/
theorem Calls.unique (hx : crew.Manned x) {j call' : Nat} (hi : Calls x i key call)
    (hj : Calls x j key call') : i = j ∧ call = call' := by
  obtain ⟨ticket, hlead⟩ := hi.leads hx
  obtain ⟨ticket', hlead'⟩ := hj.leads hx
  obtain rfl := hx.leader_unique hlead hlead'
  obtain ⟨ask, task, hcard, hcall⟩ := hi
  obtain ⟨ask', task', hcard', hcall'⟩ := hj
  rw [hcard] at hcard'
  cases hcard'
  rw [hcall] at hcall'
  cases hcall'
  exact ⟨rfl, rfl⟩

/-- A key is in flight as long as somebody has a call for it under way. -/
theorem inFlight_iff (hx : crew.Manned x) :
    key ∈ x.state.flights.live.map Prod.fst ↔ ∃ i call, Calls x i key call := by
  constructor
  · intro hmem
    obtain ⟨⟨k, ticket⟩, hlive, rfl⟩ := List.mem_map.mp hmem
    obtain ⟨i, hlead⟩ := hx.lookup_eq_some.mp (hx.sound.lookup_eq_some.mpr hlive)
    obtain ⟨card, hcard, hflight⟩ := Option.bind_eq_some_iff.mp hlead
    obtain ⟨ask, task, rfl, hrole, rfl⟩ := Parts.flight_eq_some.mp hflight
    cases hx.suits _ _ _ hcard with
    | fetching t call | loading t call => exact ⟨i, call, _, _, hcard, rfl⟩
    | waiting t => cases hrole
  · rintro ⟨i, call, hcalls⟩
    obtain ⟨ticket, hlead⟩ := hcalls.leads hx
    exact List.mem_map_of_mem (f := Prod.fst) (hx.leads_airborne hlead).1

theorem Keeps.keys_eq {store : Store Value} {live : List (String × Nat)}
    (h : Keeps store live R) : ∃ l, Carries store l ∧ store.keys = keys l := by
  obtain ⟨l, hcarries, -, -⟩ := h
  exact ⟨l, hcarries, by rw [Store.keys, hcarries.toList_eq, keys]⟩

namespace Coherent

/-- **Nothing is kept for a key that is in flight.** -/
theorem absent (h : Coherent R x) (hmem : key ∈ x.state.flights.live.map Prod.fst) :
    key ∉ x.state.cache.store.keys := by
  obtain ⟨l, hcarries, -, hlive⟩ := h.cached
  obtain ⟨⟨k, ticket⟩, he, rfl⟩ := List.mem_map.mp hmem
  rw [Store.keys, hcarries.toList_eq]
  exact hlive k ticket he

/-- Nothing is kept for a key whose value is received. -/
theorem absent_of_receives (h : Coherent R x) (hx : crew.Manned x)
    (hreceives : Receives x step key call value) : key ∉ x.state.cache.store.keys := by
  obtain ⟨i, ticket, rfl, hcard, -⟩ := hreceives
  exact h.absent ((inFlight_iff hx).mpr ⟨i, call, key, _, hcard, rfl⟩)

end Coherent

/-! ### Counting entries -/

/-- What is kept and what was pushed out, together. -/
def stored (c : Cache) : UInt64 := c.stats.items + c.stats.evictions

theorem stored_get {c : Cache} {l : Recency Value} (h : Carries c.store l) (key : String) :
    stored (c.get key).2 = stored c := by
  have hsize := (Cache.get_spec h key).2.size_eq
  rw [(Cache.get_entries_perm _ h.nodup_keys key).length_eq, ← h.size_eq] at hsize
  simp only [stored, Cache.stats, hsize, Cache.evictions_get]

/-- **A new entry is kept or pushed out**, and so is every other. -/
theorem stored_add {c : Cache} {l : Recency Value} (h : Carries c.store l) {key : String}
    (hkey : key ∉ l.keys) (value : Value) : stored (c.add key value) = stored c + 1 := by
  obtain ⟨l', hcarries, hpre, hevictions⟩ := Cache.add_spec h key value
  rw [without_of_not_mem hkey] at hpre hevictions
  have hle := hpre.length_le
  -- no more than all of them are pushed out, so the difference is exact
  calc stored (c.add key value)
      = UInt64.ofNat l'.length +
          (c.evictions + UInt64.ofNat (((key, value) :: l).length - l'.length)) := by
        rw [stored, Cache.stats, hevictions, hcarries.size_eq]
    _ = UInt64.ofNat (l'.length + (((key, value) :: l).length - l'.length)) + c.evictions := by
        rw [UInt64.ofNat_add]
        ac_rfl
    _ = UInt64.ofNat (l.length + 1) + c.evictions := by
        rw [Nat.add_sub_cancel' hle, List.length_cons]
    _ = stored c + 1 := by
        rw [UInt64.ofNat_add, stored, Cache.stats, h.size_eq]
        show _ + 1 + _ = _ + _ + 1
        ac_rfl

/-- **Each step keeps the count** of what was put in and what was loaded. -/
theorem stored_goes (h : Coherent R x) (hx : crew.Manned x) (hgoes : x.Goes step y)
    (hstored : stored x.state.cache = x.state.counters.localLoads) :
    stored y.state.cache = y.state.counters.localLoads := by
  obtain ⟨l, hcarries, hkeys⟩ := h.cached.keys_eq
  cases stores_goes hx hgoes with
  | inserts hreceives hcache hloads =>
    have habsent := h.absent_of_receives hx hreceives
    rw [hkeys] at habsent
    rw [hcache, hloads, stored_add hcarries habsent, hstored]
  | looks hnone hcache hloads => rw [hcache, hloads, stored_get hcarries, hstored]
  | keeps hnone hcache hloads => rw [hcache, hloads, hstored]

/-! ### Runs of look-ups -/

/-- Where nothing is received, the cache keeps what it kept, though maybe in another order. -/
theorem perm_of_not_receives (h : Coherent R x) (hx : crew.Manned x) (hgoes : x.Goes step y)
    (hnone : ∀ key call value, ¬ Receives x step key call value) :
    y.state.cache.store.toList.Perm x.state.cache.store.toList := by
  obtain ⟨l, hcarries, -⟩ := h.cached.keys_eq
  cases stores_goes hx hgoes with
  | inserts hreceives hcache hloads => exact absurd hreceives (hnone _ _ _)
  | @looks key _ hcache _ =>
    rw [hcache, (Cache.get_spec hcarries key).2.toList_eq, hcarries.toList_eq]
    exact Cache.get_entries_perm _ hcarries.nodup_keys key
  | keeps _ hcache _ => rw [hcache]

/-- **Every load is put into the cache once.** In every run of look-ups in a fresh group, whatever
its budget, whatever picks its peers, whatever calls are answered and in whatever order:

* a key is in flight as long as a call for it is under way, and there is one such call at most;
* the cache keeps nothing for a key that is in flight;
* a step in which a leader receives a value from the origin puts it in, where nothing was kept for
  the key; no other step puts anything in;
* modulo `UInt64.size`, the entries of the cache and the evictions are together as many as the
  loads from the origin. -/
theorem loads_stored (name : String) (budget : UInt64) (peers : Option Picker)
    (steps : List (Step String)) :
    let g := opened name budget peers
    let x := view g steps
    (∀ key, key ∈ x.state.flights.live.map Prod.fst ↔ ∃ i call, Calls x i key call) ∧
      (∀ key i j call call', Calls x i key call → Calls x j key call' → i = j ∧ call = call') ∧
      (∀ key, key ∈ x.state.flights.live.map Prod.fst → key ∉ x.state.cache.store.keys) ∧
      (∀ before step later, steps = before ++ step :: later →
        let c := (view g before).state.cache
        let c' := (view g (before ++ [step])).state.cache
        (∀ key call value, Receives (view g before) step key call value →
          key ∉ c.store.keys ∧ c' = c.add key value) ∧
        ((∀ key call value, ¬ Receives (view g before) step key call value) →
          c'.store.toList.Perm c.store.toList)) ∧
      x.state.stats.cache.items + x.state.stats.cache.evictions =
        x.state.stats.counters.localLoads := by
  intro g x
  have hx : crew.Manned x := manned rfl steps
  have hcoherent := coherent name budget peers steps
  refine ⟨fun key => inFlight_iff hx, fun key i j call call' hi hj => hi.unique hx hj,
    fun key hmem => hcoherent.absent hmem, ?_, ?_⟩
  · intro before step later hsteps c c'
    have hx' : crew.Manned (view g before) := manned rfl before
    have hcoherent' := coherent name budget peers before
    have hgoes : (view g before).Goes step (view g (before ++ [step])) := scene_goes g before step
    refine ⟨?_, fun hnone => perm_of_not_receives hcoherent' hx' hgoes hnone⟩
    intro key call value hreceives
    refine ⟨hcoherent'.absent_of_receives hx' hreceives, ?_⟩
    cases stores_goes hx' hgoes with
    | @inserts key' call' value' hreceives' hcache _ =>
      obtain ⟨i, ticket, rfl, hcard, hanswer⟩ := hreceives
      obtain ⟨rfl, ⟨ticket', ⟨⟩⟩, hanswer'⟩ := (receives_resume hcard).mp hreceives'
      rw [hanswer] at hanswer'
      cases hanswer'
      exact hcache
    | looks hnone | keeps hnone => exact absurd hreceives (hnone _ _ _)
  · show stored x.state.cache = x.state.counters.localLoads
    refine run_induction (fun _ (x : View) => stored x.state.cache = x.state.counters.localLoads)
      [] rfl ?_ steps
    intro steps step hstored
    exact stored_goes (coherent name budget peers steps) (manned rfl steps) (scene_goes _ steps step)
      hstored

end RingCache.Group.Lookup

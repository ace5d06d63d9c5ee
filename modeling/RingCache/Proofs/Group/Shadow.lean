import Mathlib.Tactic.Common
import RingCache.Proofs.Bench.Places
import RingCache.Proofs.Flight.Shadow
import RingCache.Proofs.Group.Alone

/-!
# A group as one key sees it

Of all that goes on in a group without a limit, a key sees its own flights, its own calls, the value
that is kept for it and the peer that is picked for it. A group and its calls *shadow* another group
and its calls for a key if the key sees the same in both (`Shadow`), under other tickets and other
numbers of calls.

A turn of a look-up for the key can be taken in the shadow as well, and comes to the same there
(`Shadow.begin`, `Shadow.turn`). A turn of a look-up for another key is not seen
(`Shadow.turn_other`).
-/

namespace RingCache.Group.Lookup

open Flights Bench

/-! ### What a key sees -/

/-- The labels of the calls for a key. -/
def ours (key label : String) : Bool := label == "peer:" ++ key || label == "load:" ++ key

theorem peer_ne_load (k key : String) : "peer:" ++ k ≠ "load:" ++ key := by
  intro h
  have := congrArg String.toList h
  simp at this

theorem ours_peer (key : String) : ours key ("peer:" ++ key) = true := by
  simp [ours]

theorem ours_load (key : String) : ours key ("load:" ++ key) = true := by
  simp [ours]

theorem ours_peer_other {k key : String} (hk : k ≠ key) : ours key ("peer:" ++ k) = false := by
  simp [ours, hk, peer_ne_load]

theorem ours_load_other {k key : String} (hk : k ≠ key) : ours key ("load:" ++ k) = false := by
  simp [ours, hk, (peer_ne_load key k).symm]

variable {key : String} {tickets : List Nat} {labels : List String} {g g' s s' : Shared}
  {gates gates' after after' : Gates} {task task' : Lookup} {next next' : Lookup ⊕ Answer}

/-- The group `g'` with the calls `gates'` is all that `key` sees of the group `g` with the calls
`gates`. -/
structure Shadow (key : String) (tickets : List Nat) (g : Shared) (gates : Gates) (g' : Shared)
    (gates' : Gates) : Prop where
  peers : g'.peers = g.peers
  /-- whether the key has a peer is always the same -/
  steady : ∀ peers, g.peers = some peers → ∀ m n, peers m key = peers n key
  cache : g.cache.Unbounded
  cache' : g'.cache.Unbounded
  value : g'.cache.value? key = g.cache.value? key
  flights : Flights.Shadow key tickets g.flights g'.flights
  calls : gates.Shadow (ours key) gates'

/-- A look-up for `key` and its shadow. -/
inductive Likens (key : String) (tickets : List Nat) (labels : List String) :
    Lookup → Lookup → Prop where
  | fetching {j t call : Nat} (hj : tickets[j]? = some t)
      (hlabel : labels[call]? = some ("peer:" ++ key)) :
      Likens key tickets labels (.fetching key t call)
        (.fetching key j (rank (ours key) labels call))
  | loading {j t call : Nat} (hj : tickets[j]? = some t)
      (hlabel : labels[call]? = some ("load:" ++ key)) :
      Likens key tickets labels (.loading key t call) (.loading key j (rank (ours key) labels call))
  | waiting {j t : Nat} (hj : tickets[j]? = some t) :
      Likens key tickets labels (.waiting t) (.waiting j)

/-- What has become of a look-up for `key`, and of its shadow. -/
inductive Fares (key : String) (tickets : List Nat) (labels : List String) :
    Fate Lookup Answer → Fate Lookup Answer → Prop where
  | waiting {task task' : Lookup} (hlike : Likens key tickets labels task task') :
      Fares key tickets labels (.waiting task) (.waiting task')
  | finished (outcome : Answer) : Fares key tickets labels (.finished outcome) (.finished outcome)
  | dropped : Fares key tickets labels .dropped .dropped

/-- A shadow stays one while flights and calls come behind. -/
theorem Likens.grow (h : Likens key tickets labels task task') (moreTickets : List Nat)
    (moreLabels : List String) :
    Likens key (tickets ++ moreTickets) (labels ++ moreLabels) task task' := by
  have hticket : ∀ {j t : Nat}, tickets[j]? = some t → (tickets ++ moreTickets)[j]? = some t := by
    intro j t hj
    rw [List.getElem?_append_left (List.getElem?_eq_some_iff.mp hj).1, hj]
  cases h with
  | @fetching j t call hj hlabel =>
    have hlt := (List.getElem?_eq_some_iff.mp hlabel).1
    rw [← rank_append (Nat.le_of_lt hlt) moreLabels]
    exact .fetching (hticket hj) (by rw [List.getElem?_append_left hlt, hlabel])
  | @loading j t call hj hlabel =>
    have hlt := (List.getElem?_eq_some_iff.mp hlabel).1
    rw [← rank_append (Nat.le_of_lt hlt) moreLabels]
    exact .loading (hticket hj) (by rw [List.getElem?_append_left hlt, hlabel])
  | waiting hj => exact .waiting (hticket hj)

theorem Fares.grow {fate fate' : Fate Lookup Answer} (h : Fares key tickets labels fate fate')
    (moreTickets : List Nat) (moreLabels : List String) :
    Fares key (tickets ++ moreTickets) (labels ++ moreLabels) fate fate' := by
  cases h with
  | waiting hlike => exact .waiting (hlike.grow moreTickets moreLabels)
  | finished outcome => exact .finished outcome
  | dropped => exact .dropped

/-! ### First turns -/

theorem resume_found (hkey : key ≠ "") {value : Value} {cache : Cache}
    (hcache : g.cache.get key = (some value, cache)) :
    resume g gates (.fresh key) = (g.found cache, gates, .inr (.ok value)) := by
  rw [resume, start_found hkey hcache]
  rfl

theorem resume_joins (hg : g.flights.Sound) (hkey : key ≠ "") {cache : Cache}
    (hcache : g.cache.get key = (none, cache)) {t : Nat}
    (hlive : g.flights.live.lookup key = some t) :
    resume g gates (.fresh key) =
      ({ counting g fun n => { n with gets := n.gets + 1, loads := n.loads + 1 } with
        cache := cache }, gates, .inl (.waiting t)) := by
  have hempty := mt String.isEmpty_iff.mp hkey
  have hnone := hg.outcome?_live (hg.lookup_eq_some.mp hlive)
  simp only [resume, Group.start, if_neg hempty, hcache, Group.load, join_of_some hlive, await, hnone]
  rfl

theorem resume_departs (hkey : key ≠ "") {cache : Cache}
    (hcache : g.cache.get key = (none, cache)) (hlive : g.flights.live.lookup key = none) :
    resume g gates (.fresh key) =
      match g.peers.bind fun peers => pick gates.calls.size peers key with
      | some _ => (g.departed cache key, (gates.place ("peer:" ++ key)).2,
          .inl (.fetching key g.flights.phases.size gates.calls.size))
      | none => (g.departed cache key, (gates.place ("load:" ++ key)).2,
          .inl (.loading key g.flights.phases.size gates.calls.size)) := by
  rw [resume, start_departed hkey hcache hlive]
  cases g.peers.bind fun peers => pick gates.calls.size peers key <;> rfl

namespace Shadow

/-- The same peer is picked in the shadow, whatever calls were made. -/
theorem picks (h : Shadow key tickets g gates g' gates') (m n : Nat) :
    (g'.peers.bind fun peers => pick m peers key) = g.peers.bind fun peers => pick n peers key := by
  rw [h.peers]
  cases hpeers : g.peers with
  | none => rfl
  | some peers =>
    rw [Option.bind_some, Option.bind_some, pick, pick, h.steady peers hpeers m n]

/-- A look-up in both caches finds the same. -/
theorem get (h : Shadow key tickets g gates g' gates') :
    ∃ found cache cache', g.cache.get key = (found, cache) ∧ g'.cache.get key = (found, cache') ∧
      cache.Unbounded ∧ cache'.Unbounded ∧ cache'.value? key = cache.value? key := by
  have hsame : (g'.cache.get key).1 = (g.cache.get key).1 := by
    rw [Cache.fst_get h.cache.carried, Cache.fst_get h.cache'.carried, h.value]
  refine ⟨(g.cache.get key).1, (g.cache.get key).2, (g'.cache.get key).2, rfl, ?_, h.cache.get key,
    h.cache'.get key, ?_⟩
  · rw [← hsame]
  · rw [Cache.value?_get h.cache.carried, Cache.value?_get h.cache'.carried, h.value]

/-- Both caches keep the same value for the key. -/
theorem add (h : Shadow key tickets g gates g' gates') (value : Value) :
    (g.cache.add key value).Unbounded ∧ (g'.cache.add key value).Unbounded ∧
      (g'.cache.add key value).value? key = (g.cache.add key value).value? key := by
  obtain ⟨hcache, hvalue⟩ := h.cache.add key value
  obtain ⟨hcache', hvalue'⟩ := h.cache'.add key value
  refine ⟨hcache, hcache', ?_⟩
  rw [hvalue, hvalue', if_pos rfl, if_pos rfl]

/-- A new call of ours has its number in the shadow. -/
theorem label_placed (h : Shadow key tickets g gates g' gates') (label : String) :
    (gates.place label).2.labels[gates.calls.size]? = some label ∧
      gates'.calls.size = rank (ours key) (gates.place label).2.labels gates.calls.size := by
  refine ⟨Gates.getElem?_labels_place _ _, ?_⟩
  rw [h.calls.size, Gates.labels_place, rank_append (Nat.le_of_eq (Gates.length_labels gates).symm)]

/-- A look-up that finds nothing and nobody to wait for begins a flight in both, each under its next
ticket and with its next call. -/
theorem depart (h : Shadow key tickets g gates g' gates') (hlive : g.flights.live.lookup key = none)
    {cache cache' : Cache} (hcache : cache.Unbounded) (hcache' : cache'.Unbounded)
    (hvalue : cache'.value? key = cache.value? key) {label : String} (hours : ours key label = true) :
    Shadow key (tickets ++ [g.flights.phases.size]) (g.departed cache key) (gates.place label).2
      (g'.departed cache' key) (gates'.place label).2 :=
  { h with
    cache := hcache, cache' := hcache', value := hvalue
    flights := h.flights.board hlive
    calls := h.calls.place hours }

/-- **The first turn of a look-up for the key** comes to the same in the shadow. -/
theorem begin (h : Shadow key tickets g gates g' gates') (hg : g.flights.Sound)
    (hg' : g'.flights.Sound) (hresume : resume g gates (.fresh key) = (s, after, next))
    (hresume' : resume g' gates' (.fresh key) = (s', after', next')) :
    ∃ more, Shadow key (tickets ++ more) s after s' after' ∧
      Fares key (tickets ++ more) after.labels (.of next) (.of next') := by
  by_cases hkey : key = ""
  · subst hkey
    cases hresume
    cases hresume'
    refine ⟨[], ?_, .finished _⟩
    rw [List.append_nil]
    exact { h with }
  obtain ⟨found, cache, cache', hget, hget', hcache, hcache', hvalue⟩ := h.get
  cases found with
  | some value =>
    rw [resume_found hkey hget] at hresume
    rw [resume_found hkey hget'] at hresume'
    cases hresume
    cases hresume'
    refine ⟨[], ?_, .finished _⟩
    rw [List.append_nil]
    exact { h with cache := hcache, cache' := hcache', value := hvalue }
  | none =>
    cases hlive : g.flights.live.lookup key with
    | some t =>
      obtain ⟨j, hlive', hj⟩ := h.flights.lookup_eq_some hlive
      rw [resume_joins hg hkey hget hlive] at hresume
      rw [resume_joins hg' hkey hget' hlive'] at hresume'
      cases hresume
      cases hresume'
      refine ⟨[], ?_, ?_⟩
      · rw [List.append_nil]
        exact { h with cache := hcache, cache' := hcache', value := hvalue }
      · rw [List.append_nil]
        exact .waiting (.waiting hj)
    | none =>
      have hlive' := h.flights.lookup_eq_none.mpr hlive
      have hticket : (tickets ++ [g.flights.phases.size])[g'.flights.phases.size]? =
          some g.flights.phases.size := by
        rw [h.flights.size, List.getElem?_concat_length]
      rw [resume_departs hkey hget hlive] at hresume
      rw [resume_departs hkey hget' hlive', h.picks gates'.calls.size gates.calls.size] at hresume'
      refine ⟨[g.flights.phases.size], ?_⟩
      cases hroute : g.peers.bind fun peers => pick gates.calls.size peers key with
      | some route =>
        rw [hroute] at hresume hresume'
        cases hresume
        cases hresume'
        obtain ⟨hlabel, hcall⟩ := h.label_placed ("peer:" ++ key)
        rw [hcall]
        exact ⟨h.depart hlive hcache hcache' hvalue (ours_peer key),
          .waiting (.fetching hticket hlabel)⟩
      | none =>
        rw [hroute] at hresume hresume'
        cases hresume
        cases hresume'
        obtain ⟨hlabel, hcall⟩ := h.label_placed ("load:" ++ key)
        rw [hcall]
        exact ⟨h.depart hlive hcache hcache' hvalue (ours_load key),
          .waiting (.loading hticket hlabel)⟩

/-! ### Later turns, and drops -/

/-- **A later turn of a look-up for the key** comes to the same in the shadow. -/
theorem turn (h : Shadow key tickets g gates g' gates') (hg : g.flights.Sound)
    (hg' : g'.flights.Sound) (hlike : Likens key tickets gates.labels task task')
    (hresume : resume g gates task = (s, after, next))
    (hresume' : resume g' gates' task' = (s', after', next')) :
    Shadow key tickets s after s' after' ∧ Fares key tickets after.labels (.of next) (.of next') := by
  cases hlike with
  | @fetching j t call hj hlabel =>
    simp only [resume, h.calls.answer? hlabel (ours_peer key)] at hresume'
    simp only [resume] at hresume
    cases hanswer : gates.answer? call with
    | none =>
      rw [hanswer] at hresume hresume'
      cases hresume
      cases hresume'
      exact ⟨h, .waiting (.fetching hj hlabel)⟩
    | some answer =>
      rw [hanswer] at hresume hresume'
      cases answer with
      | ok value =>
        cases hresume
        cases hresume'
        exact ⟨{ h with flights := h.flights.land hg hg' hj (.ok value) }, .finished (.ok value)⟩
      | error e =>
        cases hresume
        cases hresume'
        obtain ⟨hlabel', hcall⟩ := h.label_placed ("load:" ++ key)
        refine ⟨{ h with calls := h.calls.place (ours_load key) }, ?_⟩
        show Fares _ _ _ _ (.waiting (.loading key j gates'.calls.size))
        rw [hcall]
        exact .waiting (.loading hj hlabel')
  | @loading j t call hj hlabel =>
    simp only [resume, h.calls.answer? hlabel (ours_load key)] at hresume'
    simp only [resume] at hresume
    cases hanswer : gates.answer? call with
    | none =>
      rw [hanswer] at hresume hresume'
      cases hresume
      cases hresume'
      exact ⟨h, .waiting (.loading hj hlabel)⟩
    | some answer =>
      rw [hanswer] at hresume hresume'
      cases answer with
      | ok value =>
        cases hresume
        cases hresume'
        obtain ⟨hcache, hcache', hvalue⟩ := h.add value
        exact ⟨{ h with
          cache := hcache, cache' := hcache', value := hvalue
          flights := h.flights.land hg hg' hj (.ok value) }, .finished (.ok value)⟩
      | error e =>
        cases hresume
        cases hresume'
        exact ⟨{ h with flights := h.flights.land hg hg' hj (.error e) }, .finished (.error e)⟩
  | @waiting j t hj =>
    simp only [resume, await, h.flights.outcome? hj] at hresume'
    simp only [resume, await] at hresume
    cases houtcome : g.flights.outcome? t with
    | none =>
      rw [houtcome] at hresume hresume'
      cases hresume
      cases hresume'
      exact ⟨h, .waiting (.waiting hj)⟩
    | some outcome =>
      rw [houtcome] at hresume hresume'
      cases hresume
      cases hresume'
      exact ⟨{ h with }, .finished outcome⟩

/-- **A look-up for the key that is dropped** is dropped in the shadow. -/
theorem abandon (h : Shadow key tickets g gates g' gates') (hg : g.flights.Sound)
    (hg' : g'.flights.Sound) (hlike : Likens key tickets labels task task') :
    Shadow key tickets (Lookup.abandon g task) gates (Lookup.abandon g' task') gates' := by
  cases hlike with
  | fetching hj hlabel | loading hj hlabel =>
    exact { h with flights := h.flights.abandon hg hg' hj }
  | waiting hj => exact h

/-! ### What is not seen -/

/-- A look-up for another key in the cache is not seen. -/
theorem get_other (h : Shadow key tickets g gates g' gates') {k : String} {found : Option Value}
    {cache : Cache} (hget : g.cache.get k = (found, cache)) :
    cache.Unbounded ∧ g'.cache.value? key = cache.value? key := by
  have hcache := h.cache.get k
  have hvalue := Cache.value?_get h.cache.carried k key
  rw [hget] at hcache hvalue
  exact ⟨hcache, h.value.trans hvalue.symm⟩

/-- Nor is a value that the cache keeps for another key. -/
theorem add_other (h : Shadow key tickets g gates g' gates') {k : String} (hk : k ≠ key)
    (value : Value) : (g.cache.add k value).Unbounded ∧
      g'.cache.value? key = (g.cache.add k value).value? key := by
  obtain ⟨hcache, hvalue⟩ := h.cache.add k value
  refine ⟨hcache, ?_⟩
  rw [hvalue, if_neg hk.symm, h.value]

end Shadow

/-- A look-up for another key than `key`, which leads no flight that is known. -/
inductive Elsewhere (key : String) (tickets : List Nat) : Lookup → Prop where
  | fresh {k : String} (hk : k ≠ key) : Elsewhere key tickets (.fresh k)
  | fetching {k : String} {t call : Nat} (hk : k ≠ key) (ht : t ∉ tickets) :
      Elsewhere key tickets (.fetching k t call)
  | loading {k : String} {t call : Nat} (hk : k ≠ key) (ht : t ∉ tickets) :
      Elsewhere key tickets (.loading k t call)
  | waiting (t : Nat) : Elsewhere key tickets (.waiting t)

namespace Shadow

/-- **A turn of a look-up for another key** is not seen. -/
theorem turn_other (h : Shadow key tickets g gates g' gates') (hg : g.flights.Sound)
    (helse : Elsewhere key tickets task) (hturn : Turn g gates task s after next) :
    Shadow key tickets s after g' gates' := by
  cases helse with
  | fresh hk =>
    cases hturn with
    | refused hempty => exact { h with }
    | found hempty hcache | joins hempty hcache hlive =>
      obtain ⟨hunbounded, hvalue⟩ := h.get_other hcache
      exact { h with cache := hunbounded, value := hvalue }
    | asksPeer hempty hcache hlive =>
      obtain ⟨hunbounded, hvalue⟩ := h.get_other hcache
      exact { h with
        cache := hunbounded, value := hvalue, flights := h.flights.board_other hk
        calls := h.calls.place_other (ours_peer_other hk) }
    | asksOrigin hempty hcache hlive =>
      obtain ⟨hunbounded, hvalue⟩ := h.get_other hcache
      exact { h with
        cache := hunbounded, value := hvalue, flights := h.flights.board_other hk
        calls := h.calls.place_other (ours_load_other hk) }
  | fetching hk ht =>
    cases hturn with
    | stillFetching hanswer => exact h
    | fetched hanswer => exact { h with flights := h.flights.finish_other hg ht _ }
    | fallsBack hanswer => exact { h with calls := h.calls.place_other (ours_load_other hk) }
  | loading hk ht =>
    cases hturn with
    | stillLoading hanswer => exact h
    | @loaded k t call value hanswer =>
      obtain ⟨hcache, hvalue⟩ := h.add_other hk value
      exact { h with
        cache := hcache, value := hvalue, flights := h.flights.finish_other hg ht _ }
    | failed hanswer => exact { h with flights := h.flights.finish_other hg ht _ }
  | waiting t =>
    cases hturn with
    | stillWaiting houtcome => exact h
    | shared houtcome => exact { h with }

/-- A look-up for another key that is dropped is not seen. -/
theorem abandon_other (h : Shadow key tickets g gates g' gates') (hg : g.flights.Sound)
    (helse : Elsewhere key tickets task) :
    Shadow key tickets (Lookup.abandon g task) gates g' gates' := by
  cases helse with
  | fetching hk ht | loading hk ht => exact { h with flights := h.flights.finish_other hg ht _ }
  | fresh hk | waiting t => exact h

end Shadow

end RingCache.Group.Lookup

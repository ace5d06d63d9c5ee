import Mathlib.Tactic.Common
import RingCache.Proofs.Flight.Sound

/-!
# The flights of one key by themselves

Of all flights, those of one key can be seen by themselves (`Shadow`): under tickets of their own, in
the same order, with the same phases, and one of them live if one of them is live among all. What is
done to a flight of the key is done to its shadow, and what is done to any other flight is not seen.
-/

namespace RingCache.Flights

variable {α : Type} {f f' : Flights α} {key : String} {tickets : List Nat} {j t : Nat}

/-- The flights `f'` are those of `key` among the flights `f`. The list says under which tickets they
are known there. -/
structure Shadow (key : String) (tickets : List Nat) (f f' : Flights α) : Prop where
  inside : ∀ t ∈ tickets, t < f.phases.size
  nodup : tickets.Nodup
  phases : ∀ j : Nat, f'.phases[j]? = tickets[j]?.bind (f.phases[·]?)
  live : (f'.live.lookup key).map (tickets[·]?) = (f.live.lookup key).map some
  /-- a flight of the key that has not ended is the live one -/
  airborne : ∀ t ∈ tickets, f.phases[t]? = some .airborne → f.live.lookup key = some t

theorem shadow_empty (key : String) : Shadow key [] (empty : Flights α) empty where
  inside := nofun
  nodup := List.nodup_nil
  phases _ := rfl
  live := rfl
  airborne := nofun

/-- Ending a flight makes its key free, and no other. -/
theorem Sound.lookup_finish (h : f.Sound) (ticket : Nat) (phase : Phase α) (key : String) :
    (f.finish ticket phase).live.lookup key =
      if f.live.lookup key = some ticket then none else f.live.lookup key := by
  apply Option.ext
  intro t
  rw [(h.finish ticket phase).lookup_eq_some]
  have hmem : (key, t) ∈ (f.finish ticket phase).live ↔ (key, t) ∈ f.live ∧ t ≠ ticket := by
    simp [h.live_finish]
  rw [hmem, ← h.lookup_eq_some]
  split
  · next hlive =>
    rw [hlive]
    simp only [Option.some.injEq, reduceCtorEq, iff_false, not_and, not_not]
    exact Eq.symm
  · next hlive =>
    refine and_iff_left_of_imp ?_
    rintro hlookup rfl
    exact hlive hlookup

theorem lookup_board (f : Flights α) (k key : String) :
    (f.board k).live.lookup key = if key = k then some f.phases.size else f.live.lookup key := by
  rw [board, List.lookup_cons]
  by_cases hk : key = k
  · simp [hk]
  · rw [if_neg hk, show (key == k) = false by simpa using hk]

theorem phases_board (f : Flights α) (k : String) (t : Nat) :
    (f.board k).phases[t]? = if t = f.phases.size then some .airborne else f.phases[t]? := by
  rw [board, Array.getElem?_push]

theorem size_board (f : Flights α) (k : String) :
    (f.board k).phases.size = f.phases.size + 1 :=
  Array.size_push _

theorem size_finish (f : Flights α) (t : Nat) (phase : Phase α) :
    (f.finish t phase).phases.size = f.phases.size :=
  Array.size_setIfInBounds

namespace Shadow

/-- There is a shadow of each ticket. -/
theorem size (h : Shadow key tickets f f') : f'.phases.size = tickets.length := by
  have hlt : ∀ j, j < f'.phases.size ↔ j < tickets.length := by
    intro j
    rw [← isSome_getElem? f'.phases j, h.phases]
    cases hj : tickets[j]? with
    | none => simpa using hj
    | some t =>
      obtain ⟨hlt, rfl⟩ := List.getElem?_eq_some_iff.mp hj
      simp [hlt, h.inside _ (List.getElem_mem hlt)]
  have h1 := hlt f'.phases.size
  have h2 := hlt tickets.length
  omega

/-- A ticket that is known has the phase of its shadow. -/
theorem phase (h : Shadow key tickets f f') (hj : tickets[j]? = some t) :
    f'.phases[j]? = f.phases[t]? := by
  rw [h.phases, hj]
  rfl

/-- No ticket is known twice. -/
theorem eq_iff (h : Shadow key tickets f f') {k u : Nat} (hk : tickets[k]? = some u)
    (hj : tickets[j]? = some t) : k = j ↔ u = t := by
  constructor
  · rintro rfl
    exact Option.some_inj.mp (hk.symm.trans hj)
  · rintro rfl
    have hlt := (List.getElem?_eq_some_iff.mp hk).1
    exact (List.getElem?_inj hlt h.nodup).mp (hk.trans hj.symm)

/-- Who waits for a flight of the key learns the same from its shadow. -/
theorem outcome? (h : Shadow key tickets f f') (hj : tickets[j]? = some t) :
    f'.outcome? j = f.outcome? t := by
  rw [Flights.outcome?, Flights.outcome?, h.phase hj]

theorem lookup_eq_none (h : Shadow key tickets f f') :
    f'.live.lookup key = none ↔ f.live.lookup key = none := by
  rw [← Option.map_eq_none_iff, h.live, Option.map_eq_none_iff]

theorem lookup_eq_some (h : Shadow key tickets f f') (hlive : f.live.lookup key = some t) :
    ∃ j, f'.live.lookup key = some j ∧ tickets[j]? = some t := by
  have hmap := h.live
  rw [hlive, Option.map_some, Option.map_eq_some_iff] at hmap
  exact hmap

/-- **A new flight of the key** gets the next ticket in its shadow. -/
theorem board (h : Shadow key tickets f f') (hfree : f.live.lookup key = none) :
    Shadow key (tickets ++ [f.phases.size]) (f.board key) (f'.board key) where
  inside := by
    intro t ht
    rw [size_board]
    rcases List.mem_append.mp ht with ht | ht
    · exact Nat.lt_succ_of_lt (h.inside t ht)
    · rw [List.mem_singleton.mp ht]
      exact Nat.lt_succ_self _
  nodup := by
    apply List.Nodup.append h.nodup (List.nodup_singleton _)
    rw [List.disjoint_singleton]
    exact fun hmem => Nat.lt_irrefl _ (h.inside _ hmem)
  phases := by
    intro j
    rw [phases_board, h.size]
    -- an old flight, the new one, or none
    rcases Nat.lt_trichotomy j tickets.length with hlt | rfl | hgt
    · have hold : tickets[j]? = some tickets[j] := List.getElem?_eq_getElem hlt
      have hinside := h.inside _ (List.getElem_mem hlt)
      rw [if_neg (Nat.ne_of_lt hlt), List.getElem?_append_left hlt, hold, h.phase hold,
        Option.bind_some, phases_board, if_neg (Nat.ne_of_lt hinside)]
    · rw [if_pos rfl, List.getElem?_concat_length, Option.bind_some, phases_board, if_pos rfl]
    · have hnone : (tickets ++ [f.phases.size])[j]? = none := by
        apply List.getElem?_eq_none
        rwa [List.length_append, List.length_singleton]
      rw [if_neg (Nat.ne_of_gt hgt), h.phases, List.getElem?_eq_none (Nat.le_of_lt hgt), hnone]
      rfl
  live := by
    rw [lookup_board, lookup_board, if_pos rfl, if_pos rfl, h.size, Option.map_some,
      List.getElem?_concat_length]
    rfl
  airborne := by
    intro t ht hphase
    rw [lookup_board, if_pos rfl]
    rw [phases_board] at hphase
    rcases List.mem_append.mp ht with ht | ht
    · -- while the key is free, all its earlier flights have ended
      rw [if_neg (Nat.ne_of_lt (h.inside t ht))] at hphase
      have hlive := h.airborne t ht hphase
      rw [hfree] at hlive
      cases hlive
    · rw [List.mem_singleton.mp ht]

/-- A new flight of another key is not seen. -/
theorem board_other (h : Shadow key tickets f f') {k : String} (hk : k ≠ key) :
    Shadow key tickets (f.board k) f' where
  inside t ht := by
    rw [size_board]
    exact Nat.lt_succ_of_lt (h.inside t ht)
  nodup := h.nodup
  phases j := by
    rw [h.phases]
    cases hj : tickets[j]? with
    | none => rfl
    | some t =>
      have hinside := h.inside t (List.mem_of_getElem? hj)
      rw [Option.bind_some, Option.bind_some, phases_board, if_neg (Nat.ne_of_lt hinside)]
  live := by rw [lookup_board, if_neg hk.symm, h.live]
  airborne t ht hphase := by
    rw [phases_board, if_neg (Nat.ne_of_lt (h.inside t ht))] at hphase
    rw [lookup_board, if_neg hk.symm, h.airborne t ht hphase]

/-- **A flight of the key that ends** ends in its shadow. -/
theorem finish (h : Shadow key tickets f f') (hf : f.Sound) (hf' : f'.Sound)
    (hj : tickets[j]? = some t) {phase : Phase α} (hphase : phase ≠ .airborne) :
    Shadow key tickets (f.finish t phase) (f'.finish j phase) where
  inside u hu := by
    rw [size_finish]
    exact h.inside u hu
  nodup := h.nodup
  phases k := by
    -- the flight `k` is the shadow of one that ends only if it is the one that ends here
    rw [phases_finish]
    cases hk : tickets[k]? with
    | none =>
      have hne : k ≠ j := by
        rintro rfl
        rw [hk] at hj
        cases hj
      rw [if_neg hne, h.phases, hk]
      rfl
    | some u =>
      rw [Option.bind_some, phases_finish, h.phase hk]
      simp only [h.eq_iff hk hj]
  live := by
    rw [hf.lookup_finish, hf'.lookup_finish]
    cases hlive : f.live.lookup key with
    | none => simp [h.lookup_eq_none.mpr hlive]
    | some u =>
      obtain ⟨k, hk, hu⟩ := h.lookup_eq_some hlive
      rw [hk]
      simp only [Option.some.injEq, h.eq_iff hu hj]
      split
      · rfl
      · rw [Option.map_some, hu, Option.map_some]
  airborne u hu hairborne := by
    rw [phases_finish] at hairborne
    split at hairborne
    · obtain ⟨-, -, rfl⟩ := Option.map_eq_some_iff.mp hairborne
      exact absurd rfl hphase
    · next hne =>
      rw [hf.lookup_finish, h.airborne u hu hairborne, if_neg (by simpa using hne)]

theorem land (h : Shadow key tickets f f') (hf : f.Sound) (hf' : f'.Sound)
    (hj : tickets[j]? = some t) (outcome : Except CacheError α) :
    Shadow key tickets (f.land t outcome) (f'.land j outcome) :=
  h.finish hf hf' hj nofun

theorem abandon (h : Shadow key tickets f f') (hf : f.Sound) (hf' : f'.Sound)
    (hj : tickets[j]? = some t) : Shadow key tickets (f.abandon t) (f'.abandon j) :=
  h.finish hf hf' hj nofun

/-- A flight of another key that ends is not seen. -/
theorem finish_other (h : Shadow key tickets f f') (hf : f.Sound) (ht : t ∉ tickets)
    (phase : Phase α) : Shadow key tickets (f.finish t phase) f' where
  inside u hu := by
    rw [size_finish]
    exact h.inside u hu
  nodup := h.nodup
  phases k := by
    rw [h.phases]
    cases hk : tickets[k]? with
    | none => rfl
    | some u =>
      have hne : u ≠ t := fun heq => ht (heq ▸ List.mem_of_getElem? hk)
      rw [Option.bind_some, Option.bind_some, phases_finish, if_neg hne]
  live := by
    have hne : f.live.lookup key ≠ some t := by
      intro hlive
      obtain ⟨j, -, hj⟩ := h.lookup_eq_some hlive
      exact ht (List.mem_of_getElem? hj)
    rw [hf.lookup_finish, if_neg hne, h.live]
  airborne u hu hairborne := by
    have hne : u ≠ t := fun heq => ht (heq ▸ hu)
    rw [phases_finish, if_neg hne] at hairborne
    rw [hf.lookup_finish, h.airborne u hu hairborne, if_neg (by simpa using hne)]

/-- Whoever leads a flight of another key has no ticket that is known. -/
theorem not_mem_of_live (h : Shadow key tickets f f') (hf : f.Sound) {k : String}
    (hlive : (k, t) ∈ f.live) (hk : k ≠ key) : t ∉ tickets := by
  intro ht
  have hlookup := h.airborne t ht (hf.airborne _ hlive)
  have hsame := List.inj_on_of_nodup_map hf.tickets hlive (hf.lookup_eq_some.mp hlookup) rfl
  exact hk (congrArg Prod.fst hsame)

end Shadow

end RingCache.Flights

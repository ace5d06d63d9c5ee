import Mathlib.Tactic.Common
import RingCache.Cache
import RingCache.Proofs.Lru.Refinement

/-!
# The counted cache carries a recency list

A look-up finds what stands in the list, and is counted as a hit or as a miss. Adding leaves the
newest entries of the list with the new one in front, and counts those that it pushes out.
-/

namespace RingCache.Cache

open Lru Recency

variable {c : Cache} {l : Recency Value}

theorem get_spec (h : Carries c.store l) (key : String) :
    (c.get key).1 = l.lookup key ∧
      Carries (c.get key).2.store (step c.store.budget l (.get key)).entries := by
  obtain ⟨store, hok, -, hstore⟩ := h.get_spec key
  simp only [get, hok]
  cases l.lookup key with
  | none => exact ⟨rfl, hstore⟩
  | some value => exact ⟨rfl, hstore⟩

theorem get_entries_subset (budget : UInt64) (l : Recency Value) (key : String) :
    (step budget l (.get key)).entries ⊆ l := by
  intro e he
  simp only [step] at he
  split at he
  · exact he
  · next value hvalue =>
    rcases List.mem_cons.mp he with rfl | he
    · obtain ⟨front, back, rfl, -⟩ := List.lookup_eq_some_iff.mp hvalue
      exact List.mem_append_right _ List.mem_cons_self
    · exact (List.mem_filter.mp he).1

/-- A look-up moves at most one entry. -/
theorem get_entries_perm (budget : UInt64) (hkeys : l.keys.Nodup) (key : String) :
    (step budget l (.get key)).entries.Perm l := by
  simp only [step]
  split
  · exact .refl l
  · next value hvalue =>
    obtain ⟨front, back, rfl, -⟩ := List.lookup_eq_some_iff.mp hvalue
    have hplace : (front ++ (key, value) :: back)[front.length]? = some (key, value) := by simp
    have hlt : front.length < (front ++ (key, value) :: back).length := by simp
    rw [without_eq_eraseIdx hkeys hplace]
    have hpick := List.getElem_cons_eraseIdx_perm hlt
    rwa [(List.getElem?_eq_some_iff.mp hplace).2] at hpick

/-- **Adding never fails**, as the count of the bytes may wrap. What it pushes out is counted. -/
theorem add_spec (h : Carries c.store l) (key : String) (value : Value) :
    ∃ l', Carries (c.add key value).store l' ∧ l' <+: (key, value) :: without l key ∧
      (c.add key value).evictions =
        c.evictions + UInt64.ofNat (((key, value) :: without l key).length - l'.length) := by
  rcases h.add_spec key value .wrapping with ⟨-, hcounting, -⟩ | ⟨store, l', hok, -, hstore, hpre, -⟩
  · cases hcounting
  · refine ⟨l', ?_, hpre, ?_⟩
    · rw [add, hok]
      exact hstore
    · rw [add, hok]
      simp only [List.length_reverse, List.length_drop]

theorem budget_get (h : Carries c.store l) (key : String) :
    (c.get key).2.store.budget = c.store.budget := by
  obtain ⟨store, hok, hbudget, -⟩ := h.get_spec key
  simp only [get, hok]
  cases l.lookup key with
  | none => exact hbudget
  | some value => exact hbudget

/-- What is found stands in the list, and moves to the front. -/
theorem get_found (h : Carries c.store l) {key : String} {value : Value} {cache : Cache}
    (hcache : c.get key = (some value, cache)) :
    (key, value) ∈ l ∧ cache.store.budget = c.store.budget ∧
      Carries cache.store ((key, value) :: without l key) := by
  have hlookup := (get_spec h key).1
  have hstore := (get_spec h key).2
  have hbudget := budget_get h key
  rw [hcache] at hlookup hstore hbudget
  simp only [step, ← hlookup] at hstore
  obtain ⟨front, back, rfl, -⟩ := List.lookup_eq_some_iff.mp hlookup.symm
  exact ⟨List.mem_append_right _ List.mem_cons_self, hbudget, hstore⟩

/-- Where nothing is found, nothing moves. -/
theorem get_missed (h : Carries c.store l) {key : String} {cache : Cache}
    (hcache : c.get key = (none, cache)) :
    key ∉ l.keys ∧ cache.store.budget = c.store.budget ∧ Carries cache.store l := by
  have hlookup := (get_spec h key).1
  have hstore := (get_spec h key).2
  have hbudget := budget_get h key
  rw [hcache] at hlookup hstore hbudget
  simp only [step, ← hlookup] at hstore
  exact ⟨not_mem_of_lookup hlookup.symm, hbudget, hstore⟩

/-- Where nothing is found, that is counted, and nothing else changes. -/
theorem eq_of_get_missed {key : String} {cache : Cache} (hcache : c.get key = (none, cache)) :
    cache = { c with misses := c.misses + 1 } := by
  rw [get, Store.get] at hcache
  cases hi : c.store.index[key]? with
  | none =>
    rw [hi] at hcache
    exact (congrArg Prod.snd hcache).symm
  | some i =>
    -- a key that the index knows has a slot, or else the step faults
    rw [hi] at hcache
    simp only [bind, Except.bind] at hcache
    split at hcache
    · cases hcache
    · next out hout =>
      split at hout
      · cases hout
      · split at hout <;> cases hout
    · exact (congrArg Prod.snd hcache).symm

/-- Where the bytes can be counted, adding leaves just what the budget lets stay. -/
theorem add_kept (h : Carries c.store l) (key : String) (value : Value)
    (hfit : bytes l + entryBytes (key, value) < UInt64.size) :
    (c.add key value).store.budget = c.store.budget ∧
      Carries (c.add key value).store (kept c.store.budget ((key, value) :: without l key)) := by
  rcases h.add_spec key value .wrapping with
    ⟨-, hcounting, -⟩ | ⟨store, l', hok, hbudget, hstore, -, hkept⟩
  · cases hcounting
  · rw [add, hok]
    exact ⟨hbudget, hkept hfit ▸ hstore⟩

/-! ### Keys -/

/-- The cache carries some recency list. -/
def Carried (c : Cache) : Prop := ∃ l, Carries c.store l

/-- A look-up finds the keys that are kept. -/
theorem get_eq_none_iff (h : c.Carried) (key : String) :
    (c.get key).1 = none ↔ key ∉ c.store.keys := by
  obtain ⟨l, hcarries⟩ := h
  rw [(get_spec hcarries key).1, Store.keys, hcarries.toList_eq]
  exact ⟨not_mem_of_lookup, lookup_eq_none⟩

theorem carried_get (h : c.Carried) (key : String) :
    (c.get key).2.Carried ∧ (c.get key).2.store.keys ⊆ c.store.keys := by
  obtain ⟨l, hcarries⟩ := h
  have hget := (get_spec hcarries key).2
  refine ⟨⟨_, hget⟩, ?_⟩
  rw [Store.keys, Store.keys, hget.toList_eq, hcarries.toList_eq]
  exact List.map_subset _ (get_entries_subset _ l key)

theorem carried_add (h : c.Carried) (key : String) (value : Value) :
    (c.add key value).Carried ∧ (c.add key value).store.keys ⊆ key :: c.store.keys := by
  obtain ⟨l, hcarries⟩ := h
  obtain ⟨l', hadd, hpre, -⟩ := add_spec hcarries key value
  refine ⟨⟨l', hadd⟩, ?_⟩
  rw [Store.keys, Store.keys, hadd.toList_eq, hcarries.toList_eq]
  intro k hk
  obtain ⟨e, he, rfl⟩ := List.mem_map.mp hk
  rcases List.mem_cons.mp (hpre.subset he) with rfl | he
  · exact List.mem_cons_self
  · exact List.mem_cons_of_mem _ (List.mem_map_of_mem (List.mem_filter.mp he).1)

/-! ### Without a limit -/

/-- The value that is kept for a key. -/
def value? (c : Cache) (key : String) : Option Value := c.store.toList.lookup key

/-- The cache carries some recency list, and has no limit. -/
structure Unbounded (c : Cache) : Prop where
  budget : c.store.budget = 0
  carried : c.Carried

theorem unbounded_empty : (empty 0).Unbounded := ⟨rfl, [], carries_empty 0⟩

theorem fst_get (h : c.Carried) (key : String) : (c.get key).1 = c.value? key := by
  obtain ⟨l, hcarries⟩ := h
  rw [(get_spec hcarries key).1, value?, hcarries.toList_eq]

theorem lookup_front (l : Recency Value) (key k : String) (value : Value) :
    List.lookup k ((key, value) :: without l key) = if k = key then some value else l.lookup k := by
  rw [List.lookup_cons]
  by_cases hk : k = key
  · rw [if_pos hk, show (k == key) = true by simpa using hk]
  · rw [if_neg hk, show (k == key) = false by simpa using hk]
    exact lookup_without hk

/-- A look-up takes no value away. -/
theorem value?_get (h : c.Carried) (key k : String) : (c.get key).2.value? k = c.value? k := by
  obtain ⟨l, hcarries⟩ := h
  rw [value?, value?, hcarries.toList_eq, (get_spec hcarries key).2.toList_eq]
  simp only [step]
  split
  · rfl
  · next value hvalue =>
    rw [lookup_front]
    split
    · next hk => rw [hk, hvalue]
    · rfl

theorem Unbounded.get (h : c.Unbounded) (key : String) : (c.get key).2.Unbounded := by
  obtain ⟨l, hcarries⟩ := h.carried
  exact ⟨(budget_get hcarries key).trans h.budget, _, (get_spec hcarries key).2⟩

/-- Adding changes the value of its own key alone. -/
theorem Unbounded.add (h : c.Unbounded) (key : String) (value : Value) :
    (c.add key value).Unbounded ∧
      ∀ k, (c.add key value).value? k = if k = key then some value else c.value? k := by
  obtain ⟨l, hcarries⟩ := h.carried
  obtain ⟨store, hok, hbudget, hstore⟩ := hcarries.add_unbounded h.budget key value
  have hadd : (c.add key value).store = store := by rw [Cache.add, hok]
  refine ⟨⟨hadd ▸ hbudget, _, hadd ▸ hstore⟩, fun k => ?_⟩
  rw [value?, value?, hadd, hstore.toList_eq, hcarries.toList_eq, lookup_front]

/-! ### What is counted -/

theorem counts_found {key : String} {value : Value} {c' : Cache}
    (h : c.get key = (some value, c')) : c'.hits = c.hits + 1 ∧ c'.misses = c.misses := by
  rw [get] at h
  split at h <;> cases h
  exact ⟨rfl, rfl⟩

theorem counts_missed {key : String} {c' : Cache} (h : c.get key = (none, c')) :
    c'.hits = c.hits ∧ c'.misses = c.misses + 1 := by
  rw [get] at h
  split at h <;> cases h
  · exact ⟨rfl, rfl⟩
  · exact ⟨rfl, rfl⟩

@[simp] theorem evictions_get (c : Cache) (key : String) :
    (c.get key).2.evictions = c.evictions := by
  rw [get]
  split <;> rfl

@[simp] theorem hits_add (c : Cache) (key : String) (value : Value) :
    (c.add key value).hits = c.hits := by
  rw [add]
  split <;> rfl

@[simp] theorem misses_add (c : Cache) (key : String) (value : Value) :
    (c.add key value).misses = c.misses := by
  rw [add]
  split <;> rfl

end RingCache.Cache

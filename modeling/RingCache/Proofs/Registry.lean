import Mathlib.Tactic.Common
import RingCache.Registry

/-!
# Names in a registry

An entry is put before the first one with a greater name, so that the names stay in increasing order
(`pairwise_register`), and a name that is taken is not put in again. So no name is there twice.
-/

namespace RingCache.Registry

variable {μ : Type} {r r' : Registry μ} {name : String} {m : μ} {entries : List (String × μ)}

theorem find?_eq_none_iff : r.find? name = none ↔ name ∉ r.names := by
  rw [find?, List.lookup_eq_none_iff]
  constructor
  · intro h hmem
    obtain ⟨e, he, rfl⟩ := List.mem_map.mp hmem
    simpa using h e he
  · intro h e he
    have hne : name ≠ e.1 := fun heq => h (heq ▸ List.mem_map_of_mem he)
    simpa using hne

theorem mem_of_find? (h : r.find? name = some m) : (name, m) ∈ r.entries := by
  obtain ⟨front, back, hentries, -⟩ := List.lookup_eq_some_iff.mp h
  rw [hentries]
  exact List.mem_append_right _ List.mem_cons_self

theorem find?_of_require (h : r.require name = .ok m) : r.find? name = some m := by
  rw [require] at h
  split at h
  · next hfind =>
    cases h
    exact hfind
  · cases h

theorem insertSorted_perm (name : String) (m : μ) (entries : List (String × μ)) :
    (insertSorted name m entries).Perm ((name, m) :: entries) := by
  induction entries with
  | nil => exact .refl _
  | cons e entries ih =>
    obtain ⟨n, other⟩ := e
    rw [insertSorted]
    split
    · exact .refl _
    · exact (ih.cons _).trans (.swap _ _ _)

/-- **The order of the names stays** when a new one comes in. -/
theorem pairwise_insertSorted (h : (entries.map Prod.fst).Pairwise (· < ·))
    (hnew : name ∉ entries.map Prod.fst) (m : μ) :
    ((insertSorted name m entries).map Prod.fst).Pairwise (· < ·) := by
  induction entries with
  | nil => exact List.pairwise_singleton _ _
  | cons e entries ih =>
    obtain ⟨n, other⟩ := e
    obtain ⟨hfirst, hrest⟩ := List.pairwise_cons.mp h
    obtain ⟨hne, hnew⟩ := not_or.mp (mt List.mem_cons.mpr hnew)
    rw [insertSorted]
    split
    · next hlt =>
      refine List.pairwise_cons.mpr ⟨fun k hk => ?_, h⟩
      rcases List.mem_cons.mp hk with rfl | hk
      · exact hlt
      · exact String.lt_trans hlt (hfirst k hk)
    · next hge =>
      have hlt : n < name :=
        String.not_le.mp fun hle => hne (String.le_antisymm hle (String.not_lt.mp hge))
      refine List.pairwise_cons.mpr ⟨fun k hk => ?_, ih hrest hnew⟩
      rcases List.mem_cons.mp (((insertSorted_perm name m entries).map Prod.fst).mem_iff.mp hk) with
        rfl | hk
      · exact hlt
      · exact hfirst k hk

/-- An entry is found under its name, and all others as before. -/
theorem lookup_insertSorted (hnew : name ∉ entries.map Prod.fst) (m : μ) (k : String) :
    (insertSorted name m entries).lookup k = if k = name then some m else entries.lookup k := by
  -- a name that is not the one of the first entry is not found there
  have hother : ∀ {n : String} {x : μ} {l : List (String × μ)}, k ≠ n →
      ((n, x) :: l).lookup k = l.lookup k := by
    intro n x l hk
    have hne : (k == n) = false := by simpa using hk
    rw [List.lookup_cons, hne]
  induction entries with
  | nil =>
    by_cases hk : k = name
    · simp [insertSorted, hk]
    · rw [insertSorted, hother hk, if_neg hk]
  | cons e entries ih =>
    obtain ⟨n, x⟩ := e
    obtain ⟨hne, hnew⟩ := not_or.mp (mt List.mem_cons.mpr hnew)
    replace hne : name ≠ n := hne
    rw [insertSorted]
    split
    · by_cases hk : k = name
      · rw [if_pos hk, hk, List.lookup_cons_self]
      · rw [if_neg hk, hother hk]
    · by_cases hk : k = n
      · rw [hk, if_neg hne.symm, List.lookup_cons_self, List.lookup_cons_self]
      · rw [hother hk, hother hk, ih hnew]

/-- What registering does: the name was free, and the member has it now. -/
theorem register_eq_ok (h : r.register name m = .ok r') :
    name ∉ r.names ∧ r'.entries = insertSorted name m r.entries := by
  rw [register] at h
  split at h
  · cases h
  · split at h
    · cases h
    · next hnone =>
      cases h
      exact ⟨find?_eq_none_iff.mp hnone, rfl⟩

theorem find?_register (h : r.register name m = .ok r') (k : String) :
    r'.find? k = if k = name then some m else r.find? k := by
  obtain ⟨hnew, hentries⟩ := register_eq_ok h
  rw [find?, hentries]
  exact lookup_insertSorted hnew m k

theorem pairwise_register (h : r.names.Pairwise (· < ·)) (hok : r.register name m = .ok r') :
    r'.names.Pairwise (· < ·) := by
  obtain ⟨hnew, hentries⟩ := register_eq_ok hok
  rw [names, hentries]
  exact pairwise_insertSorted h hnew m

theorem names_replace (r : Registry μ) (name : String) (m : μ) :
    (r.replace name m).names = r.names := by
  rw [names, replace, List.map_map, names]
  refine List.map_congr_left fun e _ => ?_
  simp only [Function.comp]
  split
  · rfl
  · rfl

theorem mem_replace {e : String × μ} (h : e ∈ (r.replace name m).entries) :
    e = (name, m) ∨ e ∈ r.entries := by
  obtain ⟨⟨n, old⟩, hold, rfl⟩ := List.mem_map.mp h
  by_cases hn : n = name
  · exact .inl (by simp [hn])
  · exact .inr (by simpa [hn] using hold)

end RingCache.Registry

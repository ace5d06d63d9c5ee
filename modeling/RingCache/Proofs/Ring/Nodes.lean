import Mathlib.Tactic.Common
import RingCache.Proofs.Ring.Entries

/-!
# What a ring answers, read off its entries

All that a ring can be asked is said by the list of its entries (`reads_entries`): who owns a key,
how many positions there are, and which nodes own one. So it does not matter by how many calls the
nodes were added.

The nodes are listed in increasing order, each once (`pairwise_sortedDistinct`). A node whose every
position was taken by later ones is not among them.
-/

namespace RingCache.Ring

/-! ### Texts in increasing order, each once -/

theorem mem_distinct {name : String} {names : List String} :
    name ∈ distinct names ↔ name ∈ names := by
  fun_induction distinct names with
  | case1 => rfl
  | case2 a => rfl
  | case3 b rest ih =>
    rw [ih]
    simp
  | case4 a b rest hne ih => rw [List.mem_cons, ih, ← List.mem_cons]

theorem pairwise_distinct {names : List String} (h : names.Pairwise (· ≤ ·)) :
    (distinct names).Pairwise (· < ·) := by
  fun_induction distinct names with
  | case1 => exact .nil
  | case2 a => exact List.pairwise_singleton _ a
  | case3 b rest ih => exact ih (List.pairwise_cons.mp h).2
  | case4 a b rest hne ih =>
    obtain ⟨hle, hrest⟩ := List.pairwise_cons.mp h
    refine List.pairwise_cons.mpr ⟨?_, ih hrest⟩
    intro name hname
    have hab : a < b := by
      rw [← String.not_le]
      exact fun hba => hne (String.le_antisymm (hle b List.mem_cons_self) hba)
    -- all others come after `b`, which comes after `a`
    rcases List.mem_cons.mp (mem_distinct.mp hname) with rfl | hmem
    · exact hab
    · have hbn : b ≤ name := (List.pairwise_cons.mp hrest).1 name hmem
      rw [← String.not_le]
      exact fun hna => String.not_le.mpr hab (String.le_trans hbn hna)

theorem mem_sortedDistinct {name : String} {names : List String} :
    name ∈ sortedDistinct names ↔ name ∈ names := by
  rw [sortedDistinct, mem_distinct, (List.mergeSort_perm _ _).mem_iff]

/-- **A listing is in increasing order**, without repetitions. -/
theorem pairwise_sortedDistinct (names : List String) :
    (sortedDistinct names).Pairwise (· < ·) := by
  apply pairwise_distinct
  have htotal : ∀ a b : String, (decide (a ≤ b) || decide (b ≤ a)) = true := by
    intro a b
    simpa using String.le_total a b
  have htrans : ∀ a b c : String, decide (a ≤ b) = true → decide (b ≤ c) = true →
      decide (a ≤ c) = true := by
    intro a b c hab hbc
    exact decide_eq_true (String.le_trans (of_decide_eq_true hab) (of_decide_eq_true hbc))
  refine (List.pairwise_mergeSort htrans htotal names).imp ?_
  intro a b hab
  exact of_decide_eq_true hab

theorem nodup_of_pairwise_lt {names : List String} (h : names.Pairwise (· < ·)) : names.Nodup := by
  refine h.imp ?_
  rintro a b hlt rfl
  exact String.lt_irrefl a hlt

/-- Texts in increasing order are told by which they are. -/
theorem eq_of_pairwise_lt {names others : List String} (h : names.Pairwise (· < ·))
    (h' : others.Pairwise (· < ·)) (hsame : ∀ name, name ∈ names ↔ name ∈ others) :
    names = others := by
  have hperm : names.Perm others := by
    rw [List.perm_ext_iff_of_nodup (nodup_of_pairwise_lt h) (nodup_of_pairwise_lt h')]
    exact hsame
  refine hperm.eq_of_pairwise ?_ h h'
  intro a b _ _ hab hba
  exact absurd (String.lt_trans hab hba) (String.lt_irrefl a)

/-- Two listings of the same names are the same. -/
theorem sortedDistinct_congr {names others : List String}
    (hsame : ∀ name, name ∈ names ↔ name ∈ others) :
    sortedDistinct names = sortedDistinct others := by
  refine eq_of_pairwise_lt (pairwise_sortedDistinct names) (pairwise_sortedDistinct others) ?_
  intro name
  rw [mem_sortedDistinct, mem_sortedDistinct, hsame]

/-! ### The nodes on a ring -/

theorem mem_values {m : Std.HashMap UInt32 String} {node : String} :
    node ∈ m.values ↔ ∃ p : UInt32, m[p]? = some node := by
  -- nothing is known of `values` but by the list inside the map
  have hvalues : m.values = m.toList.map Prod.snd := by
    show Std.DHashMap.Raw.values m.inner.1 =
      (Std.DHashMap.Raw.Const.toList m.inner.1).map Prod.snd
    rw [Std.DHashMap.Internal.Raw.values_eq_values_toListModel,
      Std.DHashMap.Internal.Raw.Const.toList_eq_toListModel_map,
      Std.Internal.List.values_eq_map, List.map_map]
    rfl
  rw [hvalues, List.mem_map]
  constructor
  · rintro ⟨⟨p, n⟩, hmem, rfl⟩
    exact ⟨p, Std.HashMap.mem_toList_iff_getElem?_eq_some.mp hmem⟩
  · rintro ⟨p, hp⟩
    exact ⟨(p, node), Std.HashMap.mem_toList_iff_getElem?_eq_some.mpr hp, rfl⟩

namespace Stands

variable {r : Ring} {es : List Entry}

/-- **The nodes of a ring** are those that have the last entry at some position. -/
theorem mem_nodes (h : Stands r es) {node : String} :
    node ∈ r.nodes ↔ ∃ p, lastAt es p = some node := by
  rw [nodes, mem_sortedDistinct, mem_values]
  simp only [h.owners]

/-- Where there are entries, a key has an owner: the last one at the next position. -/
theorem owner?_eq_some (h : Stands r es) (hes : es ≠ []) (key : String) :
    ∃ p, Next (es.map Prod.fst) (r.hash key.toUTF8) p ∧
      ∃ node, lastAt es p = some node ∧ r.owner? key = some node := by
  obtain ⟨p, hp⟩ := h.next_exists hes (r.hash key.toUTF8)
  obtain ⟨node, hnode⟩ := lastAt_isSome hp.mem
  exact ⟨p, hp, node, hnode, (h.owner?_next hp).trans hnode⟩

theorem owner?_eq_none_iff (h : Stands r es) (key : String) :
    r.owner? key = none ↔ es = [] := by
  constructor
  · intro hnone
    by_contra hes
    obtain ⟨p, -, node, -, hsome⟩ := h.owner?_eq_some hes key
    rw [hnone] at hsome
    cases hsome
  · rintro rfl
    exact h.owner?_nil key

/-- Rings that stand for the same entries answer the same. -/
theorem answers_congr {r' : Ring} (h : Stands r es) (h' : Stands r' es) (hhash : r'.hash = r.hash) :
    (∀ key, r'.owner? key = r.owner? key) ∧ r'.size = r.size ∧ r'.nodes = r.nodes := by
  refine ⟨?_, h'.size_eq.trans h.size_eq.symm, ?_⟩
  · intro key
    by_cases hes : es = []
    · rw [(h.owner?_eq_none_iff key).mpr hes, (h'.owner?_eq_none_iff key).mpr hes]
    · obtain ⟨p, hp⟩ := h.next_exists hes (r.hash key.toUTF8)
      rw [h.owner?_next hp, h'.owner?_next (by rwa [hhash])]
  · apply sortedDistinct_congr
    intro node
    simp only [mem_values, h.owners, h'.owners]

end Stands

/-- **All answers of a ring are read off its entries**, whatever the hash, so that positions may fall
together: these are the positions of the nodes in the order in which they were added, each with its
node.

* a key has no owner just if there are no entries; else it belongs to the node of the last entry at
  the next position on the circle, of which there is one;
* there are as many positions as entries;
* the nodes are those of the last entries at some position, in increasing order and each once;
* by which calls the nodes were added makes no difference. -/
theorem reads_entries (hash : Hash) (replicas : Nat) (calls : List (List String)) :
    let r := built hash replicas calls
    let es := entries hash replicas calls.flatten
    (∀ key, r.owner? key = none ↔ es = []) ∧
      (es ≠ [] → ∀ key, ∃ p, Next (es.map Prod.fst) (hash key.toUTF8) p ∧
        (∀ q, Next (es.map Prod.fst) (hash key.toUTF8) q → q = p) ∧
        ∃ node, lastAt es p = some node ∧ r.owner? key = some node) ∧
      r.size = es.length ∧
      r.nodes.Pairwise (· < ·) ∧
      (∀ node, node ∈ r.nodes ↔ ∃ p, lastAt es p = some node) ∧
      ∀ calls', calls'.flatten = calls.flatten →
        (∀ key, (built hash replicas calls').owner? key = r.owner? key) ∧
          (built hash replicas calls').size = r.size ∧
          (built hash replicas calls').nodes = r.nodes := by
  intro r es
  have hstands : Stands r es := stands_built hash replicas calls
  have hhash : r.hash = hash := hash_built hash replicas calls
  refine ⟨hstands.owner?_eq_none_iff, ?_, hstands.size_eq, pairwise_sortedDistinct _,
    fun node => hstands.mem_nodes, ?_⟩
  · intro hes key
    obtain ⟨p, hp, hnode⟩ := hstands.owner?_eq_some hes key
    rw [hhash] at hp
    exact ⟨p, hp, fun q hq => hq.unique hp, hnode⟩
  · intro calls' hsame
    have hstands' := stands_built hash replicas calls'
    rw [hsame] at hstands'
    exact hstands.answers_congr hstands' ((hash_built ..).trans hhash.symm)

end RingCache.Ring

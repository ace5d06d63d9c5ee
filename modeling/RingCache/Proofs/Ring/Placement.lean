import Mathlib.Tactic.Common
import RingCache.Peer.Pool
import RingCache.Proofs.Ring.Entries

/-!
# Which node owns a key

Positions are hashes of texts, and two nodes may come to the same one: by chance, or as a number in
front of one name spells what another number spells in front of another name. Then the node that was
added last has the position (`owner?_of_last`), so that the order of the nodes matters.

Where no two nodes share a position (`Apart`), the owner of a key depends only on the names, neither
on their order nor on how often each is added (`owner?_of_same_names`).
-/

namespace RingCache.Ring

variable {hash : Hash} {replicas : Nat}

/-- No two of these nodes share a position. -/
def Apart (hash : Hash) (replicas : Nat) (nodes : List String) : Prop :=
  ∀ m ∈ nodes, ∀ n ∈ nodes, ∀ i < replicas, ∀ j < replicas,
    position hash m i = position hash n j → m = n

instance (hash : Hash) (replicas : Nat) (nodes : List String) :
    Decidable (Apart hash replicas nodes) :=
  inferInstanceAs (Decidable (∀ m ∈ nodes, ∀ n ∈ nodes, ∀ i < replicas, ∀ j < replicas,
    position hash m i = position hash n j → m = n))

/-- Positions are taken or not, whatever the order of the nodes. -/
theorem mem_positions_entries {nodes : List String} {p : UInt32} :
    p ∈ (entries hash replicas nodes).map Prod.fst ↔
      ∃ node ∈ nodes, ∃ i < replicas, position hash node i = p := by
  rw [List.mem_map]
  constructor
  · rintro ⟨⟨q, node⟩, he, rfl⟩
    obtain ⟨hnode, hi⟩ := mem_entries.mp he
    exact ⟨node, hnode, hi⟩
  · rintro ⟨node, hnode, hi⟩
    exact ⟨(p, node), mem_entries.mpr ⟨hnode, hi⟩, rfl⟩

/-- A position has one and the same node, if it is shared with no other one. -/
theorem lastAt_of_same_names {xs ys : List String} (hsame : ∀ n, n ∈ xs ↔ n ∈ ys)
    (hapart : Apart hash replicas xs) {p : UInt32}
    (hp : p ∈ (entries hash replicas xs).map Prod.fst) :
    lastAt (entries hash replicas xs) p = lastAt (entries hash replicas ys) p := by
  obtain ⟨node, hlast⟩ := lastAt_isSome hp
  obtain ⟨hnode, i, hi, hat⟩ := mem_entries.mp (mem_of_lastAt hlast)
  rw [hlast]
  refine (lastAt_eq_some (mem_entries.mpr ⟨(hsame node).mp hnode, i, hi, hat⟩) ?_).symm
  intro n hn
  obtain ⟨hny, j, hj, hat'⟩ := mem_entries.mp hn
  exact hapart n ((hsame n).mpr hny) node hnode j hj i hi (hat'.trans hat.symm)

theorem owner?_of_same_names (xs ys : List (List String))
    (hsame : ∀ n, n ∈ xs.flatten ↔ n ∈ ys.flatten)
    (hapart : Apart hash replicas xs.flatten) (key : String) :
    (built hash replicas xs).owner? key = (built hash replicas ys).owner? key := by
  have hx := stands_built hash replicas xs
  have hy := stands_built hash replicas ys
  have hpositions : ∀ p, p ∈ (entries hash replicas xs.flatten).map Prod.fst ↔
      p ∈ (entries hash replicas ys.flatten).map Prod.fst := by
    intro p
    simp only [mem_positions_entries, hsame]
  by_cases hnil : entries hash replicas xs.flatten = []
  · have hnil' : entries hash replicas ys.flatten = [] := by
      rw [← List.map_eq_nil_iff (f := Prod.fst), List.eq_nil_iff_forall_not_mem]
      intro p hp
      rw [← hpositions, hnil] at hp
      cases hp
    rw [hnil] at hx
    rw [hnil'] at hy
    rw [hx.owner?_nil, hy.owner?_nil]
  · obtain ⟨p, hp⟩ := hx.next_exists hnil (hash key.toUTF8)
    rw [hx.owner?_next (by rwa [hash_built]),
      hy.owner?_next (by rw [hash_built]; exact hp.congr hpositions)]
    exact lastAt_of_same_names hsame hapart hp.mem

/-- The node that was added last owns every key that is spelt like one of its positions. -/
theorem owner?_of_last (hash : Hash) (nodes : List String) (node : String) {i : Nat}
    (hi : i < replicas) :
    (built hash replicas [nodes ++ [node]]).owner? (toString i ++ node) = some node := by
  have hstands := stands_built hash replicas [nodes ++ [node]]
  have hmine : (position hash node i, node) ∈ entries hash replicas [node] :=
    mem_entries.mpr ⟨List.mem_singleton_self node, i, hi, rfl⟩
  rw [List.flatten_singleton, entries_append] at hstands
  have hnext : Next ((entries hash replicas nodes ++ entries hash replicas [node]).map Prod.fst)
      (position hash node i) (position hash node i) :=
    .self (List.mem_map_of_mem (f := Prod.fst) (List.mem_append_right _ hmine))
  have hlast : lastAt (entries hash replicas [node]) (position hash node i) = some node :=
    lastAt_eq_some hmine fun n hn => List.mem_singleton.mp (mem_entries.mp hn).1
  rw [hstands.owner?_next (by rwa [hash_built]), lastAt_append, hlast]
  rfl

/-- **The owner of a key depends on the names of the nodes alone**, as long as no two of them share
a position: neither their order matters, nor how often each is added, nor by which calls. So pools
with equal numbers of replicas agree on every owner once their peers have the same names, whatever
peers they had before. -/
theorem placement_by_names (replicas : Nat) (xs ys : List (List String))
    (hsame : ∀ n, n ∈ xs.flatten ↔ n ∈ ys.flatten)
    (hapart : Apart .crc32 replicas xs.flatten) (key : String) :
    (built .crc32 replicas xs).owner? key = (built .crc32 replicas ys).owner? key ∧
      ∀ p q : Peer.Pool, p.config.replicas = replicas → q.config.replicas = replicas →
        (p.setPeers xs.flatten).ring.owner? key = (q.setPeers ys.flatten).ring.owner? key := by
  refine ⟨owner?_of_same_names xs ys hsame hapart key, ?_⟩
  intro p q hp hq
  have hone := @owner?_of_same_names .crc32 replicas [xs.flatten] [ys.flatten]
    (by simpa using hsame) (by simpa using hapart) key
  simp only [Peer.Pool.setPeers, hp, hq]
  exact hone

/-- Two nodes, in either order, and one of them a second time. -/
theorem placement_by_names_two :
    Apart .crc32 2 [["south", "north"]].flatten ∧
      (built .crc32 2 [["south", "north"]]).owner? "key" =
        (built .crc32 2 [["north"], ["south", "north"]]).owner? "key" := by
  have hapart : Apart .crc32 2 [["south", "north"]].flatten := by decide +kernel
  exact ⟨hapart, (placement_by_names 2 [["south", "north"]] [["north"], ["south", "north"]]
    (by simp [or_comm]) hapart "key").1⟩

/-- **Nodes that share a position are placed by their order.** Position 1 of the node `1a` and
position 11 of the node `a` are hashes of the same text, and the key that is spelt like it belongs
to whichever of both was added last. -/
theorem shared_position_by_order :
    (∀ n, n ∈ ["a", "1a"] ↔ n ∈ ["1a", "a"]) ∧
      (built .crc32 12 [["a", "1a"]]).owner? "11a" = some "1a" ∧
      (built .crc32 12 [["1a", "a"]]).owner? "11a" = some "a" := by
  have hone : toString 1 ++ "1a" = "11a" := by decide +kernel
  have heleven : toString 11 ++ "a" = "11a" := by decide +kernel
  refine ⟨by simp [or_comm], ?_, ?_⟩
  · rw [← hone]
    exact owner?_of_last .crc32 ["a"] "1a" (by decide)
  · rw [← heleven]
    exact owner?_of_last .crc32 ["1a"] "a" (by decide)

end RingCache.Ring

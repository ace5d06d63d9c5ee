import Mathlib.Data.List.Basic
import Mathlib.Tactic.Common
import RingCache.Ring

/-!
# A ring stands for its entries

Each node that is added brings *entries*: its positions in order, each with its name. A ring stands
for the list of all entries that it was given (`Stands`): its positions are theirs in increasing
order, and a position is owned by the node of its last entry (`lastAt`).

A key belongs to the position that comes next on the circle (`Next`), and so to the node that has
the last entry there (`Stands.owner?_next`). Which position that is depends only on the set of
positions (`Next.congr`).
-/

namespace RingCache.Ring

/-- A position and the node that takes it. -/
abbrev Entry := UInt32 × String

/-- What nodes bring to a ring, in the order of the nodes and of their positions. -/
def entries (hash : Hash) (replicas : Nat) (nodes : List String) : List Entry :=
  nodes.flatMap fun node => (List.range replicas).map fun i => (position hash node i, node)

/-- The node of the last entry at a position. -/
def lastAt (es : List Entry) (p : UInt32) : Option String := es.reverse.lookup p

/-- A ring that nodes were added to, by so many calls. -/
def built (hash : Hash) (replicas : Nat) (calls : List (List String)) : Ring :=
  calls.foldl add (empty hash replicas)

variable {hash : Hash} {replicas : Nat} {nodes : List String} {es : List Entry} {p point : UInt32}

/-! ### Entries -/

theorem mem_entries {node : String} :
    (p, node) ∈ entries hash replicas nodes ↔
      node ∈ nodes ∧ ∃ i < replicas, position hash node i = p := by
  simp only [entries, List.mem_flatMap, List.mem_map, List.mem_range, Prod.mk.injEq]
  constructor
  · rintro ⟨n, hn, i, hi, hp, rfl⟩
    exact ⟨hn, i, hi, hp⟩
  · rintro ⟨hn, i, hi, hp⟩
    exact ⟨node, hn, i, hi, hp, rfl⟩

theorem entries_append (nodes more : List String) :
    entries hash replicas (nodes ++ more) =
      entries hash replicas nodes ++ entries hash replicas more :=
  List.flatMap_append

theorem lastAt_append (es more : List Entry) (p : UInt32) :
    lastAt (es ++ more) p = (lastAt more p).or (lastAt es p) := by
  rw [lastAt, List.reverse_append, List.lookup_append]
  rfl

theorem mem_of_lastAt {node : String} (h : lastAt es p = some node) : (p, node) ∈ es := by
  obtain ⟨front, back, heq, -⟩ := List.lookup_eq_some_iff.mp h
  rw [← List.mem_reverse, heq]
  exact List.mem_append_right _ List.mem_cons_self

theorem lastAt_isSome (h : p ∈ es.map Prod.fst) : ∃ node, lastAt es p = some node := by
  obtain ⟨⟨q, n⟩, he, rfl⟩ := List.mem_map.mp h
  cases hlast : lastAt es q with
  | some node => exact ⟨node, rfl⟩
  | none =>
    have := List.lookup_eq_none_iff.mp hlast (q, n) (List.mem_reverse.mpr he)
    simp at this

/-- Where all entries at a position are of one node, that node has the last one. -/
theorem lastAt_eq_some {node : String} (hmem : (p, node) ∈ es)
    (hone : ∀ n, (p, n) ∈ es → n = node) : lastAt es p = some node := by
  obtain ⟨n, hn⟩ := lastAt_isSome (List.mem_map_of_mem (f := Prod.fst) hmem)
  rw [hn, hone n (mem_of_lastAt hn)]

/-- A map that takes entries in order keeps the last one at each position. -/
theorem getElem?_foldl_insert (es : List Entry) (m : Std.HashMap UInt32 String) (p : UInt32) :
    (es.foldl (fun m (q, n) => m.insert q n) m)[p]? = (lastAt es p).or m[p]? := by
  induction es generalizing m with
  | nil => rfl
  | cons e es ih =>
    obtain ⟨q, n⟩ := e
    rw [List.foldl_cons, ih, Std.HashMap.getElem?_insert, lastAt, lastAt, List.reverse_cons,
      List.lookup_append]
    cases es.reverse.lookup p with
    | some node => rfl
    | none =>
      by_cases hqp : q = p
      · subst hqp
        simp
      · have hpq : (p == q) = false := by simpa using fun heq : p = q => hqp heq.symm
        simp [hqp, hpq, List.lookup_cons]

/-! ### The next position on the circle -/

/-- Among positions, `p` is the one that a point comes to: the least one that is not below it, or
the least one of all where every position is below. -/
structure Next (positions : List UInt32) (point p : UInt32) : Prop where
  mem : p ∈ positions
  least : (point ≤ p ∧ ∀ q ∈ positions, point ≤ q → p ≤ q) ∨
    (∀ q ∈ positions, q < point) ∧ ∀ q ∈ positions, p ≤ q

namespace Next

variable {positions : List UInt32}

theorem unique {p' : UInt32} (h : Next positions point p) (h' : Next positions point p') :
    p = p' := by
  rcases h.least with ⟨hle, hleast⟩ | ⟨hall, hleast⟩
  · rcases h'.least with ⟨hle', hleast'⟩ | ⟨hall', -⟩
    · exact UInt32.le_antisymm (hleast _ h'.mem hle') (hleast' _ h.mem hle)
    · exact absurd hle (UInt32.not_le.mpr (hall' _ h.mem))
  · rcases h'.least with ⟨hle', -⟩ | ⟨-, hleast'⟩
    · exact absurd hle' (UInt32.not_le.mpr (hall _ h'.mem))
    · exact UInt32.le_antisymm (hleast _ h'.mem) (hleast' _ h.mem)

/-- Neither order nor repetition of the positions matters. -/
theorem congr {others : List UInt32} (h : Next positions point p)
    (hsame : ∀ q, q ∈ positions ↔ q ∈ others) : Next others point p := by
  refine ⟨(hsame p).mp h.mem, h.least.imp ?_ ?_⟩
  · rintro ⟨hle, hleast⟩
    exact ⟨hle, fun q hq => hleast q ((hsame q).mpr hq)⟩
  · rintro ⟨hall, hleast⟩
    exact ⟨fun q hq => hall q ((hsame q).mpr hq), fun q hq => hleast q ((hsame q).mpr hq)⟩

/-- A point that is a position comes to itself. -/
theorem self (h : p ∈ positions) : Next positions p p :=
  ⟨h, .inl ⟨UInt32.le_refl p, fun _ _ hle => hle⟩⟩

end Next

/-! ### Searching by halving -/

/-- Positions in increasing order. -/
def Increasing (positions : Array UInt32) : Prop :=
  ∀ (i j : Nat) (p q : UInt32), positions[i]? = some p → positions[j]? = some q → i ≤ j → p ≤ q

/-- Just the first `n` positions are below a point. -/
structure Splits (positions : Array UInt32) (point : UInt32) (n : Nat) : Prop where
  le_size : n ≤ positions.size
  iff : ∀ (i : Nat) (p : UInt32), positions[i]? = some p → (p < point ↔ i < n)

variable {positions : Array UInt32}

/-- Where nothing is left to search, the positions below the point have been found. -/
theorem splits_of_searched {n : Nat} (hsize : n ≤ positions.size)
    (hlo : ∀ (i : Nat) (p : UInt32), positions[i]? = some p → i < n → p < point)
    (hhi : ∀ (i : Nat) (p : UInt32), positions[i]? = some p → n ≤ i → point ≤ p) :
    Splits positions point n := by
  refine ⟨hsize, fun i p hp => ⟨?_, hlo i p hp⟩⟩
  intro hlt
  by_contra hge
  exact UInt32.not_le.mpr hlt (hhi i p hp (Nat.le_of_not_lt hge))

/-- The search ends where the positions below the point do. -/
theorem splits_search (hsorted : Increasing positions) (point : UInt32) (fuel : Nat) {lo hi : Nat}
    (hfuel : hi - lo < Nat.pow 2 fuel) (hle : lo ≤ hi) (hsize : hi ≤ positions.size)
    (hlo : ∀ (i : Nat) (p : UInt32), positions[i]? = some p → i < lo → p < point)
    (hhi : ∀ (i : Nat) (p : UInt32), positions[i]? = some p → hi ≤ i → point ≤ p) :
    Splits positions point (search positions point fuel lo hi) := by
  induction fuel generalizing lo hi with
  | zero =>
    have hone : Nat.pow 2 0 = 1 := rfl
    obtain rfl : hi = lo := by omega
    exact splits_of_searched hsize hlo hhi
  | succ fuel ih =>
    have hpow : Nat.pow 2 (fuel + 1) = Nat.pow 2 fuel * 2 := rfl
    rw [search]
    by_cases hlt : lo < hi
    · have hmid : (lo + hi) / 2 < positions.size := by omega
      have hat : positions[(lo + hi) / 2]? = some positions[(lo + hi) / 2] :=
        Array.getElem?_eq_getElem hmid
      simp only [if_pos hlt, hat]
      split
      · next hbelow =>
        apply ih (by omega) (by omega) hsize ?_ hhi
        intro i p hp hi
        exact UInt32.lt_of_le_of_lt (hsorted i _ p _ hp hat (by omega)) hbelow
      · next habove =>
        apply ih (by omega) (by omega) (by omega) hlo
        intro i p hp hi
        exact UInt32.le_trans (UInt32.not_lt.mp habove) (hsorted _ i _ p hat hp hi)
    · obtain rfl : hi = lo := by omega
      rw [if_neg hlt]
      exact splits_of_searched hsize hlo hhi

/-! ### What a ring stands for -/

/-- A ring stands for a list of entries. -/
structure Stands (r : Ring) (es : List Entry) : Prop where
  sorted : r.positions.toList.Pairwise (· ≤ ·)
  positions : r.positions.toList.Perm (es.map Prod.fst)
  owners : ∀ p, r.owners[p]? = lastAt es p

theorem stands_empty (hash : Hash) (replicas : Nat) : Stands (empty hash replicas) [] :=
  ⟨.nil, .refl _, fun _ => Std.HashMap.getElem?_empty⟩

namespace Stands

variable {r : Ring}

/-- **Adding nodes** adds their entries behind those that are there. -/
theorem add (h : Stands r es) (nodes : List String) :
    Stands (r.add nodes) (es ++ entries r.hash r.replicas nodes) := by
  have hplaces : (nodes.flatMap fun node => (r.placesOf node).map fun p => (p, node)) =
      entries r.hash r.replicas nodes := by
    simp only [entries, placesOf, List.map_map]
    rfl
  rw [Ring.add, hplaces]
  refine ⟨?_, ?_, ?_⟩
  · have htotal : ∀ a b : UInt32, (decide (a ≤ b) || decide (b ≤ a)) = true := by
      intro a b
      simpa using UInt32.le_total a b
    have htrans : ∀ a b c : UInt32, decide (a ≤ b) = true → decide (b ≤ c) = true →
        decide (a ≤ c) = true := by
      intro a b c hab hbc
      exact decide_eq_true (UInt32.le_trans (of_decide_eq_true hab) (of_decide_eq_true hbc))
    refine (List.pairwise_mergeSort htrans htotal _).imp ?_
    intro a b hab
    exact of_decide_eq_true hab
  · refine (List.mergeSort_perm _ _).trans ?_
    rw [List.map_append]
    exact h.positions.append_right _
  · intro p
    show (List.foldl _ r.owners _)[p]? = _
    rw [getElem?_foldl_insert, h.owners, lastAt_append]

theorem increasing (h : Stands r es) : Increasing r.positions := by
  intro i j p q hp hq hij
  rw [← Array.getElem?_toList] at hp hq
  obtain ⟨hi, rfl⟩ := List.getElem?_eq_some_iff.mp hp
  obtain ⟨hj, rfl⟩ := List.getElem?_eq_some_iff.mp hq
  rcases Nat.lt_or_eq_of_le hij with hlt | rfl
  · exact List.pairwise_iff_getElem.mp h.sorted i j hi hj hlt
  · exact UInt32.le_refl _

theorem splits_below (h : Stands r es) (point : UInt32) :
    Splits r.positions point (r.below point) := by
  refine splits_search h.increasing point _ ?_ (Nat.zero_le _) (Nat.le_refl _) ?_ ?_
  · exact Nat.lt_log2_self
  · intro i p _ hi
    exact absurd hi (Nat.not_lt_zero i)
  · intro i p hp hi
    rw [Array.getElem?_eq_none hi] at hp
    cases hp

theorem size_eq (h : Stands r es) : r.positions.size = es.length := by
  rw [← Array.length_toList, h.positions.length_eq, List.length_map]

theorem mem_positions (h : Stands r es) {q : UInt32} :
    q ∈ es.map Prod.fst ↔ ∃ i : Nat, r.positions[i]? = some q := by
  rw [← h.positions.mem_iff, List.mem_iff_getElem?]
  simp only [Array.getElem?_toList]

/-- **The position that is searched out** is the next one on the circle. -/
theorem next_below (h : Stands r es) (hes : es ≠ []) (point : UInt32) :
    ∃ p, r.positions[r.below point % r.positions.size]? = some p ∧
      Next (es.map Prod.fst) point p := by
  obtain ⟨hle, hsplit⟩ := h.splits_below point
  have hpos : 0 < r.positions.size := by
    rw [h.size_eq]
    exact List.length_pos_iff.mpr hes
  have hat := Array.getElem?_eq_getElem (Nat.mod_lt (r.below point) hpos)
  refine ⟨_, hat, h.mem_positions.mpr ⟨_, hat⟩, ?_⟩
  by_cases hin : r.below point < r.positions.size
  · have hmod : r.below point % r.positions.size = r.below point := Nat.mod_eq_of_lt hin
    refine .inl ⟨?_, ?_⟩
    · rw [← UInt32.not_lt, hsplit _ _ hat, hmod]
      exact Nat.lt_irrefl _
    · intro q hq hge
      obtain ⟨j, hj⟩ := h.mem_positions.mp hq
      have hjge : ¬ j < r.below point := fun hlt =>
        UInt32.not_le.mpr ((hsplit j q hj).mpr hlt) hge
      exact h.increasing _ j _ q hat hj (by omega)
  · -- every position is below the point, so that the circle closes at the first one
    have hzero : r.below point % r.positions.size = 0 := by
      rw [Nat.le_antisymm hle (Nat.le_of_not_lt hin), Nat.mod_self]
    refine .inr ⟨?_, ?_⟩
    · intro q hq
      obtain ⟨j, hj⟩ := h.mem_positions.mp hq
      have hjlt := (Array.getElem?_eq_some_iff.mp hj).1
      exact (hsplit j q hj).mpr (by omega)
    · intro q hq
      obtain ⟨j, hj⟩ := h.mem_positions.mp hq
      exact h.increasing _ j _ q hat hj (by omega)

/-- Without entries there is no owner. -/
theorem owner?_nil (h : Stands r []) (key : String) : r.owner? key = none := by
  have hsize : r.positions.size = 0 := h.size_eq
  rw [owner?, Array.getElem?_eq_none (by omega)]
  rfl

/-- **A key belongs to the node that has the last entry at the next position.** -/
theorem owner?_next (h : Stands r es) {key : String}
    (hp : Next (es.map Prod.fst) (r.hash key.toUTF8) p) : r.owner? key = lastAt es p := by
  have hes : es ≠ [] := by
    rintro rfl
    cases hp.mem
  obtain ⟨q, hq, hnext⟩ := h.next_below hes (r.hash key.toUTF8)
  rw [owner?, hq, hp.unique hnext]
  exact h.owners q

theorem next_exists (h : Stands r es) (hes : es ≠ []) (point : UInt32) :
    ∃ p, Next (es.map Prod.fst) point p := by
  obtain ⟨p, -, hp⟩ := h.next_below hes point
  exact ⟨p, hp⟩

end Stands

/-! ### Rings that nodes were added to -/

theorem stands_foldl {r : Ring} (h : Stands r es) (calls : List (List String)) :
    Stands (calls.foldl add r) (es ++ entries r.hash r.replicas calls.flatten) ∧
      (calls.foldl add r).hash = r.hash := by
  induction calls generalizing r es with
  | nil => simpa [entries] using h
  | cons nodes calls ih =>
    have hadd := ih (h.add nodes)
    rw [List.append_assoc] at hadd
    rw [List.foldl_cons, List.flatten_cons, entries_append]
    exact hadd

/-- **However the nodes are added**, the ring stands for their entries. -/
theorem stands_built (hash : Hash) (replicas : Nat) (calls : List (List String)) :
    Stands (built hash replicas calls) (entries hash replicas calls.flatten) :=
  (stands_foldl (stands_empty hash replicas) calls).1

theorem hash_built (hash : Hash) (replicas : Nat) (calls : List (List String)) :
    (built hash replicas calls).hash = hash :=
  (stands_foldl (stands_empty hash replicas) calls).2

end RingCache.Ring

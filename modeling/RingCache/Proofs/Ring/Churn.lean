import Mathlib.Tactic.Common
import RingCache.Proofs.Peer.Picks

/-!
# A node comes or goes

A node that comes adds its entries somewhere among those of the others. The next position of a key
is then a new one, and belongs to the newcomer alone; or it is an old one, and came next before
(`Next.of_subset`). At an old position the newcomer may have the last entry, and else the last entry
is the one that it was (`lastAt_insert`). So a key moves to the newcomer or stays (`owner?_insert`),
whatever positions fall together.

Read the other way round: a node that goes leaves only its own keys to others.
-/

namespace RingCache.Ring

variable {hash : Hash} {replicas : Nat} {node : String} {p point : UInt32}
  {front mine back : List Entry}

/-- A position that comes next among many also does so among some of them, if it is one of these. -/
theorem Next.of_subset {positions more : List UInt32} (h : Next more point p)
    (hsub : positions ⊆ more) (hp : p ∈ positions) : Next positions point p := by
  refine ⟨hp, h.least.imp ?_ ?_⟩
  · rintro ⟨hle, hleast⟩
    exact ⟨hle, fun q hq => hleast q (hsub hq)⟩
  · rintro ⟨hall, hleast⟩
    exact ⟨fun q hq => hall q (hsub hq), fun q hq => hleast q (hsub hq)⟩

/-- Entries of one node that are put in between are the last ones at a position or do not matter. -/
theorem lastAt_insert (hmine : ∀ e ∈ mine, e.2 = node) (p : UInt32) :
    lastAt (front ++ mine ++ back) p = some node ∨
      lastAt (front ++ mine ++ back) p = lastAt (front ++ back) p := by
  rw [lastAt_append, lastAt_append, lastAt_append]
  cases lastAt back p with
  | some last => exact .inr rfl
  | none =>
    cases hlast : lastAt mine p with
    | none => exact .inr rfl
    | some last =>
      have hnode : last = node := hmine _ (mem_of_lastAt hlast)
      exact .inl (congrArg some hnode)

/-- **A key moves to the newcomer or stays**: the entries of one node are put in between those of
others. -/
theorem owner?_insert {r r' : Ring} (h : Stands r (front ++ back))
    (h' : Stands r' (front ++ mine ++ back)) (hhash : r'.hash = r.hash)
    (hmine : ∀ e ∈ mine, e.2 = node) (key : String) :
    r'.owner? key = some node ∨ r'.owner? key = r.owner? key := by
  by_cases hnil : front ++ mine ++ back = []
  · simp only [List.append_eq_nil_iff] at hnil
    obtain ⟨⟨rfl, rfl⟩, rfl⟩ := hnil
    exact .inr ((h'.owner?_nil key).trans (h.owner?_nil key).symm)
  · obtain ⟨p, hp⟩ := h'.next_exists hnil (r'.hash key.toUTF8)
    rw [h'.owner?_next hp]
    by_cases hold : p ∈ (front ++ back).map Prod.fst
    · have hsub : (front ++ back).map Prod.fst ⊆ (front ++ mine ++ back).map Prod.fst :=
        List.map_subset _ (List.append_subset.mpr
          ⟨List.subset_append_of_subset_left _ (List.subset_append_left _ _),
            List.subset_append_right _ _⟩)
      have hnext := hp.of_subset hsub hold
      rw [hhash] at hnext
      rw [h.owner?_next hnext]
      exact lastAt_insert hmine p
    · -- a new position has entries of the newcomer only
      obtain ⟨last, hlast⟩ := lastAt_isSome hp.mem
      have hmem := mem_of_lastAt hlast
      simp only [List.mem_append] at hmem
      rcases hmem with (hfront | hm) | hback
      · exact absurd (List.mem_map_of_mem (List.mem_append_left _ hfront)) hold
      · rw [hlast]
        exact .inl (congrArg some (hmine _ hm))
      · exact absurd (List.mem_map_of_mem (List.mem_append_right _ hback)) hold

/-- The same nodes but for one, which is added at any place, by whatever calls the nodes are added. -/
theorem owner?_built_insert {xs ys : List (List String)} {before after : List String}
    (hx : xs.flatten = before ++ after) (hy : ys.flatten = before ++ node :: after) (key : String) :
    (built hash replicas ys).owner? key = some node ∨
      (built hash replicas ys).owner? key = (built hash replicas xs).owner? key := by
  have hold := stands_built hash replicas xs
  have hnew := stands_built hash replicas ys
  rw [hx, entries_append] at hold
  rw [hy, List.append_cons, entries_append, entries_append] at hnew
  refine owner?_insert hold hnew ((hash_built ..).trans (hash_built ..).symm) ?_ key
  rintro ⟨q, n⟩ he
  exact List.mem_singleton.mp (mem_entries.mp he).1

/-- **Only a newcomer takes keys, and only its own keys are left by a node that goes.** Let two rings
be built of the same nodes in the same order, but for one node that only one of them has, at any
place. The owner of a key in that ring is this node, or it is the owner in the other one. The hash
may be any function, and positions may fall together.

So it is for a pool whose peers are replaced by one more or by one fewer; whoever was picked for a
key stays picked, unless the node that goes owned it. -/
theorem moves_to_newcomer (hash : Hash) (replicas : Nat) (node : String)
    (before after : List String) (xs ys : List (List String)) (hx : xs.flatten = before ++ after)
    (hy : ys.flatten = before ++ node :: after) (key : String) :
    ((built hash replicas ys).owner? key = some node ∨
        (built hash replicas ys).owner? key = (built hash replicas xs).owner? key) ∧
      ∀ p : Peer.Pool,
        let fewer := p.setPeers (before ++ after)
        let more := p.setPeers (before ++ node :: after)
        ((fewer.setPeers (before ++ node :: after)).ring.owner? key = some node ∨
          (fewer.setPeers (before ++ node :: after)).ring.owner? key = fewer.ring.owner? key) ∧
        (more.ring.owner? key ≠ some node →
          (more.setPeers (before ++ after)).ring.owner? key = more.ring.owner? key ∧
            (more.setPeers (before ++ after)).pick key = more.pick key) := by
  refine ⟨owner?_built_insert hx hy key, ?_⟩
  intro p fewer more
  have hfewer : [before ++ after].flatten = before ++ after := List.flatten_singleton
  have hmore : [before ++ node :: after].flatten = before ++ node :: after := List.flatten_singleton
  have hpool : more.ring.owner? key = some node ∨ more.ring.owner? key = fewer.ring.owner? key :=
    owner?_built_insert hfewer hmore key
  refine ⟨hpool, ?_⟩
  intro hother
  have hsame : fewer.ring.owner? key = more.ring.owner? key :=
    (hpool.resolve_left hother).symm
  refine ⟨hsame, ?_⟩
  show fewer.pick key = more.pick key
  rw [Peer.Pool.pick_setPeers, Peer.Pool.pick_setPeers]
  exact congrArg (Option.bind · _) hsame

/-- All positions fall together, and a node comes between two others. -/
theorem moves_to_newcomer_between :
    [["north"], ["south"]].flatten = ["north"] ++ ["south"] ∧
      [["north", "east"], ["south"]].flatten = ["north"] ++ "east" :: ["south"] ∧
      ((built (.constant 7) 3 [["north", "east"], ["south"]]).owner? "key" = some "east" ∨
        (built (.constant 7) 3 [["north", "east"], ["south"]]).owner? "key" =
          (built (.constant 7) 3 [["north"], ["south"]]).owner? "key") :=
  ⟨rfl, rfl, (moves_to_newcomer (.constant 7) 3 "east" ["north"] ["south"] [["north"], ["south"]]
    [["north", "east"], ["south"]] rfl rfl "key").1⟩

end RingCache.Ring

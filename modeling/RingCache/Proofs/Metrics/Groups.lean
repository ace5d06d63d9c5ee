import Mathlib.Data.List.Forall2
import Mathlib.Tactic.Common
import RingCache.Proofs.Cluster.Names
import RingCache.Proofs.Metrics.Page

/-!
# Every group is shown, unmixed

Where no two statistics have the same group, the values of a group are those of one snapshot, and so
each row of the page is a snapshot of its own (`sums_of_distinct`, `latest_of_distinct`). On a node
groups go by distinct names (`Node.Named`); its page shows each of them under its name.
-/

namespace RingCache

namespace Metrics

variable {stats : List Stats}

/-! ### One snapshot of each group -/

theorem sortedDistinct_of_pairwise {names : List String} (h : names.Pairwise (· < ·)) :
    Ring.sortedDistinct names = names :=
  Ring.eq_of_pairwise_lt (Ring.pairwise_sortedDistinct names) h fun _ => Ring.mem_sortedDistinct

theorem filter_group_eq (h : (stats.map Stats.group).Pairwise (· < ·)) {s : Stats} (hs : s ∈ stats) :
    (stats.filter fun t => t.group = s.group) = [s] :=
  filter_key_eq (Ring.nodup_of_pairwise_lt h) hs

theorem sums_of_distinct (h : (stats.map Stats.group).Pairwise (· < ·)) (value : Stats → UInt64) :
    ((Ring.sortedDistinct (stats.map Stats.group)).map fun group => (group, total value stats group)) =
      stats.map fun s => (s.group, (value s).toNat) := by
  rw [sortedDistinct_of_pairwise h, List.map_map]
  refine List.map_congr_left fun s hs => ?_
  have hlt := (value s).toNat_lt
  simp [total, filter_group_eq h hs, Nat.mod_eq_of_lt hlt]

theorem latest_of_distinct (h : (stats.map Stats.group).Pairwise (· < ·)) (value : Stats → UInt64) :
    ((Ring.sortedDistinct (stats.map Stats.group)).map fun group => (group, latest value stats group)) =
      stats.map fun s => (s.group, min (2 ^ 63 - 1) (value s).toNat) := by
  rw [sortedDistinct_of_pairwise h, List.map_map]
  refine List.map_congr_left fun s hs => ?_
  show (s.group, latest value stats s.group) = _
  rw [latest, filter_group_eq h hs]
  rfl

end Metrics

/-! ### The groups of a node -/

namespace Node

variable {n : Node}

/-- Each snapshot of a node is that of one group, under the name of its entry. -/
theorem Named.map_group_stats (h : n.Named) : n.stats.map Stats.group = n.registry.names := by
  rw [Node.stats, Registry.members, List.map_map, List.map_map, Registry.names]
  exact List.map_congr_left fun e he => h.groups e he

theorem Named.map_stats (h : n.Named) (amount : Stats → Nat) :
    (n.stats.map fun s => (s.group, amount s)) =
      n.registry.entries.map fun e => (e.1, amount e.2.group.stats) := by
  rw [Node.stats, Registry.members, List.map_map, List.map_map]
  exact List.map_congr_left fun e he => by simp [Group.stats, h.groups e he]

end Node

namespace Cluster

open Metrics

/-- **The metrics page shows every group, and nothing else.**

* For any list of statistics there is a page, and it is read back by the rules of its format. Under
  each of the fifteen names it has one sample for each group of the list, in increasing order of the
  groups, labelled with the group alone; what a counter shows adds up, and of a gauge the last value
  stands. It has no other sample.
* On a node of any cluster that comes about, whatever is registered there, the page answers with what
  each group counts itself, under its own name. -/
theorem groups_shown :
    (∀ stats : List Stats, ∃ text page, ∃ groups : List String,
      render stats = .ok text ∧ Format.read? text = some page ∧
        groups.Pairwise (· < ·) ∧ (∀ group, group ∈ groups ↔ ∃ s ∈ stats, s.group = group) ∧
        ShowsAll page (fun value => groups.map fun group => (group, total value stats group))
          (fun value => groups.map fun group => (group, latest value stats group))) ∧
      ∀ c : Cluster, c.Reached → ∀ i query, ∃ text page,
        c.metrics i ⟨"/metrics", query⟩ = (⟨200, some contentType, .ofString text⟩, c) ∧
          Format.read? text = some page ∧ (c.node i).registry.names.Pairwise (· < ·) ∧
          ShowsAll page
            (fun value => (c.node i).registry.entries.map fun e =>
              (e.1, (value e.2.group.stats).toNat))
            (fun value => (c.node i).registry.entries.map fun e =>
              (e.1, min (2 ^ 63 - 1) (value e.2.group.stats).toNat)) := by
  refine ⟨fun stats => ?_, fun c hc i query => ?_⟩
  · obtain ⟨text, page, htext, hpage, hshows⟩ := render_shows stats
    refine ⟨text, page, Ring.sortedDistinct (stats.map Stats.group), htext, hpage,
      Ring.pairwise_sortedDistinct _, fun group => ?_, hshows⟩
    rw [Ring.mem_sortedDistinct, List.mem_map]
  · have hnamed := hc.named i
    have hdistinct : ((c.node i).stats.map Stats.group).Pairwise (· < ·) :=
      hnamed.map_group_stats ▸ hnamed.names
    obtain ⟨text, page, htext, hpage, hshows⟩ := render_shows (c.node i).stats
    refine ⟨text, page, ?_, hpage, hnamed.names, ?_⟩
    · rw [Cluster.metrics, handle_eq htext]
    · simpa only [sums_of_distinct hdistinct, latest_of_distinct hdistinct, hnamed.map_stats] using hshows

/-- A group whose name has a quote and a line end, before its first look-up. -/
theorem groups_shown_quoted :
    let member : Member := ⟨.fresh "a\"\n" 9, .fresh .echo, .fresh .echo⟩
    let c : Cluster := ⟨.up, #[⟨⟨[("a\"\n", member)]⟩, #[]⟩], []⟩
    c.Reached ∧ ∃ text page,
      c.metrics 0 ⟨"/metrics", none⟩ = (⟨200, some contentType, .ofString text⟩, c) ∧
        Format.read? text = some page ∧
        ShowsRows page "peercache_gets_total" [("a\"\n", 0)] ∧
        ShowsRows page "peercache_local_cache_capacity_bytes" [("a\"\n", 9)] := by
  intro member c
  have hok : (fresh .up 1).update 0 (·.newGroup "a\"\n" 9 .echo) = .ok c := rfl
  have hreached : c.Reached := .newGroup (.fresh .up 1) hok
  obtain ⟨text, page, hanswer, hpage, -, hshows⟩ := groups_shown.2 c hreached 0 none
  refine ⟨hreached, text, page, hanswer, hpage, ?_, ?_⟩
  · exact hshows.counters ("peercache_gets_total", (·.counters.gets)) (by simp [totals])
  · exact hshows.gauges ("peercache_local_cache_capacity_bytes", (·.cache.capacity)) (by simp [levels])

end Cluster

end RingCache

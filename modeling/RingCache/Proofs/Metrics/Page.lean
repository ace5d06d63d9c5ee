import Mathlib.Data.List.Forall2
import Mathlib.Tactic.Common
import RingCache.Proofs.Metrics.Format
import RingCache.Proofs.Metrics.Samples
import RingCache.Proofs.Registry

/-!
# The page is made and read back

Families with different names are all registered, in whatever order (`register_all`), and those with
samples are written. So statistics always have a page, and in reading it one finds the samples of each
family under its name and no others (`render_read`). Which families there are, what each counts and in
which way is listed in `totals` and `levels`; the numbers that the page shows are those of
`samples_family` (`render_shows`).
-/

namespace RingCache.Metrics

variable {stats : List Stats}

/-! ### Registering -/

/-- What a family needs to be registered. -/
structure Family.Registrable (f : Family) : Prop where
  name : isName f.name.toList = true
  help : f.help ≠ ""

theorem register_eq {r : Registry Family} {f : Family} (hf : f.Registrable)
    (hnew : f.name ∉ r.names) :
    register r f = .ok ⟨Registry.insertSorted f.name f r.entries⟩ := by
  have hnone := Registry.find?_eq_none_iff.mpr hnew
  simp [register, hf.name, hf.help, hnone]

/-- **Families of different names are registered**, all of them. -/
theorem register_all {fs : List Family} (hfs : ∀ f ∈ fs, f.Registrable)
    (hnodup : (fs.map Family.name).Nodup) (r : Registry Family)
    (hnew : ∀ f ∈ fs, f.name ∉ r.names) :
    ∃ r', fs.foldlM register r = .ok r' ∧ r'.members.Perm (r.members ++ fs) := by
  induction fs generalizing r with
  | nil => exact ⟨r, rfl, by rw [List.append_nil]⟩
  | cons f fs ih =>
    obtain ⟨hfresh, hnodup⟩ := List.nodup_cons.mp hnodup
    have hok := register_eq (hfs f List.mem_cons_self) (hnew f List.mem_cons_self)
    -- where the family is put in does not matter, only that the others are still there
    have hperm := Registry.insertSorted_perm f.name f r.entries
    obtain ⟨r', hr', hmembers⟩ := ih (fun g hg => hfs g (List.mem_cons_of_mem _ hg)) hnodup
      ⟨Registry.insertSorted f.name f r.entries⟩ (by
        intro g hg hmem
        rcases List.mem_cons.mp ((hperm.map Prod.fst).mem_iff.mp hmem) with heq | hmem
        · exact hfresh (List.mem_map.mpr ⟨g, hg, heq⟩)
        · exact hnew g (List.mem_cons_of_mem _ hg) hmem)
    refine ⟨r', ?_, hmembers.trans ?_⟩
    · rw [List.foldlM_cons, hok]
      exact hr'
    · have hinsert : (Registry.members ⟨Registry.insertSorted f.name f r.entries⟩).Perm
          (f :: r.members) := hperm.map Prod.snd
      exact (hinsert.append_right fs).trans List.perm_middle.symm

theorem encode_ok {fs : List Family} (h : ∀ f ∈ fs, f.samples.isEmpty = false) :
    encode fs = .ok (fs.flatMap Family.lines) := by
  have hpages : (fs.mapM fun f => if f.samples.isEmpty then
      (.error (.noSamples f.name) : Except Fault (List String)) else .ok f.lines) =
      .ok (fs.map Family.lines) := by
    induction fs with
    | nil => rfl
    | cons f fs ih =>
      rw [List.mapM_cons, ih fun g hg => h g (List.mem_cons_of_mem _ hg), h f List.mem_cons_self]
      rfl
  rw [encode, hpages, List.flatMap]
  rfl

/-! ### All families -/

/-- Everything that is counted, with its kind. -/
def counted : List (Quantity × Kind) := quantities.map (fun q => (q, q.kind)) ++ [(capacity, .gauge)]

theorem families_eq (stats : List Stats) :
    families stats = counted.map fun c => c.1.family c.2 stats := by
  simp [families, counted]

/-- The families of counters, each with what it counts. -/
def totals : List (String × (Stats → UInt64)) := [
  ("peercache_gets_total", (·.counters.gets)),
  ("peercache_cache_hits_total", (·.counters.cacheHits)),
  ("peercache_peer_loads_total", (·.counters.peerLoads)),
  ("peercache_peer_errors_total", (·.counters.peerErrors)),
  ("peercache_loads_total", (·.counters.loads)),
  ("peercache_loads_deduped_total", (·.counters.loadsDeduped)),
  ("peercache_local_loads_total", (·.counters.localLoads)),
  ("peercache_local_load_errors_total", (·.counters.localLoadErrs)),
  ("peercache_server_requests_total", (·.counters.serverRequests)),
  ("peercache_local_cache_hits_total", (·.cache.hits)),
  ("peercache_local_cache_misses_total", (·.cache.misses)),
  ("peercache_local_cache_evictions_total", (·.cache.evictions))]

/-- The families of gauges, each with what it shows. -/
def levels : List (String × (Stats → UInt64)) := [
  ("peercache_local_cache_bytes", (·.cache.bytes)),
  ("peercache_local_cache_items", (·.cache.items)),
  ("peercache_local_cache_capacity_bytes", (·.cache.capacity))]

theorem counted_names :
    (counted.map fun c => nameSpace ++ "_" ++ c.1.name) = (totals ++ levels).map Prod.fst := by
  decide +kernel

theorem counted_kinds :
    counted.map Prod.snd = (totals.map fun _ => Kind.counter) ++ levels.map fun _ => Kind.gauge := by
  decide +kernel

theorem counted_values : (counted.map fun c => c.1.value) = (totals ++ levels).map Prod.snd := rfl

/-- **What is counted is what the two lists say**: under which name, what, and in which way. -/
theorem counted_eq :
    (counted.map fun c => (nameSpace ++ "_" ++ c.1.name, c.1.value, c.2)) =
      (totals.map fun t => (t.1, t.2, Kind.counter)) ++ levels.map fun t => (t.1, t.2, Kind.gauge) := by
  rw [← List.zip_map', ← List.zip_map', counted_names, counted_values]
  show List.zip _ (List.zip _ (counted.map Prod.snd)) = _
  rw [counted_kinds]
  rfl

theorem counted_isName : ∀ c ∈ counted, isName (nameSpace ++ "_" ++ c.1.name).toList = true := by
  have hnames : ∀ name ∈ (totals ++ levels).map Prod.fst, isName name.toList = true := by
    decide +kernel
  intro c hc
  exact hnames _ (counted_names ▸ List.mem_map_of_mem hc)

theorem counted_help :
    ∀ c ∈ counted, c.1.help.toList.head?.any fun d => !Format.isBlank d := by
  simp [counted, quantities, capacity, Format.isBlank]

theorem nodup_names (stats : List Stats) : ((families stats).map Family.name).Nodup := by
  rw [families_eq, List.map_map]
  show (counted.map fun c => nameSpace ++ "_" ++ c.1.name).Nodup
  rw [counted_names]
  decide +kernel

theorem readable_of_mem {f : Family} (h : f ∈ families stats) : Format.Readable f := by
  rw [families_eq] at h
  obtain ⟨c, hc, rfl⟩ := List.mem_map.mp h
  refine ⟨counted_isName c hc, counted_help c hc, ?_⟩
  have hlabels : ((c.1.family c.2 stats).samples.map Prod.fst) =
      Ring.sortedDistinct (stats.map Stats.group) := by
    rw [samples_family, List.map_map]
    exact List.map_id _
  rw [hlabels]
  exact Ring.nodup_of_pairwise_lt (Ring.pairwise_sortedDistinct _)

theorem registrable_of_mem {f : Family} (h : f ∈ families stats) : f.Registrable := by
  have hf := readable_of_mem h
  refine ⟨hf.name, fun hempty => ?_⟩
  have hhelp := hf.help
  rw [hempty] at hhelp
  cases hhelp

/-! ### Reading the page -/

open Format in
/-- The samples of a name on a page. -/
def samplesAt (page : List Block) (name : String) : List Sample :=
  (page.filter fun b => b.name = name).flatMap Block.samples

/-- Where keys are distinct, each is that of one member of the list. -/
theorem filter_key_eq {α : Type} {key : α → String} {as : List α} (hnodup : (as.map key).Nodup)
    {a : α} (ha : a ∈ as) : (as.filter fun b => key b = key a) = [a] := by
  induction as with
  | nil => cases ha
  | cons b as ih =>
    obtain ⟨hfresh, hnodup⟩ := List.nodup_cons.mp hnodup
    rcases List.mem_cons.mp ha with rfl | ha
    · have hnone : (as.filter fun b => key b = key a) = [] := by
        rw [List.filter_eq_nil_iff]
        intro b hb heq
        exact hfresh (List.mem_map.mpr ⟨b, hb, by simpa using heq⟩)
      rw [List.filter_cons_of_pos (by simp), hnone]
    · have hne : key b ≠ key a := fun heq => hfresh (List.mem_map.mpr ⟨a, ha, heq.symm⟩)
      rw [List.filter_cons_of_neg (by simpa using hne), ih hnodup ha]

/-- **The page of any statistics is made and read back**: it has the samples of each family under the
name of the family, and no others. -/
theorem render_read (stats : List Stats) :
    ∃ text page, render stats = .ok text ∧ Format.read? text = some page ∧
      (∀ b ∈ page, b.name ∈ (families stats).map Family.name) ∧
      ∀ f ∈ families stats, samplesAt page f.name = f.samples.map Format.shown := by
  obtain ⟨r, hregister, hmembers⟩ := register_all (fun f hf => registrable_of_mem hf)
    (nodup_names stats) .empty (by simp [Registry.empty, Registry.names])
  -- the registry is in the order of the names, so it has the families up to their order
  have hperm : r.members.Perm (families stats) := hmembers
  have hmem : ∀ {f}, f ∈ gather r → f ∈ families stats ∧ f.samples.isEmpty = false := by
    intro f hf
    obtain ⟨hf, hsamples⟩ := List.mem_filter.mp hf
    exact ⟨hperm.mem_iff.mp hf, by simpa using hsamples⟩
  have hencode := encode_ok fun f (hf : f ∈ gather r) => (hmem hf).2
  have hnodup : ((gather r).map Family.name).Nodup :=
    ((hperm.map Family.name).nodup_iff.mpr (nodup_names stats)).sublist
      (List.filter_sublist.map _)
  refine ⟨_, (gather r).map Format.block, ?_,
    Format.read?_families (fun f hf => readable_of_mem (hmem hf).1) hnodup, ?_, ?_⟩
  · rw [render, collect, hregister]
    exact congrArg textOf hencode
  · intro b hb
    obtain ⟨f, hf, rfl⟩ := List.mem_map.mp hb
    exact List.mem_map_of_mem (hmem hf).1
  · intro f hf
    have hone := filter_key_eq ((hperm.map Family.name).nodup_iff.mpr (nodup_names stats))
      (hperm.mem_iff.mpr hf)
    rw [samplesAt, List.filter_map, List.flatMap_map]
    show ((gather r).filter fun g => g.name = f.name).flatMap (fun g => g.samples.map Format.shown) = _
    rw [gather, List.filter_comm, hone]
    cases hsamples : f.samples with
    | nil => simp [hsamples]
    | cons sample samples => simp [hsamples]

open Format in
/-- A page shows rows under a name: one sample for each row, in their order, with the group as its
only label and the number as its value. -/
def ShowsRows (page : List Block) (name : String) (rows : List (String × Nat)) : Prop :=
  List.Forall₂ (fun row s => s.labels = [("group", row.1)] ∧ Binary64.Shows s.value row.2) rows
    (samplesAt page name)

open Format in
/-- A page shows all families and nothing else. The rows of a family follow from what it counts. -/
structure ShowsAll (page : List Block) (sums last : (Stats → UInt64) → List (String × Nat)) : Prop where
  counters : ∀ t ∈ totals, ShowsRows page t.1 (sums t.2)
  gauges : ∀ t ∈ levels, ShowsRows page t.1 (last t.2)
  only : ∀ b ∈ page, b.name ∈ (totals ++ levels).map Prod.fst

theorem showsRows_of_samplesAt {page : List Format.Block} {f : Family}
    (h : samplesAt page f.name = f.samples.map Format.shown) :
    ShowsRows page f.name (f.samples.map fun sample => (sample.1, sample.2.toNat)) := by
  rw [ShowsRows, h, List.forall₂_map_left_iff, List.forall₂_map_right_iff, List.forall₂_same]
  intro sample _
  exact ⟨rfl, Binary64.shows_positional sample.2.toNat_lt⟩

/-- **All that is counted is shown**, for each group. -/
theorem render_shows (stats : List Stats) :
    ∃ text page, render stats = .ok text ∧ Format.read? text = some page ∧
      ShowsAll page
        (fun value => (Ring.sortedDistinct (stats.map Stats.group)).map fun group =>
          (group, total value stats group))
        (fun value => (Ring.sortedDistinct (stats.map Stats.group)).map fun group =>
          (group, latest value stats group)) := by
  obtain ⟨text, page, htext, hpage, hnames, hsamples⟩ := render_read stats
  have hrows : ∀ name value kind, (name, value, kind) ∈
      (totals.map fun t => (t.1, t.2, Kind.counter)) ++ levels.map (fun t => (t.1, t.2, Kind.gauge)) →
      ShowsRows page name ((Ring.sortedDistinct (stats.map Stats.group)).map fun group =>
        (group, (sampleOf kind value stats group).toNat)) := by
    intro name value kind hmem
    rw [← counted_eq] at hmem
    obtain ⟨⟨q, kind⟩, hc, heq⟩ := List.mem_map.mp hmem
    cases heq
    have hfamily : q.family kind stats ∈ families stats := by
      rw [families_eq]
      exact List.mem_map_of_mem (f := fun c => c.1.family c.2 stats) hc
    have hshown := showsRows_of_samplesAt (hsamples _ hfamily)
    rwa [samples_family, List.map_map] at hshown
  refine ⟨text, page, htext, hpage, fun t ht => ?_, fun t ht => ?_, fun b hb => ?_⟩
  · have hshown := hrows t.1 t.2 .counter
      (List.mem_append_left _ (List.mem_map_of_mem (f := fun t => (t.1, t.2, Kind.counter)) ht))
    simpa only [toNat_sampleOf_counter] using hshown
  · have hshown := hrows t.1 t.2 .gauge
      (List.mem_append_right _ (List.mem_map_of_mem (f := fun t => (t.1, t.2, Kind.gauge)) ht))
    simpa only [toNat_sampleOf_gauge] using hshown
  · have hname := hnames b hb
    rw [families_eq, List.map_map] at hname
    exact counted_names ▸ hname

/-- A request for the page is answered with it. -/
theorem handle_eq {text : String} (h : render stats = .ok text) (query : Option String) :
    handle ⟨"/metrics", query⟩ stats = ⟨200, some contentType, .ofString text⟩ := by
  rw [handle, if_pos rfl, h, respond]

end RingCache.Metrics

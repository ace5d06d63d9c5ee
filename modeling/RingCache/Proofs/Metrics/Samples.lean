import Mathlib.Data.List.Induction
import Mathlib.Tactic.Common
import Mathlib.Tactic.Ring
import RingCache.Metrics
import RingCache.Proofs.Ring.Nodes

/-!
# What becomes of statistics in samples

Samples are changed one after the other, and a change reaches the sample of one label alone
(`Samples.Sorted.change`). So the samples of a family are those of the groups in increasing order,
each made of the values of its own group in their order (`samples_family`): for a counter their sum in
a word of 64 bits, for a gauge the last of them.
-/

namespace RingCache.Metrics

variable {label other : String} {f : UInt64 → UInt64} {samples rest : Samples}

/-! ### Samples by label -/

namespace Samples

def labels (samples : Samples) : List String := samples.map Prod.fst

/-- The sample of a label, zero if there is none. -/
def valueAt (samples : Samples) (label : String) : UInt64 := (samples.lookup label).getD 0

/-- The labels stand in increasing order, so that there is one sample of each. -/
def Sorted (samples : Samples) : Prop := samples.labels.Pairwise (· < ·)

theorem valueAt_cons_self (label : String) (sample : UInt64) (rest : Samples) :
    valueAt ((label, sample) :: rest) label = sample := by
  simp [valueAt]

theorem valueAt_cons_of_ne (h : other ≠ label) (sample : UInt64) (rest : Samples) :
    valueAt ((label, sample) :: rest) other = valueAt rest other := by
  simp [valueAt, List.lookup_cons, beq_false_of_ne h]

theorem valueAt_of_not_mem (h : label ∉ samples.labels) : samples.valueAt label = 0 := by
  have hnone : samples.lookup label = none := by
    refine List.lookup_eq_none_iff.mpr fun p hp => ?_
    have hne : label ≠ p.1 := fun heq => h (heq ▸ List.mem_map_of_mem hp)
    simpa using hne
  rw [valueAt, hnone, Option.getD_none]

theorem mem_labels_change :
    other ∈ (samples.change label f).labels ↔ other = label ∨ other ∈ samples.labels := by
  induction samples with
  | nil => simp [change, labels]
  | cons p rest ih =>
    obtain ⟨first, sample⟩ := p
    rw [change]
    split
    · simp [labels]
    · split
      · next heq => simp [labels, heq]
      · simp only [labels, List.map_cons, List.mem_cons] at ih ⊢
        rw [ih, or_left_comm]

theorem Sorted.not_mem_of_lt {sample : UInt64} (h : Sorted ((other, sample) :: rest))
    (hlt : label < other) : label ∉ labels ((other, sample) :: rest) := by
  intro hmem
  rcases List.mem_cons.mp hmem with rfl | hmem
  · exact String.lt_irrefl label hlt
  · exact String.lt_irrefl label (String.lt_trans hlt ((List.pairwise_cons.mp h).1 label hmem))

/-- **A change keeps the order** and reaches one sample alone. -/
theorem Sorted.change (h : samples.Sorted) (label : String) (f : UInt64 → UInt64) :
    (samples.change label f).Sorted ∧ ∀ other,
      (samples.change label f).valueAt other =
        if other = label then f (samples.valueAt label) else samples.valueAt other := by
  induction samples with
  | nil =>
    refine ⟨List.pairwise_singleton _ _, fun other => ?_⟩
    split
    · next heq => rw [heq, Samples.change, valueAt_cons_self]; rfl
    · next hne => rw [Samples.change, valueAt_cons_of_ne hne]
  | cons p rest ih =>
    obtain ⟨first, sample⟩ := p
    obtain ⟨hfirst, hrest⟩ := List.pairwise_cons.mp h
    rw [Samples.change]
    split
    · next hlt =>
      -- the label is not there yet, and comes before all others
      have hzero := valueAt_of_not_mem (h.not_mem_of_lt hlt)
      refine ⟨List.pairwise_cons.mpr ⟨fun other hother => ?_, h⟩, fun other => ?_⟩
      · rcases List.mem_cons.mp hother with rfl | hother
        · exact hlt
        · exact String.lt_trans hlt (hfirst other hother)
      · split
        · next heq => rw [heq, valueAt_cons_self, hzero]
        · next hne => rw [valueAt_cons_of_ne hne]
    · next hge =>
      split
      · next heq =>
        -- the label is there: its sample is changed in its place
        subst heq
        refine ⟨h, fun other => ?_⟩
        split
        · next heq => rw [heq, valueAt_cons_self, valueAt_cons_self]
        · next hne => rw [valueAt_cons_of_ne hne, valueAt_cons_of_ne hne]
      · next hne =>
        -- the label belongs further behind
        obtain ⟨hsorted, hvalue⟩ := ih hrest
        have hlt : first < label :=
          String.not_le.mp fun hle => hne (String.le_antisymm hle (String.not_lt.mp hge))
        refine ⟨List.pairwise_cons.mpr ⟨fun other hother => ?_, hsorted⟩, fun other => ?_⟩
        · rcases mem_labels_change.mp hother with rfl | hother
          · exact hlt
          · exact hfirst other hother
        · by_cases hother : other = first
          · subst hother
            rw [valueAt_cons_self, valueAt_cons_self, if_neg (Ne.symm hne)]
          · rw [valueAt_cons_of_ne hother, hvalue, valueAt_cons_of_ne hother, valueAt_cons_of_ne hne]

/-- In order, samples are told by their labels and the value at each. -/
theorem Sorted.eq_map (h : samples.Sorted) :
    samples = samples.labels.map fun l => (l, samples.valueAt l) := by
  induction samples with
  | nil => rfl
  | cons p rest ih =>
    obtain ⟨first, sample⟩ := p
    obtain ⟨hfirst, hrest⟩ := List.pairwise_cons.mp h
    have hothers : ∀ l ∈ labels rest, (l, valueAt ((first, sample) :: rest) l) = (l, valueAt rest l) := by
      intro l hl
      have hne : l ≠ first := by
        rintro rfl
        exact String.lt_irrefl l (hfirst l hl)
      rw [valueAt_cons_of_ne hne]
    rw [labels, List.map_cons, List.map_cons, valueAt_cons_self]
    exact congrArg _ ((ih hrest).trans (List.map_congr_left hothers).symm)

end Samples

/-! ### What the samples of a family are -/

/-- What becomes of the values of one group, taken in one after the other. -/
def sampleOf (kind : Kind) (value : Stats → UInt64) (stats : List Stats) (group : String) : UInt64 :=
  (stats.filter fun s => s.group = group).foldl (fun sample s => kind.update (value s) sample) 0

theorem sampleOf_concat (kind : Kind) (value : Stats → UInt64) (stats : List Stats) (s : Stats)
    (group : String) :
    sampleOf kind value (stats ++ [s]) group =
      if group = s.group then kind.update (value s) (sampleOf kind value stats group)
      else sampleOf kind value stats group := by
  rw [sampleOf, List.filter_append, List.foldl_append]
  split
  · next heq => simp [heq, sampleOf]
  · next hne => simp [Ne.symm hne, sampleOf]

theorem samples_concat (q : Quantity) (kind : Kind) (stats : List Stats) (s : Stats) :
    (q.family kind (stats ++ [s])).samples =
      (q.family kind stats).samples.change s.group (kind.update (q.value s)) := by
  simp [Quantity.family]

/-- **The samples of a family**: one for each group, in increasing order. -/
theorem samples_family (q : Quantity) (kind : Kind) (stats : List Stats) :
    (q.family kind stats).samples =
      (Ring.sortedDistinct (stats.map Stats.group)).map fun group =>
        (group, sampleOf kind q.value stats group) := by
  -- from the last of the statistics on, since a fold takes it in last
  have hstep : (q.family kind stats).samples.Sorted ∧
      (∀ group, group ∈ (q.family kind stats).samples.labels ↔ group ∈ stats.map Stats.group) ∧
      ∀ group, (q.family kind stats).samples.valueAt group = sampleOf kind q.value stats group := by
    induction stats using List.reverseRecOn with
    | nil => exact ⟨.nil, fun _ => .rfl, fun _ => rfl⟩
    | append_singleton stats s ih =>
      obtain ⟨hsorted, hlabels, hvalue⟩ := ih
      obtain ⟨hsorted', hvalue'⟩ := hsorted.change s.group (kind.update (q.value s))
      rw [samples_concat]
      refine ⟨hsorted', fun group => ?_, fun group => ?_⟩
      · rw [Samples.mem_labels_change, hlabels, List.map_append, List.mem_append, or_comm]
        simp
      · rw [hvalue', hvalue, hvalue, sampleOf_concat]
        split
        · next heq => rw [heq]
        · rfl
  obtain ⟨hsorted, hlabels, hvalue⟩ := hstep
  have hgroups : (q.family kind stats).samples.labels = Ring.sortedDistinct (stats.map Stats.group) :=
    Ring.eq_of_pairwise_lt hsorted (Ring.pairwise_sortedDistinct _) fun group => by
      rw [hlabels, Ring.mem_sortedDistinct]
  rw [hsorted.eq_map, hgroups]
  exact List.map_congr_left fun group _ => by rw [hvalue]

/-! ### What a sample says -/

/-- What the values of a group add up to, in a word of 64 bits. -/
def total (value : Stats → UInt64) (stats : List Stats) (group : String) : Nat :=
  ((stats.filter fun s => s.group = group).map fun s => (value s).toNat).sum % 2 ^ 64

/-- The last value of a group, as far as a gauge goes. -/
def latest (value : Stats → UInt64) (stats : List Stats) (group : String) : Nat :=
  min (2 ^ 63 - 1)
    ((stats.filter fun s => s.group = group).getLast?.elim 0 fun s => (value s).toNat)

theorem toNat_foldl_add (values : List UInt64) :
    (values.foldl (· + ·) 0).toNat = (values.map UInt64.toNat).sum % 2 ^ 64 := by
  induction values using List.reverseRecOn with
  | nil => rfl
  | append_singleton values v ih =>
    rw [List.foldl_append, List.foldl_cons, List.foldl_nil, UInt64.toNat_add, ih]
    simp

/-- **A counter adds up.** -/
theorem toNat_sampleOf_counter (value : Stats → UInt64) (stats : List Stats) (group : String) :
    (sampleOf .counter value stats group).toNat = total value stats group := by
  have hfold : sampleOf .counter value stats group =
      ((stats.filter fun s => s.group = group).map value).foldl (· + ·) 0 := by
    rw [List.foldl_map]
    rfl
  rw [hfold, toNat_foldl_add, List.map_map]
  rfl

theorem toNat_min_gaugeLimit (v : UInt64) : (min v gaugeLimit).toNat = min (2 ^ 63 - 1) v.toNat := by
  have hlimit : gaugeLimit.toNat = 2 ^ 63 - 1 := by decide
  show (if v ≤ gaugeLimit then v else gaugeLimit).toNat = _
  split
  · next hle =>
    have := UInt64.le_iff_toNat_le.mp hle
    omega
  · next hgt =>
    have := mt UInt64.le_iff_toNat_le.mpr hgt
    omega

/-- **Of a gauge the last value stands.** -/
theorem toNat_sampleOf_gauge (value : Stats → UInt64) (stats : List Stats) (group : String) :
    (sampleOf .gauge value stats group).toNat = latest value stats group := by
  rw [sampleOf, latest]
  induction stats.filter fun s => s.group = group using List.reverseRecOn with
  | nil => rfl
  | append_singleton group s ih =>
    rw [List.foldl_append, List.getLast?_concat]
    exact toNat_min_gaugeLimit _

end RingCache.Metrics

import Mathlib.Tactic.Common
import RingCache.Proofs.Lru.Budgets

/-!
# Walking over the slots

The links of a store are sound if a walk along them, from the newest slot towards the oldest one, meets
every slot once and then ends, if the links in the other direction lead the same way back, and if the
index leads from each key to the slot of its entry (`Threaded`). A store that carries a list is threaded:
the walk is the order of its slots (`Linked.walk`), and each pair of neighbours in that order knows each
other (`Linked.olderOf_eq_iff`).

So no store that begins empty loses its thread, whatever is done to it, and no step of an operation on
it reaches outside the slots (`links_hold`). This includes the steps of `take`, between which the links
are broken: the slot that fills the hole is not known to its neighbours yet (`Removable`).
-/

namespace RingCache.Lru

namespace Store

variable {α : Type} {s : Store α} {order : List Nat}

/-! ### Threads -/

/-- The links, the ends and the index of a store fit its slots. -/
structure Threaded (s : Store α) : Prop where
  /-- from the newest slot on, one meets every slot once, and the oldest one last -/
  walk : ∃ order, s.Walk s.newest order ∧ order.Nodup ∧ (∀ i, i ∈ order ↔ i < s.slots.size) ∧
    s.oldest = order.getLast?
  /-- what stands behind a place has this place before it, and the other way round; before the newest
  and behind the oldest slot there is none -/
  inverse : ∀ x y, s.olderOf x = some y ↔ s.newerOf y = some x
  newest : s.newest = none ↔ s.slots.size = 0
  oldest : s.oldest = none ↔ s.slots.size = 0
  index : ∀ (key : String) (i : Nat),
    s.index[key]? = some i ↔ ∃ e, s.slots[i]? = some e ∧ e.key = key

/-- **Neighbours know each other**, where every slot stands in the order. -/
theorem Linked.olderOf_eq_iff (h : s.Linked order) (hfull : ∀ i < s.slots.size, i ∈ order)
    (x y : Option Nat) : s.olderOf x = some y ↔ s.newerOf y = some x := by
  have hplace : ∀ i e, s.slots[i]? = some e → ∃ m < order.length, order[m]? = some i := by
    intro i e he
    obtain ⟨m, hm⟩ := List.getElem?_of_mem (hfull i (Array.getElem?_eq_some_iff.mp he).1)
    exact ⟨m, (List.getElem?_eq_some_iff.mp hm).1, hm⟩
  constructor
  -- `x` stands before the place `k` of the order, and `y` at it: either of them gives `k`
  · intro holder
    obtain ⟨k, hk, rfl⟩ : ∃ k ≤ order.length, x = before order k := by
      cases x with
      | none => exact ⟨0, Nat.zero_le _, rfl⟩
      | some i =>
        obtain ⟨e, he, -⟩ := Option.map_eq_some_iff.mp holder
        obtain ⟨m, hlt, hm⟩ := hplace i e he
        exact ⟨m + 1, hlt, hm.symm⟩
    obtain rfl := Option.some.inj ((h.joined k hk).1.symm.trans holder)
    exact (h.joined k hk).2
  · intro hnewer
    obtain ⟨k, hk, rfl⟩ : ∃ k ≤ order.length, y = order[k]? := by
      cases y with
      | none => exact ⟨order.length, Nat.le_refl _, (List.getElem?_eq_none (Nat.le_refl _)).symm⟩
      | some i =>
        obtain ⟨e, he, -⟩ := Option.map_eq_some_iff.mp hnewer
        obtain ⟨m, hlt, hm⟩ := hplace i e he
        exact ⟨m, Nat.le_of_lt hlt, hm.symm⟩
    obtain rfl := Option.some.inj ((h.joined k hk).2.symm.trans hnewer)
    exact (h.joined k hk).1

theorem Linked.oldest_eq_getLast? (h : s.Linked order) : s.oldest = order.getLast? := by
  rw [h.oldest_eq, List.getLast?_eq_getElem?]
  cases order with
  | nil => rfl
  | cons i rest => rfl

end Store

open Store Recency

variable {α : Type} [ByteSize α] {s s' : Store α} {l : Recency α} {order : List Nat} {i : Nat}
  {e : Slot α}

theorem CarriesAlong.threaded (h : CarriesAlong s order l) : s.Threaded := by
  have hsize : s.slots.size = order.length := h.size_eq.trans h.length_eq.symm
  refine ⟨⟨order, ?_, h.linked.nodup, fun i => ⟨h.linked.inside i, h.full i⟩,
    h.linked.oldest_eq_getLast?⟩, h.linked.olderOf_eq_iff h.full, ?_, ?_, ?_⟩
  · rw [h.linked.newest_eq]
    exact h.linked.walk 0
  · rw [h.linked.newest_eq, hsize]
    simp
  · rw [h.linked.oldest_eq_getLast?, hsize]
    simp
  · intro key i
    rw [h.index]
    constructor
    · rintro ⟨v, hv⟩
      obtain ⟨e, he, hentry⟩ := content_eq_some.mp hv
      exact ⟨e, he, congrArg Prod.fst hentry⟩
    · rintro ⟨e, he, rfl⟩
      exact ⟨e.value, content_eq_some.mpr ⟨e, he, rfl⟩⟩

theorem Carries.threaded (h : Carries s l) : s.Threaded :=
  h.elim fun _ h => h.threaded

/-! ### Taking a slot out, step by step -/

/-- The slot at `i` can be taken out: it is there, its neighbours are, and so are those of the last slot
once that has filled the hole; no more bytes are taken away than are counted. What is left is threaded
again. -/
def Store.Removable (s : Store α) (i : Nat) : Prop :=
  ∃ e s₁ s₂ s', s.slot i = .ok e ∧ s.unlink i = .ok s₁ ∧
    (if i < (s₁.dropSlot i).slots.size then (s₁.dropSlot i).readdress i
      else pure (s₁.dropSlot i)) = .ok s₂ ∧
    Counting.checked.discount s₂.used (entrySize e.key e.value) = .ok s'.used ∧
    s.take i = .ok (e, s') ∧ s'.Threaded

/-- What is taken out has gone through every stage. -/
theorem stages_of_take (h : s.take i = .ok (e, s')) :
    ∃ s₁ s₂, s.slot i = .ok e ∧ s.unlink i = .ok s₁ ∧
      (if i < (s₁.dropSlot i).slots.size then (s₁.dropSlot i).readdress i
        else pure (s₁.dropSlot i)) = .ok s₂ ∧
      Counting.checked.discount s₂.used (entrySize e.key e.value) = .ok s'.used := by
  obtain ⟨e', hslot, h⟩ := ok_of_bind h
  obtain ⟨s₁, hunlink, h⟩ := ok_of_bind h
  dsimp only at h
  -- the last slot fills the hole, unless it was itself the one to be taken out
  by_cases hin : i < (s₁.dropSlot i).slots.size
  · rw [if_pos hin] at h
    obtain ⟨s₂, hfilled, h⟩ := ok_of_bind h
    obtain ⟨used, hused, h⟩ := ok_of_bind h
    cases h
    exact ⟨s₁, s₂, hslot, hunlink, (if_pos hin).trans hfilled, hused⟩
  · rw [if_neg hin] at h
    obtain ⟨s₂, hfilled, h⟩ := ok_of_bind h
    obtain ⟨used, hused, h⟩ := ok_of_bind h
    cases h
    exact ⟨s₁, s₂, hslot, hunlink, (if_neg hin).trans hfilled, hused⟩

theorem Carries.removable (h : Carries s l) (hfit : bytes l < UInt64.size)
    (hi : i < s.slots.size) : s.Removable i := by
  obtain ⟨order, h⟩ := h
  obtain ⟨m, hm⟩ := List.getElem?_of_mem (h.full i hi)
  have hlt : m < l.length := h.length_eq ▸ (List.getElem?_eq_some_iff.mp hm).1
  obtain ⟨⟨key, v⟩, hl⟩ : ∃ entry, l[m]? = some entry := ⟨_, List.getElem?_eq_getElem hlt⟩
  rcases h.take_spec hm hl .checked with ⟨-, -, hbig⟩ | ⟨e, s', htake, -, -, h'⟩
  · exact absurd hfit (not_lt.mpr hbig)
  · obtain ⟨s₁, s₂, hslot, hunlink, hfilled, hused⟩ := stages_of_take htake
    exact ⟨e, s₁, s₂, s', hslot, hunlink, hfilled, hused, htake, h'.threaded⟩

/-! ### Any operations in order -/

/-- Each operation leaves a list whose bytes can be counted, as long as they can be with what comes in. -/
theorem Carries.trail_carries (h : Carries s l) {ops : List (Op α)} (hcounts : Counts s.budget l ops) :
    ∃ outs, s.trail ops = .ok outs ∧
      ∀ out ∈ outs, ∃ l', Carries out.store l' ∧ bytes l' < UInt64.size := by
  induction ops generalizing s l with
  | nil => exact ⟨[], rfl, nofun⟩
  | cons op ops ih =>
    obtain ⟨hfit, hcounts⟩ := hcounts
    have hle := bytes_step_le s.budget l op
    obtain ⟨out, hok, -, -, hbudget, h'⟩ := h.run_spec op hfit
    obtain ⟨outs, hoks, hcarries⟩ := ih h' (hbudget ▸ hcounts)
    refine ⟨out :: outs, ?_, ?_⟩
    · simp only [Store.trail, hok, bind, Except.bind, hoks]
      rfl
    · intro next hnext
      rcases List.mem_cons.mp hnext with rfl | hnext
      · exact ⟨_, h', by omega⟩
      · exact hcarries next hnext

/-- **The links hold.** Whatever is done to an empty store, in which order ever, no step of any
operation fails: none reaches outside the slots, none takes more bytes away than are counted, and no
`add` is left without an entry to push out while the budget is exceeded. Before and after each
operation the store is threaded, and any of its slots can be taken out.

At any time 64 bits must hold the entries that are kept together with what comes in. It is enough that
they hold all that ever comes in (`counts_of_sum`). -/
theorem links_hold (budget : UInt64) (ops : List (Op α)) (hcounts : Counts budget [] ops) :
    ∃ outs, (Store.empty budget).trail ops = .ok outs ∧
      ∀ s ∈ Store.empty budget :: outs.map Outcome.store,
        s.Threaded ∧ ∀ i < s.slots.size, s.Removable i := by
  have hempty : Carries (Store.empty budget : Store α) [] := carries_empty budget
  obtain ⟨outs, hok, hcarries⟩ := hempty.trail_carries hcounts
  refine ⟨outs, hok, ?_⟩
  intro s hs
  rcases List.mem_cons.mp hs with rfl | hs
  · exact ⟨hempty.threaded, fun i hi => absurd hi (Nat.not_lt_zero i)⟩
  · obtain ⟨out, hout, rfl⟩ := List.mem_map.mp hs
    obtain ⟨l', h', hbytes⟩ := hcarries out hout
    exact ⟨h'.threaded, fun i hi => h'.removable hbytes hi⟩

/-- Three entries without a limit, of which the one in the middle is removed: the last slot fills its
hole. -/
theorem links_hold_removed :
    let ops : List (Op Value) := [.add "a" (Value.ofString "x"), .add "b" (Value.ofString "y"),
      .add "c" (Value.ofString "z"), .remove "b"]
    (ops.map Op.bytes).sum < UInt64.size ∧ Counts 0 [] ops ∧
      ∃ outs, (Store.empty 0).trail ops = .ok outs ∧
        ∀ s ∈ Store.empty 0 :: outs.map Outcome.store,
          s.Threaded ∧ ∀ i < s.slots.size, s.Removable i := by
  intro ops
  have hfit : (ops.map Op.bytes).sum < UInt64.size := by decide
  have hcounts : Counts 0 [] ops := counts_of_sum 0 (by rwa [bytes_nil, Nat.zero_add])
  exact ⟨hfit, hcounts, links_hold 0 ops hcounts⟩

end RingCache.Lru

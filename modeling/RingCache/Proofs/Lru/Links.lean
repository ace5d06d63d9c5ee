import Mathlib.Data.List.Nodup
import Mathlib.Logic.Function.Basic
import Mathlib.Tactic.Common
import RingCache.Lru.Store

/-!
# The links of a slot store

The slots of a store stand in an order of use that only their links know. `Linked s order` says that
the links of `s` are those of the order `order` of slot indices, newest first. The two ends are one
sentinel `none`, whose older neighbour is the newest slot and whose newer neighbour is the oldest;
so no operation has a case for an end.

* `join_spec` — joining two places writes two links and nothing else.
* `unlink_spec`, `linkNewest_spec`, `renew_spec` — what they make of the order.
* `readdress_spec` — moving the last slot into a hole renames it in the order.
-/

namespace RingCache.Lru.Store

variable {α : Type}

/-! ### Links and content -/

/-- What stands behind a place: the next older slot, and the newest slot behind the sentinel. -/
def olderOf (s : Store α) : Option Nat → Option (Option Nat)
  | none => some s.newest
  | some i => s.slots[i]?.map Slot.older

/-- What stands before a place: the next newer slot, and the oldest slot before the sentinel. -/
def newerOf (s : Store α) : Option Nat → Option (Option Nat)
  | none => some s.oldest
  | some i => s.slots[i]?.map Slot.newer

/-- Two places are neighbours, and both know it. -/
def Joined (s : Store α) (newer older : Option Nat) : Prop :=
  s.olderOf newer = some older ∧ s.newerOf older = some newer

/-- The sentinel, or the index of a slot. -/
def HasPlace (s : Store α) (place : Option Nat) : Prop := ∀ i ∈ place, i < s.slots.size

/-- The entry of a slot. -/
def entryOf (e : Slot α) : String × α := (e.key, e.value)

/-- The entries, slot by slot. -/
def content (s : Store α) : Array (String × α) := s.slots.map entryOf

@[simp] theorem size_content (s : Store α) : s.content.size = s.slots.size := by
  simp [content]

theorem content_eq_some {s : Store α} {i : Nat} {entry : String × α} :
    s.content[i]? = some entry ↔ ∃ e, s.slots[i]? = some e ∧ entryOf e = entry := by
  simp [content]

/-- Nothing but links differs. -/
structure Relinked (s s' : Store α) : Prop where
  content : s'.content = s.content
  index : s'.index = s.index
  used : s'.used = s.used
  budget : s'.budget = s.budget

theorem Relinked.refl (s : Store α) : Relinked s s := ⟨rfl, rfl, rfl, rfl⟩

theorem Relinked.trans {s s' s'' : Store α} (h : Relinked s s') (h' : Relinked s' s'') :
    Relinked s s'' :=
  ⟨h'.content.trans h.content, h'.index.trans h.index, h'.used.trans h.used,
    h'.budget.trans h.budget⟩

theorem Relinked.size {s s' : Store α} (h : Relinked s s') : s'.slots.size = s.slots.size := by
  rw [← size_content, h.content, size_content]

/-! ### Writing one link -/

/-- Writes what stands behind a place. -/
def setOlder (s : Store α) (place older : Option Nat) : Store α :=
  match place with
  | some i => { s with slots := s.slots.modify i fun e => { e with older := older } }
  | none => { s with newest := older }

/-- Writes what stands before a place. -/
def setNewer (s : Store α) (place newer : Option Nat) : Store α :=
  match place with
  | some i => { s with slots := s.slots.modify i fun e => { e with newer := newer } }
  | none => { s with oldest := newer }

theorem content_modify (s : Store α) (i : Nat) {f : Slot α → Slot α}
    (hf : ∀ e, entryOf (f e) = entryOf e) : (s.slots.modify i f).map entryOf = s.content := by
  apply Array.ext_getElem?
  intro j
  rw [content, Array.getElem?_map, Array.getElem?_map, Array.getElem?_modify]
  split
  · cases s.slots[j]? <;> simp [hf]
  · rfl

theorem relinked_setOlder (s : Store α) (place older : Option Nat) :
    Relinked s (s.setOlder place older) := by
  cases place with
  | none => exact ⟨rfl, rfl, rfl, rfl⟩
  | some i =>
    have hcontent : (s.setOlder (some i) older).content = s.content :=
      s.content_modify i (f := fun e => { e with older := older }) fun _ => rfl
    exact ⟨hcontent, rfl, rfl, rfl⟩

theorem relinked_setNewer (s : Store α) (place newer : Option Nat) :
    Relinked s (s.setNewer place newer) := by
  cases place with
  | none => exact ⟨rfl, rfl, rfl, rfl⟩
  | some i =>
    have hcontent : (s.setNewer (some i) newer).content = s.content :=
      s.content_modify i (f := fun e => { e with newer := newer }) fun _ => rfl
    exact ⟨hcontent, rfl, rfl, rfl⟩

theorem olderOf_setOlder {s : Store α} {place : Option Nat} (h : s.HasPlace place)
    (older : Option Nat) :
    (s.setOlder place older).olderOf = Function.update s.olderOf place (some older) := by
  funext x
  cases place with
  | none => cases x <;> simp [setOlder, olderOf]
  | some i =>
    have hi : i < s.slots.size := h i rfl
    cases x with
    | none => simp [setOlder, olderOf]
    | some j =>
      by_cases hij : i = j
      · subst hij
        simp [setOlder, olderOf, hi, Array.getElem_modify]
      · simp [setOlder, olderOf, Array.getElem?_modify, hij, Ne.symm hij]

theorem newerOf_setNewer {s : Store α} {place : Option Nat} (h : s.HasPlace place)
    (newer : Option Nat) :
    (s.setNewer place newer).newerOf = Function.update s.newerOf place (some newer) := by
  funext x
  cases place with
  | none => cases x <;> simp [setNewer, newerOf]
  | some i =>
    have hi : i < s.slots.size := h i rfl
    cases x with
    | none => simp [setNewer, newerOf]
    | some j =>
      by_cases hij : i = j
      · subst hij
        simp [setNewer, newerOf, hi, Array.getElem_modify]
      · simp [setNewer, newerOf, Array.getElem?_modify, hij, Ne.symm hij]

/-- The links in the one direction do not depend on those in the other. -/
theorem newerOf_setOlder (s : Store α) (place older : Option Nat) :
    (s.setOlder place older).newerOf = s.newerOf := by
  funext x
  cases place with
  | none => cases x <;> rfl
  | some i =>
    cases x with
    | none => rfl
    | some j =>
      simp only [setOlder, newerOf, Array.getElem?_modify]
      split
      · cases s.slots[j]? <;> rfl
      · rfl

theorem olderOf_setNewer (s : Store α) (place newer : Option Nat) :
    (s.setNewer place newer).olderOf = s.olderOf := by
  funext x
  cases place with
  | none => cases x <;> rfl
  | some i =>
    cases x with
    | none => rfl
    | some j =>
      simp only [setNewer, olderOf, Array.getElem?_modify]
      split
      · cases s.slots[j]? <;> rfl
      · rfl

theorem Relinked.hasPlace {s s' : Store α} (h : Relinked s s') {place : Option Nat}
    (hp : s.HasPlace place) : s'.HasPlace place := by
  intro i hi
  rw [h.size]
  exact hp i hi

/-! ### Joining two places -/

theorem join_eq {s : Store α} {a b : Option Nat} (ha : s.HasPlace a) (hb : s.HasPlace b) :
    s.join a b = .ok ((s.setOlder a b).setNewer b a) := by
  have hb' := (s.relinked_setOlder a b).hasPlace hb
  cases a with
  | none =>
    cases b with
    | none => rfl
    | some j => exact if_pos (hb' j rfl)
  | some i =>
    have hi : s.modifySlot i (fun e => { e with older := b }) = .ok (s.setOlder (some i) b) :=
      if_pos (ha i rfl)
    simp only [join, hi]
    cases b with
    | none => rfl
    | some j => exact if_pos (hb' j rfl)

/-- **Joining two places** makes them neighbours, and keeps every pair of neighbours that has
neither the same newer nor the same older place. -/
theorem join_spec {s : Store α} {a b : Option Nat} (ha : s.HasPlace a) (hb : s.HasPlace b) :
    ∃ s', s.join a b = .ok s' ∧ Relinked s s' ∧ s'.Joined a b ∧
      ∀ x y, x ≠ a → y ≠ b → s.Joined x y → s'.Joined x y := by
  have hrelinked := s.relinked_setOlder a b
  have hb' := hrelinked.hasPlace hb
  refine ⟨_, join_eq ha hb, hrelinked.trans (relinked_setNewer _ b a), ⟨?_, ?_⟩,
    fun x y hx hy h => ⟨?_, ?_⟩⟩
  · rw [olderOf_setNewer, olderOf_setOlder ha, Function.update_self]
  · rw [newerOf_setNewer hb', Function.update_self]
  · rw [olderOf_setNewer, olderOf_setOlder ha, Function.update_of_ne hx]
    exact h.1
  · rw [newerOf_setNewer hb', newerOf_setOlder, Function.update_of_ne hy]
    exact h.2

/-! ### The order of use -/

/-- The place before the `k`-th slot of an order: the sentinel before the first one. -/
def before (order : List Nat) : Nat → Option Nat
  | 0 => none
  | k + 1 => order[k]?

/-- The links are those of an order of distinct slots, newest first. -/
structure Linked (s : Store α) (order : List Nat) : Prop where
  nodup : order.Nodup
  inside : ∀ i ∈ order, i < s.slots.size
  joined : ∀ k ≤ order.length, s.Joined (before order k) order[k]?

theorem getElem?_inj_of_le {order : List Nat} (h : order.Nodup) {j k : Nat}
    (hj : j ≤ order.length) (hk : k ≤ order.length) (heq : order[j]? = order[k]?) : j = k := by
  rcases Nat.lt_or_ge j order.length with hlt | hge
  · exact (List.getElem?_inj hlt h).mp heq
  · rw [List.getElem?_eq_none hge] at heq
    have := List.getElem?_eq_none_iff.mp heq.symm
    omega

theorem mem_eraseIdx_iff {order : List Nat} (h : order.Nodup) {m i j : Nat}
    (hm : order[m]? = some i) : j ∈ order.eraseIdx m ↔ j ∈ order ∧ j ≠ i := by
  rw [List.mem_eraseIdx_iff_getElem?]
  constructor
  · rintro ⟨k, hkm, hk⟩
    refine ⟨List.mem_of_getElem? hk, ?_⟩
    rintro rfl
    exact hkm ((List.getElem?_inj (List.getElem?_eq_some_iff.mp hk).1 h).mp (hk.trans hm.symm))
  · rintro ⟨hmem, hne⟩
    obtain ⟨k, hk⟩ := List.getElem?_of_mem hmem
    refine ⟨k, ?_, hk⟩
    rintro rfl
    rw [hm] at hk
    exact hne (Option.some.inj hk).symm

theorem before_inj_of_le {order : List Nat} (h : order.Nodup) {j k : Nat}
    (hj : j ≤ order.length) (hk : k ≤ order.length) (heq : before order j = before order k) :
    j = k := by
  cases j with
  | zero =>
    cases k with
    | zero => rfl
    | succ k =>
      have := List.getElem?_eq_none_iff.mp heq.symm
      omega
  | succ j =>
    cases k with
    | zero =>
      have := List.getElem?_eq_none_iff.mp heq
      omega
    | succ k => rw [getElem?_inj_of_le h (Nat.le_of_lt hj) (Nat.le_of_lt hk) heq]

theorem mem_of_before {order : List Nat} {k i : Nat} (h : before order k = some i) :
    i ∈ order := by
  cases k with
  | zero => cases h
  | succ k => exact List.mem_of_getElem? h

theorem before_eraseIdx (order : List Nat) (m k : Nat) :
    before (order.eraseIdx m) k = if k ≤ m then before order k else before order (k + 1) := by
  cases k with
  | zero => simp [before]
  | succ k =>
    simp only [before, List.getElem?_eraseIdx]
    rfl

namespace Linked

variable {s : Store α} {order : List Nat}

theorem hasPlace (h : s.Linked order) (k : Nat) : s.HasPlace order[k]? :=
  fun i hi => h.inside i (List.mem_of_getElem? hi)

theorem hasPlace_before (h : s.Linked order) (k : Nat) : s.HasPlace (before order k) :=
  fun i hi => h.inside i (mem_of_before hi)

theorem newest_eq (h : s.Linked order) : s.newest = order[0]? :=
  Option.some.inj (h.joined 0 (Nat.zero_le _)).1

theorem oldest_eq (h : s.Linked order) : s.oldest = before order order.length := by
  have hjoined := (h.joined order.length (Nat.le_refl _)).2
  rw [List.getElem?_eq_none (Nat.le_refl _)] at hjoined
  exact Option.some.inj hjoined

/-- The order depends on the links alone. -/
theorem congr (h : s.Linked order) {s' : Store α}
    (hslots : ∀ (i : Nat) (e : Slot α), s.slots[i]? = some e →
      ∃ e' : Slot α, s'.slots[i]? = some e' ∧ e'.newer = e.newer ∧ e'.older = e.older)
    (hnewest : s'.newest = s.newest) (holdest : s'.oldest = s.oldest) : s'.Linked order := by
  refine ⟨h.nodup, ?_, fun k hk => ⟨?_, ?_⟩⟩
  · intro i hi
    obtain ⟨e', he', -⟩ := hslots i _ (Array.getElem?_eq_getElem (h.inside i hi))
    exact (Array.getElem?_eq_some_iff.mp he').1
  · have hjoined := (h.joined k hk).1
    generalize before order k = x at hjoined ⊢
    cases x with
    | none => exact (congrArg some hnewest).trans hjoined
    | some i =>
      obtain ⟨e, he, holder⟩ := Option.map_eq_some_iff.mp hjoined
      obtain ⟨e', he', -, holder'⟩ := hslots i e he
      exact Option.map_eq_some_iff.mpr ⟨e', he', holder'.trans holder⟩
  · have hjoined := (h.joined k hk).2
    generalize order[k]? = y at hjoined ⊢
    cases y with
    | none => exact (congrArg some holdest).trans hjoined
    | some i =>
      obtain ⟨e, he, hnewer⟩ := Option.map_eq_some_iff.mp hjoined
      obtain ⟨e', he', hnewer', -⟩ := hslots i e he
      exact Option.map_eq_some_iff.mpr ⟨e', he', hnewer'.trans hnewer⟩

/-- A slot of the order, with its links. -/
theorem slot_at (h : s.Linked order) {m i : Nat} (hm : order[m]? = some i) :
    ∃ e, s.slots[i]? = some e ∧ e.newer = before order m ∧ e.older = order[m + 1]? := by
  have hlt : m < order.length := (List.getElem?_eq_some_iff.mp hm).1
  have hnewer := (h.joined m (Nat.le_of_lt hlt)).2
  have holder := (h.joined (m + 1) hlt).1
  rw [hm] at hnewer
  rw [before, hm] at holder
  obtain ⟨e, he, hen⟩ := Option.map_eq_some_iff.mp hnewer
  obtain ⟨e', he', heo⟩ := Option.map_eq_some_iff.mp holder
  rw [he] at he'
  cases he'
  exact ⟨e, he, hen, heo⟩

/-- **Taking a slot out of the order** closes the gap. -/
theorem unlink_spec (h : s.Linked order) {m i : Nat} (hm : order[m]? = some i) :
    ∃ s', s.unlink i = .ok s' ∧ Relinked s s' ∧ s'.Linked (order.eraseIdx m) := by
  have hlt : m < order.length := (List.getElem?_eq_some_iff.mp hm).1
  obtain ⟨e, he, hnewer, holder⟩ := h.slot_at hm
  obtain ⟨s', hok, hsame, hab, hframe⟩ := join_spec (h.hasPlace_before m) (h.hasPlace (m + 1))
  refine ⟨s', ?_, hsame, h.nodup.eraseIdx m, ?_, ?_⟩
  · rw [← hnewer, ← holder] at hok
    simp only [unlink, slot, he]
    exact hok
  · intro j hj
    rw [hsame.size]
    exact h.inside j (List.mem_of_mem_eraseIdx hj)
  · intro k hk
    rw [List.length_eraseIdx_of_lt hlt] at hk
    rw [before_eraseIdx, List.getElem?_eraseIdx]
    -- every pair of neighbours but those at `m` and `m + 1` is an old one
    have hold : ∀ k ≤ order.length, k ≠ m → k ≠ m + 1 → s'.Joined (before order k) order[k]? := by
      intro k hk hkm hkm'
      refine hframe _ _ (fun heq => hkm ?_) (fun heq => hkm' ?_) (h.joined k hk)
      · exact before_inj_of_le h.nodup hk (Nat.le_of_lt hlt) heq
      · exact getElem?_inj_of_le h.nodup hk hlt heq
    rcases Nat.lt_trichotomy k m with hkm | rfl | hkm
    · rw [if_pos (Nat.le_of_lt hkm), if_pos hkm]
      exact hold k (by omega) (by omega) (by omega)
    · rw [if_pos (Nat.le_refl _), if_neg (Nat.lt_irrefl _)]
      exact hab
    · rw [if_neg (by omega), if_neg (by omega)]
      exact hold (k + 1) (by omega) (by omega) (by omega)

/-- **Putting a slot before the newest** puts it in front of the order. -/
theorem linkNewest_spec (h : s.Linked order) {i : Nat} (hi : i < s.slots.size)
    (hnot : i ∉ order) :
    ∃ s', s.linkNewest i = .ok s' ∧ Relinked s s' ∧ s'.Linked (i :: order) := by
  have hplace : s.HasPlace (some i) := fun j hj => Option.some.inj hj ▸ hi
  have hne : ∀ k, order[k]? ≠ some i := fun k hk => hnot (List.mem_of_getElem? hk)
  obtain ⟨s₁, hok₁, hsame₁, hab₁, hframe₁⟩ :=
    join_spec (s := s) (a := none) (b := some i) (fun _ h => nomatch h) hplace
  obtain ⟨s₂, hok₂, hsame₂, hab₂, hframe₂⟩ :=
    join_spec (s := s₁) (hsame₁.hasPlace hplace) (hsame₁.hasPlace (h.hasPlace 0))
  refine ⟨s₂, ?_, hsame₁.trans hsame₂, List.nodup_cons.mpr ⟨hnot, h.nodup⟩, ?_,
    ?_⟩
  · simp only [linkNewest, hok₁, h.newest_eq]
    exact hok₂
  · intro j hj
    rw [hsame₂.size, hsame₁.size]
    rcases List.mem_cons.mp hj with rfl | hj
    · exact hi
    · exact h.inside j hj
  · intro k hk
    match k with
    | 0 => exact hframe₂ _ _ nofun (hne 0).symm hab₁
    | 1 => exact hab₂
    | k + 2 =>
      have hk : k + 1 ≤ order.length := by
        rw [List.length_cons] at hk
        omega
      have hsome : order[k]? ≠ none := fun hnone => by
        have := List.getElem?_eq_none_iff.mp hnone
        omega
      have hzero : order[k + 1]? ≠ order[0]? := fun heq => by
        have := getElem?_inj_of_le h.nodup hk (Nat.zero_le _) heq
        omega
      exact hframe₂ _ _ (hne k) hzero (hframe₁ _ _ hsome (hne (k + 1)) (h.joined (k + 1) hk))

/-- **Making a slot the newest** moves it to the front of the order. -/
theorem renew_spec (h : s.Linked order) {m i : Nat} (hm : order[m]? = some i) :
    ∃ s', s.renew i = .ok s' ∧ Relinked s s' ∧ s'.Linked (i :: order.eraseIdx m) := by
  have hlt : m < order.length := (List.getElem?_eq_some_iff.mp hm).1
  by_cases hnewest : s.newest = some i
  · have hzero : m = 0 := by
      apply getElem?_inj_of_le h.nodup (Nat.le_of_lt hlt) (Nat.zero_le _)
      rw [hm, ← hnewest, h.newest_eq]
    subst hzero
    obtain ⟨rest, rfl⟩ : ∃ rest, order = i :: rest := by
      cases order with
      | nil => simp at hm
      | cons j rest => exact ⟨rest, by simpa using hm⟩
    exact ⟨s, by rw [renew, if_pos hnewest], Relinked.refl s, h⟩
  · obtain ⟨s₁, hok₁, hsame₁, hlinked₁⟩ := h.unlink_spec hm
    have hnot : i ∉ order.eraseIdx m := fun hmem => ((mem_eraseIdx_iff h.nodup hm).mp hmem).2 rfl
    have hi : i < s₁.slots.size := hsame₁.size ▸ h.inside i (List.mem_of_getElem? hm)
    obtain ⟨s₂, hok₂, hsame₂, hlinked₂⟩ := hlinked₁.linkNewest_spec hi hnot
    refine ⟨s₂, ?_, hsame₁.trans hsame₂, hlinked₂⟩
    simp only [renew, if_neg hnewest, hok₁]
    exact hok₂

end Linked

/-! ### Moving the last slot into a hole -/

@[simp] theorem size_dropSlot (s : Store α) (i : Nat) :
    (s.dropSlot i).slots.size = s.slots.size - 1 := by
  simp [dropSlot]

/-- The last slot stands in the hole, and everything else where it stood. -/
theorem getElem?_dropSlot {s : Store α} {i : Nat} (hi : i < s.slots.size) (j : Nat) :
    (s.dropSlot i).slots[j]? =
      if j < s.slots.size - 1 then
        if j = i then s.slots[s.slots.size - 1]? else s.slots[j]?
      else none := by
  have hlast : s.slots.size - 1 < s.slots.size := by omega
  rw [dropSlot, Array.getElem?_pop, Array.swapIfInBounds_def, dif_pos hi, dif_pos hlast,
    Array.size_swap]
  split
  · rw [Array.getElem?_swap]
    grind
  · rfl

/-- The index of a slot once the last slot, `last`, stands at `i`. -/
def renamed (last i j : Nat) : Nat := if j = last then i else j

namespace Linked

variable {s : Store α} {order : List Nat}

/-- Away from the hole and the last slot, neighbours stay neighbours. -/
theorem joined_dropSlot {i : Nat} (hi : i < s.slots.size) {x y : Option Nat}
    (hx : x ≠ some i ∧ x ≠ some (s.slots.size - 1)) (hy : y ≠ some i ∧ y ≠ some (s.slots.size - 1))
    (hjoined : s.Joined x y) : (s.dropSlot i).Joined x y := by
  have hslots : ∀ j, some j ≠ some i ∧ some j ≠ some (s.slots.size - 1) →
      (s.dropSlot i).slots[j]? = s.slots[j]? := by
    intro j hj
    rw [getElem?_dropSlot hi]
    split
    · rw [if_neg fun heq => hj.1 (congrArg some heq)]
    · exact (Array.getElem?_eq_none (by grind)).symm
  constructor
  · cases x with
    | none => exact hjoined.1
    | some j => exact (congrArg (Option.map Slot.older) (hslots j hx)).trans hjoined.1
  · cases y with
    | none => exact hjoined.2
    | some j => exact (congrArg (Option.map Slot.newer) (hslots j hy)).trans hjoined.2

/-- One slot of an order gets another name: it is enough that its own two pairs of neighbours know
the new name, and that all other pairs are as they were. -/
theorem linked_renamed {order : List Nat} {last i m : Nat} (hnodup : order.Nodup)
    (hnot : i ∉ order) (hm : order[m]? = some last)
    (hinside : ∀ j ∈ order, renamed last i j < s.slots.size)
    (hin : s.Joined (before order m) (some i)) (hout : s.Joined (some i) order[m + 1]?)
    (hrest : ∀ k ≤ order.length, k ≠ m → k ≠ m + 1 → s.Joined (before order k) order[k]?) :
    s.Linked (order.map (renamed last i)) := by
  have hlt : m < order.length := (List.getElem?_eq_some_iff.mp hm).1
  refine ⟨?_, ?_, ?_⟩
  · refine List.Nodup.map_on ?_ hnodup
    intro x hx y hy hxy
    have hxi : x ≠ i := fun heq => hnot (heq ▸ hx)
    have hyi : y ≠ i := fun heq => hnot (heq ▸ hy)
    simp only [renamed] at hxy
    split at hxy <;> split at hxy <;> omega
  · intro j hj
    obtain ⟨x, hx, rfl⟩ := List.mem_map.mp hj
    exact hinside x hx
  · intro k hk
    rw [List.length_map] at hk
    have hbefore : before (order.map (renamed last i)) k =
        (before order k).map (renamed last i) := by
      cases k with
      | zero => rfl
      | succ k => exact List.getElem?_map
    -- a place other than the last slot keeps its name
    have hkeep : ∀ {x : Option Nat}, x ≠ some last → x.map (renamed last i) = x := by
      intro x hx
      cases x with
      | none => rfl
      | some j => rw [Option.map_some, renamed, if_neg fun heq => hx (congrArg some heq)]
    have hmoved : (some last).map (renamed last i) = some i := by
      rw [Option.map_some, renamed, if_pos rfl]
    have hlast : k ≠ m → order[k]? ≠ some last := fun hkm heq =>
      hkm (getElem?_inj_of_le hnodup hk (Nat.le_of_lt hlt) (heq.trans hm.symm))
    have hlastb : k ≠ m + 1 → before order k ≠ some last := fun hkm heq =>
      hkm (before_inj_of_le hnodup hk hlt (heq.trans hm.symm))
    rw [hbefore, List.getElem?_map]
    by_cases hkm : k = m
    · rw [hkeep (hlastb (by omega)), hkm, hm, hmoved]
      exact hin
    · rw [hkeep (hlast hkm)]
      by_cases hkm' : k = m + 1
      · rw [hkm', before, hm, hmoved]
        exact hout
      · rw [hkeep (hlastb hkm')]
        exact hrest k hk hkm hkm'

/-- **Moving the last slot into a hole**: where the order knew the last slot it now knows the hole,
and the key of the moved slot leads there. -/
theorem readdress_spec (h : s.Linked order) {i m : Nat} (hi : i < s.slots.size - 1)
    (hnot : i ∉ order) (hm : order[m]? = some (s.slots.size - 1)) :
    ∃ e s', s.slots[s.slots.size - 1]? = some e ∧ Relinked (s.dropSlot i) s' ∧
      s'.Linked (order.map (renamed (s.slots.size - 1) i)) ∧
      (s.dropSlot i).readdress i = .ok { s' with index := s'.index.insert e.key i } := by
  have hlt : m < order.length := (List.getElem?_eq_some_iff.mp hm).1
  have hi' : i < s.slots.size := by omega
  obtain ⟨e, he, hnewer, holder⟩ := h.slot_at hm
  have hne : ∀ k, order[k]? ≠ some i := fun k hk => hnot (List.mem_of_getElem? hk)
  have hneb : ∀ k, before order k ≠ some i := fun k hk => hnot (mem_of_before hk)
  -- only one place of the order is the last slot
  have hlast : ∀ k ≤ order.length, k ≠ m → order[k]? ≠ some (s.slots.size - 1) :=
    fun k hk hkm heq =>
      hkm (getElem?_inj_of_le h.nodup hk (Nat.le_of_lt hlt) (heq.trans hm.symm))
  have hlastb : ∀ k ≤ order.length, k ≠ m + 1 → before order k ≠ some (s.slots.size - 1) :=
    fun k hk hkm heq => hkm (before_inj_of_le h.nodup hk hlt (heq.trans hm.symm))
  have hplace : ∀ {x : Option Nat}, s.HasPlace x → x ≠ some (s.slots.size - 1) →
      (s.dropSlot i).HasPlace x := by
    intro x hx hxl j hj
    have hjlt := hx j hj
    have hjl : j ≠ s.slots.size - 1 := fun heq => hxl (by rw [← heq]; exact hj)
    rw [size_dropSlot]
    omega
  have hplacei : (s.dropSlot i).HasPlace (some i) := fun j hj => by
    cases hj
    rw [size_dropSlot]
    exact hi
  obtain ⟨s₁, hok₁, hsame₁, hab₁, hframe₁⟩ :=
    join_spec (hplace (h.hasPlace_before m) (hlastb m (by omega) (by omega))) hplacei
  obtain ⟨s₂, hok₂, hsame₂, hab₂, hframe₂⟩ :=
    join_spec (hsame₁.hasPlace hplacei)
      (hsame₁.hasPlace (hplace (h.hasPlace (m + 1)) (hlast (m + 1) hlt (by omega))))
  have hsame := hsame₁.trans hsame₂
  refine ⟨e, s₂, he, hsame, linked_renamed h.nodup hnot hm ?_ ?_ hab₂
    ?_, ?_⟩
  · intro j hj
    have hjlt := h.inside j hj
    rw [hsame.size, size_dropSlot, renamed]
    split <;> omega
  · exact hframe₂ _ _ (hneb m) (hne (m + 1)).symm hab₁
  · intro k hk hkm hkm'
    have hdrop := joined_dropSlot hi' ⟨hneb k, hlastb k hk hkm'⟩ ⟨hne k, hlast k hk hkm⟩
      (h.joined k hk)
    have hb : before order k ≠ before order m := fun heq =>
      hkm (before_inj_of_le h.nodup hk (Nat.le_of_lt hlt) heq)
    have ha : order[k]? ≠ order[m + 1]? := fun heq =>
      hkm' (getElem?_inj_of_le h.nodup hk hlt heq)
    exact hframe₂ _ _ (hneb k) ha (hframe₁ _ _ hb (hne k) hdrop)
  · have he' : (s.dropSlot i).slots[i]? = some e := by
      rw [getElem?_dropSlot hi', if_pos hi, if_pos rfl, he]
    rw [← hnewer] at hok₁
    rw [← holder] at hok₂
    simp only [readdress, slot, he', bind, Except.bind, hok₁, hok₂]
    rfl

end Linked

end RingCache.Lru.Store

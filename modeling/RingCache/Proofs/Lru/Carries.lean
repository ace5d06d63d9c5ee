import Mathlib.Data.List.InsertIdx
import Mathlib.Data.List.Nodup
import Mathlib.Data.List.Perm.Basic
import Mathlib.Tactic.Common
import RingCache.Proofs.Lru.Links
import RingCache.Proofs.Lru.Recency

/-!
# A slot store carries a recency list

`Carries s l` says that the store `s` stands for the list `l`: some order of its slots is the one of
its links, the entries in that order are those of `l`, the index leads from each key to its slot,
and the bytes in use are those of `l`, as far as 64 bits can count them.

Each step that touches more than links has one lemma (`take_spec`, `put_spec`). None of them assumes
that the bytes fit 64 bits: what can go wrong beyond that is the one fault `underflow`, and that only
where the count is checked.
-/

namespace RingCache.Lru

open Store

variable {α : Type} [ByteSize α]

/-- A store stands for a list, with its slots in the given order of use. -/
structure CarriesAlong (s : Store α) (order : List Nat) (l : Recency α) : Prop where
  linked : s.Linked order
  full : ∀ i < s.slots.size, i ∈ order
  entries : order.map (s.content[·]?) = l.map some
  index : ∀ (key : String) (i : Nat), s.index[key]? = some i ↔ ∃ v, s.content[i]? = some (key, v)
  used : s.used = UInt64.ofNat l.bytes

/-- A store stands for a list of entries, newest first. -/
def Carries (s : Store α) (l : Recency α) : Prop := ∃ order, CarriesAlong s order l

theorem carries_empty (budget : UInt64) : Carries (Store.empty budget : Store α) [] := by
  refine ⟨[], ⟨List.nodup_nil, nofun, ?_⟩, nofun, rfl, ?_, rfl⟩
  · intro k hk
    obtain rfl : k = 0 := by simpa using hk
    exact ⟨rfl, rfl⟩
  · intro key i
    simp [Store.empty, content]

/-- Only a checked count refuses, and only where more is taken away than is counted. -/
theorem Counting.discount_cases (counting : Counting) (used size : UInt64) :
    (counting = .checked ∧ used < size ∧ counting.discount used size = .error .underflow) ∨
      counting.discount used size = .ok (used - size) := by
  cases counting with
  | checked =>
    by_cases hlt : used < size
    · exact .inl ⟨rfl, hlt, if_pos hlt⟩
    · exact .inr (if_neg hlt)
  | wrapping => exact .inr rfl

/-- A checked count of more bytes than 64 bits can count. -/
def Overflows (counting : Counting) (l : Recency α) : Prop :=
  counting = .checked ∧ UInt64.size ≤ l.bytes

namespace CarriesAlong

variable {s : Store α} {order : List Nat} {l : Recency α}

/-! ### Places in the order and places in the list -/

theorem length_eq (h : CarriesAlong s order l) : order.length = l.length := by
  have := congrArg List.length h.entries
  rwa [List.length_map, List.length_map] at this

theorem size_eq (h : CarriesAlong s order l) : s.slots.size = l.length := by
  have hperm : order.Perm (List.range s.slots.size) := by
    rw [List.perm_ext_iff_of_nodup h.linked.nodup List.nodup_range]
    intro i
    rw [List.mem_range]
    exact ⟨h.linked.inside i, h.full i⟩
  rw [← h.length_eq, hperm.length_eq, List.length_range]

/-- The slot at a place of the order holds the entry at that place of the list. -/
theorem content_at (h : CarriesAlong s order l) {m i : Nat} (hm : order[m]? = some i) :
    s.content[i]? = l[m]? := by
  have hat := congrArg (·[m]?) h.entries
  simp only [List.getElem?_map, hm, Option.map_some] at hat
  cases hl : l[m]? with
  | none => simp [hl] at hat
  | some e => simpa [hl] using hat

/-- What the index knows stands somewhere in the list. -/
theorem find (h : CarriesAlong s order l) {key : String} {i : Nat}
    (hi : s.index[key]? = some i) :
    ∃ (m : Nat) (v : α), order[m]? = some i ∧ l[m]? = some (key, v) := by
  obtain ⟨v, hv⟩ := (h.index key i).mp hi
  have hlt : i < s.slots.size := by
    rw [← size_content]
    exact (Array.getElem?_eq_some_iff.mp hv).1
  obtain ⟨m, hm⟩ := List.getElem?_of_mem (h.full i hlt)
  exact ⟨m, v, hm, (h.content_at hm).symm.trans hv⟩

/-- Every place of the list is some slot, and the index knows it. -/
theorem index_at (h : CarriesAlong s order l) {m : Nat} {e : String × α} (hm : l[m]? = some e) :
    ∃ i, order[m]? = some i ∧ s.index[e.1]? = some i := by
  have hlt : m < order.length := by
    rw [h.length_eq]
    exact (List.getElem?_eq_some_iff.mp hm).1
  have hi : order[m]? = some order[m] := List.getElem?_eq_getElem hlt
  exact ⟨order[m], hi, (h.index _ _).mpr ⟨e.2, (h.content_at hi).trans hm⟩⟩

theorem nodup_keys (h : CarriesAlong s order l) : l.keys.Nodup := by
  rw [List.nodup_iff_getElem?_ne_getElem?]
  intro j k hjk hk heq
  rw [Recency.keys, List.getElem?_map, List.getElem?_map] at heq
  rw [Recency.keys, List.length_map] at hk
  have hek : l[k]? = some l[k] := List.getElem?_eq_getElem hk
  have hej : l[j]? = some l[j] := List.getElem?_eq_getElem (by omega)
  rw [hek, hej] at heq
  obtain ⟨i, hi, hidx⟩ := h.index_at hej
  obtain ⟨i', hi', hidx'⟩ := h.index_at hek
  rw [← Option.some.inj heq, hidx] at hidx'
  rw [← Option.some.inj hidx'] at hi'
  have := (List.getElem?_inj (by rw [h.length_eq]; omega) h.linked.nodup).mp (hi.trans hi'.symm)
  omega

/-- The index knows exactly the keys of the list. -/
theorem index_eq_none (h : CarriesAlong s order l) {key : String} :
    s.index[key]? = none ↔ key ∉ l.keys := by
  constructor
  · intro hnone hmem
    obtain ⟨⟨k, v⟩, he, rfl⟩ := List.mem_map.mp hmem
    obtain ⟨m, hm⟩ := List.getElem?_of_mem he
    obtain ⟨i, -, hi⟩ := h.index_at hm
    rw [hi] at hnone
    cases hnone
  · intro hnot
    cases hi : s.index[key]? with
    | none => rfl
    | some i =>
      obtain ⟨m, v, -, hm⟩ := h.find hi
      exact absurd (List.mem_map.mpr ⟨_, List.mem_of_getElem? hm, rfl⟩) hnot

/-! ### Counted bytes -/

theorem toNat_used (h : CarriesAlong s order l) (hfit : l.bytes < UInt64.size) :
    s.used.toNat = l.bytes := by
  rw [h.used, UInt64.toNat_ofNat_of_lt' hfit]

/-- An entry counts more than all of them only where they do not fit 64 bits. -/
theorem size_le_of_used_lt (h : CarriesAlong s order l) {n m : Nat} {e : String × α}
    (hm : l[m]? = some e) (hn : n ≤ Recency.entryBytes e) (hlt : s.used < UInt64.ofNat n) :
    UInt64.size ≤ l.bytes := by
  by_contra hfit
  have hbytes := Recency.bytes_eraseIdx hm
  rw [UInt64.lt_iff_toNat_lt, h.toNat_used (by omega), UInt64.toNat_ofNat_of_lt' (by omega)] at hlt
  omega

/-! ### Moving and removing entries -/

/-- Only links differ, so the same entries stand in the order of the new links. -/
theorem relink (h : CarriesAlong s order l) {s' : Store α} (hsame : Relinked s s') {m i : Nat}
    {e : String × α} (hm : order[m]? = some i) (he : l[m]? = some e)
    (hlinked : s'.Linked (i :: order.eraseIdx m)) :
    CarriesAlong s' (i :: order.eraseIdx m) (e :: l.eraseIdx m) := by
  refine ⟨hlinked, ?_, ?_, ?_, ?_⟩
  · intro j hj
    rw [hsame.size] at hj
    by_cases hji : j = i
    · exact List.mem_cons.mpr (.inl hji)
    · exact List.mem_cons_of_mem _ ((mem_eraseIdx_iff h.linked.nodup hm).mpr ⟨h.full j hj, hji⟩)
  · rw [hsame.content, List.map_cons, List.map_cons, h.content_at hm, he, ← List.eraseIdx_map,
      h.entries, List.eraseIdx_map]
  · intro key j
    rw [hsame.content, hsame.index]
    exact h.index key j
  · rw [hsame.used, h.used, Recency.bytes_cons, Recency.bytes_eraseIdx he]

theorem renew_spec (h : CarriesAlong s order l) {m i : Nat} {e : String × α}
    (hm : order[m]? = some i) (he : l[m]? = some e) :
    ∃ s', s.renew i = .ok s' ∧ s'.budget = s.budget ∧
      CarriesAlong s' (i :: order.eraseIdx m) (e :: l.eraseIdx m) := by
  obtain ⟨s', hok, hsame, hlinked⟩ := h.linked.renew_spec hm
  exact ⟨s', hok, hsame.budget, h.relink hsame hm he hlinked⟩

end CarriesAlong

/-! ### The hole that a removed entry leaves -/

section Hole

omit [ByteSize α]

variable {s : Store α} {order : List Nat} {i : Nat}

theorem content_dropSlot (hi : i < s.slots.size) (j : Nat) :
    (s.dropSlot i).content[j]? =
      if j < s.slots.size - 1 then
        if j = i then s.content[s.slots.size - 1]? else s.content[j]?
      else none := by
  rw [content, Array.getElem?_map, getElem?_dropSlot hi, content, Array.getElem?_map,
    Array.getElem?_map]
  split
  · split <;> rfl
  · rfl

/-- Every entry but the removed one stands at its new name. -/
theorem content_renamed (hi : i < s.slots.size) {j : Nat} (hj : j < s.slots.size) (hji : j ≠ i) :
    (s.dropSlot i).content[renamed (s.slots.size - 1) i j]? = s.content[j]? := by
  rw [content_dropSlot hi, renamed]
  by_cases hjl : j = s.slots.size - 1
  · rw [if_pos hjl, if_pos (by omega), if_pos rfl, hjl]
  · rw [if_neg hjl, if_pos (by omega), if_neg hji]

/-- What stands there once the hole is filled stood elsewhere than in the hole. -/
theorem content_of_dropSlot (hi : i < s.slots.size) {j : Nat} {entry : String × α}
    (hj : (s.dropSlot i).content[j]? = some entry) : ∃ k ≠ i, s.content[k]? = some entry := by
  rw [content_dropSlot hi] at hj
  split at hj
  · split at hj
    · exact ⟨_, by omega, hj⟩
    · next hji => exact ⟨j, hji, hj⟩
  · cases hj

/-- What fills the hole at `i`: the links know the new name of the last slot, and so does the
index. -/
structure Vacated (s s' : Store α) (order : List Nat) (i : Nat) : Prop where
  linked : s'.Linked (order.map (renamed (s.slots.size - 1) i))
  content : s'.content = (s.dropSlot i).content
  moved : ∀ key v, s.content[s.slots.size - 1]? = some (key, v) → i ≠ s.slots.size - 1 →
    s'.index[key]? = some i
  others : ∀ key, (∀ v, s.content[s.slots.size - 1]? ≠ some (key, v)) →
    s'.index[key]? = s.index[key]?
  used : s'.used = s.used
  budget : s'.budget = s.budget

/-- **Filling the hole** at `i`, which stands outside the order, with the last slot. -/
theorem vacate_spec (h : s.Linked order) (hi : i < s.slots.size) (hnot : i ∉ order)
    (hfull : ∀ j < s.slots.size, j ≠ i → j ∈ order) :
    ∃ s', (if i < (s.dropSlot i).slots.size then (s.dropSlot i).readdress i
        else pure (s.dropSlot i)) = .ok s' ∧ Vacated s s' order i := by
  rw [size_dropSlot]
  by_cases hlt : i < s.slots.size - 1
  · obtain ⟨m, hm⟩ := List.getElem?_of_mem (hfull (s.slots.size - 1) (by omega) (by omega))
    obtain ⟨e, s', he, hsame, hlinked, hok⟩ := h.readdress_spec hlt hnot hm
    have hlast : s.content[s.slots.size - 1]? = some (e.key, e.value) :=
      content_eq_some.mpr ⟨e, he, rfl⟩
    refine ⟨{ s' with index := s'.index.insert e.key i }, by rw [if_pos hlt, hok],
      ⟨hlinked.nodup, hlinked.inside, hlinked.joined⟩, hsame.content, ?_,
      ?_, hsame.used, hsame.budget⟩
    · intro key v hv _
      rw [hlast] at hv
      cases hv
      exact Std.HashMap.getElem?_insert_self
    · intro key hkey
      have hke : e.key ≠ key := fun heq => hkey e.value (heq ▸ hlast)
      show (s'.index.insert e.key i)[key]? = s.index[key]?
      rw [Std.HashMap.getElem?_insert, if_neg (by simpa using hke), hsame.index]
      rfl
  · -- the last slot is the removed one, and no other one moves
    have hlast : i = s.slots.size - 1 := by omega
    have hnames : order.map (renamed (s.slots.size - 1) i) = order := by
      conv_rhs => rw [← List.map_id order]
      apply List.map_congr_left
      intro j _
      rw [renamed, id]
      split <;> omega
    refine ⟨s.dropSlot i, by rw [if_neg hlt]; rfl, ?_, rfl, fun _ _ _ hne => absurd hlast hne,
      fun _ _ => rfl, rfl, rfl⟩
    rw [hnames]
    refine ⟨h.nodup, ?_, ?_⟩
    · intro j hj
      have hjlt := h.inside j hj
      have hji : j ≠ i := fun heq => hnot (heq ▸ hj)
      rw [size_dropSlot]
      omega
    · intro k hk
      have hne : order[k]? ≠ some i := fun heq => hnot (List.mem_of_getElem? heq)
      have hneb : before order k ≠ some i := fun heq => hnot (mem_of_before heq)
      exact Linked.joined_dropSlot hi ⟨hneb, hlast ▸ hneb⟩ ⟨hne, hlast ▸ hne⟩ (h.joined k hk)

namespace Vacated

variable {s' : Store α}

theorem size (h : Vacated s s' order i) : s'.slots.size = s.slots.size - 1 := by
  rw [← size_content, h.content, size_content, size_dropSlot]

/-- The index leads each key that stays to its entry, if it did so before. -/
theorem index_iff (h : Vacated s s' order i) (hi : i < s.slots.size)
    (hindex : ∀ (key : String) (j : Nat),
      s.index[key]? = some j ↔ ∃ v, s.content[j]? = some (key, v))
    {key : String} (hkey : ∀ v, s.content[i]? ≠ some (key, v)) (j : Nat) :
    s'.index[key]? = some j ↔ ∃ v, s'.content[j]? = some (key, v) := by
  rw [h.content, content_dropSlot hi]
  by_cases hmoved : ∃ v, s.content[s.slots.size - 1]? = some (key, v)
  · obtain ⟨v, hv⟩ := hmoved
    have hil : i ≠ s.slots.size - 1 := fun heq => hkey v (heq ▸ hv)
    rw [h.moved key v hv hil]
    constructor
    · intro hij
      cases hij
      exact ⟨v, by rw [if_pos (by omega), if_pos rfl, hv]⟩
    · rintro ⟨w, hw⟩
      split at hw
      · next hjlt =>
        split at hw
        · next hji => rw [hji]
        · -- the key led to the last slot alone
          have h1 := (hindex key j).mpr ⟨w, hw⟩
          have h2 := (hindex key _).mpr ⟨v, hv⟩
          have := Option.some.inj (h1.symm.trans h2)
          omega
      · cases hw
  · have hlast : ∀ v, s.content[s.slots.size - 1]? ≠ some (key, v) := fun v hv => hmoved ⟨v, hv⟩
    rw [h.others key hlast]
    refine (hindex key j).trans (exists_congr ?_)
    intro v
    constructor
    · intro hj
      have hji : j ≠ i := fun heq => hkey v (heq ▸ hj)
      have hjl : j ≠ s.slots.size - 1 := fun heq => hlast v (heq ▸ hj)
      have hjlt : j < s.slots.size := by
        rw [← size_content]
        exact (Array.getElem?_eq_some_iff.mp hj).1
      rw [if_pos (by omega), if_neg hji, hj]
    · intro hj
      split at hj
      · split at hj
        · exact absurd hj (hlast v)
        · exact hj
      · cases hj

/-- Once the key of the hole is gone, the index leads each key to its entry again. -/
theorem index_erase_iff (h : Vacated s s' order i) (hi : i < s.slots.size)
    (hindex : ∀ (key : String) (j : Nat),
      s.index[key]? = some j ↔ ∃ v, s.content[j]? = some (key, v))
    {key : String} {v : α} (hhole : s.content[i]? = some (key, v)) (k : String) (j : Nat) :
    (s'.index.erase key)[k]? = some j ↔ ∃ w, s'.content[j]? = some (k, w) := by
  rw [Std.HashMap.getElem?_erase]
  by_cases hk : key = k
  · subst hk
    simp only [beq_self_eq_true, if_true]
    -- the key led to the hole alone
    refine ⟨fun hnone => absurd hnone (by simp), ?_⟩
    rintro ⟨w, hw⟩
    rw [h.content] at hw
    obtain ⟨j', hne, hj'⟩ := content_of_dropSlot hi hw
    have h1 := (hindex key j').mpr ⟨w, hj'⟩
    have h2 := (hindex key i).mpr ⟨v, hhole⟩
    exact absurd (Option.some.inj (h1.symm.trans h2)) hne
  · rw [if_neg (by simpa using hk)]
    apply h.index_iff hi hindex
    intro w hw
    rw [hhole] at hw
    exact hk (congrArg Prod.fst (Option.some.inj hw))

/-- The new names are those of all slots. -/
theorem full (h : Vacated s s' order i) (hfull : ∀ j < s.slots.size, j ≠ i → j ∈ order) :
    ∀ j < s'.slots.size, j ∈ order.map (renamed (s.slots.size - 1) i) := by
  intro j hj
  rw [h.size] at hj
  by_cases hji : j = i
  · exact List.mem_map.mpr ⟨s.slots.size - 1, hfull _ (by omega) (by omega),
      by rw [renamed, if_pos rfl, hji]⟩
  · exact List.mem_map.mpr ⟨j, hfull j (by omega) hji, by rw [renamed, if_neg (by omega)]⟩

/-- The same entries stand in the order of the new names. -/
theorem entries (h : Vacated s s' order i) (hi : i < s.slots.size) (hnot : i ∉ order)
    (hinside : ∀ j ∈ order, j < s.slots.size) :
    (order.map (renamed (s.slots.size - 1) i)).map (s'.content[·]?) =
      order.map (s.content[·]?) := by
  rw [List.map_map, h.content]
  apply List.map_congr_left
  intro j hj
  exact content_renamed hi (hinside j hj) fun heq => hnot (heq ▸ hj)

end Vacated

/-- What is taken is the entry of the slot, once the slot has left the order and its hole is
filled. -/
theorem take_eq [ByteSize α] (counting : Counting) {s₁ s₂ : Store α} {e : Slot α}
    (hslot : s.slots[i]? = some e) (hunlink : s.unlink i = .ok s₁)
    (hvacate : (if i < (s₁.dropSlot i).slots.size then (s₁.dropSlot i).readdress i
      else pure (s₁.dropSlot i)) = .ok s₂) :
    s.take i counting = (counting.discount s₂.used (entrySize e.key e.value)).map fun used =>
      (e, { s₂ with index := s₂.index.erase e.key, used := used }) := by
  simp only [take, slot, hslot, bind, Except.bind, hunlink]
  by_cases hin : i < (s₁.dropSlot i).slots.size
  · rw [if_pos hin] at hvacate ⊢
    rw [hvacate]
    dsimp only
    cases counting.discount s₂.used (entrySize e.key e.value) <;> rfl
  · rw [if_neg hin] at hvacate ⊢
    obtain rfl : s₁.dropSlot i = s₂ := Except.ok.inj hvacate
    dsimp only [pure, Except.pure]
    cases counting.discount (s₁.dropSlot i).used (entrySize e.key e.value) <;> rfl

end Hole

namespace CarriesAlong

variable {s : Store α} {order : List Nat} {l : Recency α}

/-- **Taking an entry out** of the store takes it out of the list, wherever it stands. The bytes
that it counts are there to be taken away, unless all bytes are more than 64 bits can count; a count
that wraps goes on even then. -/
theorem take_spec (h : CarriesAlong s order l) {m i : Nat} {key : String} {v : α}
    (hm : order[m]? = some i) (he : l[m]? = some (key, v)) (counting : Counting) :
    (s.take i counting = .error .underflow ∧ Overflows counting l) ∨
      ∃ e s', s.take i counting = .ok (e, s') ∧ entryOf e = (key, v) ∧ s'.budget = s.budget ∧
        Carries s' (l.eraseIdx m) := by
  have hi : i < s.slots.size := h.linked.inside i (List.mem_of_getElem? hm)
  have hcontent : s.content[i]? = some (key, v) := (h.content_at hm).trans he
  obtain ⟨e, hslot, hentry⟩ := content_eq_some.mp hcontent
  obtain ⟨s₁, hok₁, hsame, hlinked₁⟩ := h.linked.unlink_spec hm
  have hi₁ : i < s₁.slots.size := hsame.size ▸ hi
  have hnot : i ∉ order.eraseIdx m := fun hmem =>
    ((mem_eraseIdx_iff h.linked.nodup hm).mp hmem).2 rfl
  have hfull₁ : ∀ j < s₁.slots.size, j ≠ i → j ∈ order.eraseIdx m := by
    intro j hj hji
    rw [hsame.size] at hj
    exact (mem_eraseIdx_iff h.linked.nodup hm).mpr ⟨h.full j hj, hji⟩
  have hindex₁ : ∀ (key : String) (j : Nat),
      s₁.index[key]? = some j ↔ ∃ v, s₁.content[j]? = some (key, v) := by
    rw [hsame.index, hsame.content]
    exact h.index
  obtain ⟨s₂, hok₂, hvac⟩ := vacate_spec hlinked₁ hi₁ hnot hfull₁
  have hused : s₂.used = s.used := hvac.used.trans hsame.used
  obtain ⟨rfl, rfl⟩ : e.key = key ∧ e.value = v := Prod.mk.inj hentry
  have htake := take_eq counting hslot hok₁ hok₂
  rw [hused] at htake
  rcases counting.discount_cases s.used (entrySize e.key e.value) with
    ⟨rfl, hlt, hfault⟩ | hdiscount
  · exact .inl ⟨by rw [htake, hfault]; rfl, rfl, h.size_le_of_used_lt he (Nat.le_refl _) hlt⟩
  · rw [hdiscount] at htake
    refine .inr ⟨e, _, htake, rfl, hvac.budget.trans hsame.budget,
      (order.eraseIdx m).map (renamed (s₁.slots.size - 1) i),
      ⟨hvac.linked.nodup, hvac.linked.inside, hvac.linked.joined⟩, hvac.full hfull₁, ?_, ?_, ?_⟩
    · refine (hvac.entries hi₁ hnot hlinked₁.inside).trans ?_
      rw [hsame.content, ← List.eraseIdx_map, h.entries, List.eraseIdx_map]
    · exact hvac.index_erase_iff hi₁ hindex₁ (hsame.content ▸ hcontent)
    · show s.used - entrySize e.key e.value = UInt64.ofNat (Recency.bytes (l.eraseIdx m))
      rw [h.used, ← Recency.bytes_eraseIdx he, Nat.add_comm, UInt64.ofNat_add]
      exact UInt64.add_sub_cancel _ _

/-! ### Putting entries in -/

/-- The newest entry gets another value, and the bytes in use follow. -/
theorem replace_spec {key : String} {v : α} {i : Nat}
    (h : CarriesAlong s (i :: order) ((key, v) :: l)) (value : α) :
    CarriesAlong { s with
      slots := s.slots.modify i fun e => { e with value := value }
      used := s.used - UInt64.ofNat (ByteSize.byteSize v) + UInt64.ofNat (ByteSize.byteSize value) }
      (i :: order) ((key, value) :: l) := by
  have hi : i < s.slots.size := h.linked.inside i List.mem_cons_self
  have hcontent : s.content[i]? = some (key, v) := h.content_at (m := 0) rfl
  obtain ⟨hnot, -⟩ := List.nodup_cons.mp h.linked.nodup
  obtain ⟨e, he, hentry⟩ := content_eq_some.mp hcontent
  have hnew : ∀ j, ((s.slots.modify i fun e => { e with value := value }).map entryOf)[j]? =
      if i = j then some (key, value) else s.content[j]? := by
    intro j
    rw [Array.getElem?_map, Array.getElem?_modify, content, Array.getElem?_map]
    split
    · next hij =>
      subst hij
      rw [he]
      exact congrArg (fun k => some (k, value)) (congrArg Prod.fst hentry)
    · rfl
  refine ⟨h.linked.congr ?_ rfl rfl, ?_, ?_, ?_, ?_⟩
  · intro j e' he'
    show ∃ e'', (s.slots.modify i _)[j]? = some e'' ∧ _
    rw [Array.getElem?_modify, he']
    split
    · exact ⟨_, rfl, rfl, rfl⟩
    · exact ⟨e', rfl, rfl, rfl⟩
  · intro j hj
    exact h.full j (by simpa using hj)
  · have hrest := h.entries
    rw [List.map_cons, List.map_cons, List.cons.injEq] at hrest ⊢
    refine ⟨by rw [content, hnew, if_pos rfl], ?_⟩
    rw [← hrest.2]
    apply List.map_congr_left
    intro j hj
    have hij : i ≠ j := fun heq => hnot (heq ▸ hj)
    rw [content, hnew, if_neg hij]
  · intro k j
    rw [content, hnew]
    apply (h.index k j).trans
    split
    · next hij =>
      subst hij
      rw [hcontent]
      constructor
      · rintro ⟨w, hw⟩
        exact ⟨value, by rw [(Prod.mk.inj (Option.some.inj hw)).1]⟩
      · rintro ⟨w, hw⟩
        exact ⟨v, by rw [(Prod.mk.inj (Option.some.inj hw)).1]⟩
    · rfl
  · show s.used - _ + _ = _
    rw [h.used, Recency.bytes_cons, Recency.bytes_cons, Recency.entryBytes, Recency.entryBytes]
    simp only [UInt64.ofNat_add]
    grind

/-- A key that is new leads to a new slot, and every other key where it led before. -/
theorem index_insert_iff (h : CarriesAlong s order l) {key : String} (hkey : s.index[key]? = none)
    (value : α) (k : String) (j : Nat) :
    (s.index.insert key s.slots.size)[k]? = some j ↔
      ∃ w, (if j = s.slots.size then some (key, value) else s.content[j]?) = some (k, w) := by
  rw [Std.HashMap.getElem?_insert]
  by_cases hk : key = k
  · subst hk
    simp only [beq_self_eq_true, if_true]
    constructor
    · intro heq
      exact ⟨value, by rw [if_pos (Option.some.inj heq).symm]⟩
    · rintro ⟨w, hw⟩
      split at hw
      · next hj => rw [hj]
      · rw [(h.index key j).mpr ⟨w, hw⟩] at hkey
        cases hkey
  · rw [if_neg (by simpa using hk)]
    refine (h.index k j).trans (exists_congr fun w => ?_)
    split
    · next hj =>
      subst hj
      constructor
      · intro hw
        have hlt := (Array.getElem?_eq_some_iff.mp hw).1
        rw [size_content] at hlt
        exact absurd hlt (Nat.lt_irrefl _)
      · intro hw
        exact absurd (congrArg Prod.fst (Option.some.inj hw)) hk
    · rfl

/-- A new entry takes a new slot before the newest one. -/
theorem push_spec (h : CarriesAlong s order l) {key : String} (hkey : s.index[key]? = none)
    (value : α) :
    ∃ s', ({ s with
        slots := s.slots.push ⟨key, value, none, none⟩
        index := s.index.insert key s.slots.size } : Store α).linkNewest s.slots.size = .ok s' ∧
      s'.budget = s.budget ∧ s'.used = s.used ∧
      CarriesAlong { s' with used := s'.used + entrySize key value } (s.slots.size :: order)
        ((key, value) :: l) := by
  have hlinked : ({ s with
      slots := s.slots.push ⟨key, value, none, none⟩
      index := s.index.insert key s.slots.size } : Store α).Linked order := by
    refine h.linked.congr (fun j e he => ⟨e, ?_, rfl, rfl⟩) rfl rfl
    have hjlt : j < s.slots.size := (Array.getElem?_eq_some_iff.mp he).1
    rw [Array.getElem?_push, if_neg (by omega), he]
  have hnot : s.slots.size ∉ order := fun hmem =>
    Nat.lt_irrefl _ (h.linked.inside _ hmem)
  obtain ⟨s', hok, hsame, hlinked'⟩ := hlinked.linkNewest_spec (by simp) hnot
  have hcontent : ∀ j, s'.content[j]? =
      if j = s.slots.size then some (key, value) else s.content[j]? := by
    intro j
    rw [hsame.content]
    show ((s.slots.push ⟨key, value, none, none⟩).map entryOf)[j]? = _
    rw [Array.getElem?_map, Array.getElem?_push, content, Array.getElem?_map]
    split <;> rfl
  refine ⟨s', hok, hsame.budget, hsame.used,
    ⟨hlinked'.nodup, hlinked'.inside, hlinked'.joined⟩, ?_, ?_, ?_, ?_⟩
  · intro j hj
    have hjle : j < s.slots.size + 1 := by
      have hsize : s'.slots.size = s.slots.size + 1 := hsame.size.trans (Array.size_push _)
      rw [← hsize]
      exact hj
    by_cases hjs : j = s.slots.size
    · exact List.mem_cons.mpr (.inl hjs)
    · exact List.mem_cons_of_mem _ (h.full j (by omega))
  · rw [List.map_cons, List.map_cons, List.cons.injEq]
    refine ⟨(hcontent _).trans (if_pos rfl), ?_⟩
    rw [← h.entries]
    apply List.map_congr_left
    intro j hj
    have hjs : j ≠ s.slots.size := fun heq => hnot (heq ▸ hj)
    exact (hcontent j).trans (if_neg hjs)
  · intro k j
    show s'.index[k]? = some j ↔ ∃ w, s'.content[j]? = some (k, w)
    rw [hcontent, hsame.index]
    exact h.index_insert_iff hkey value k j
  · show s'.used + _ = _
    rw [hsame.used, Recency.bytes_cons, UInt64.ofNat_add]
    show s.used + _ = _
    rw [h.used, UInt64.add_comm]
    rfl

end CarriesAlong

end RingCache.Lru

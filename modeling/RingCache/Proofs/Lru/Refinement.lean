import Mathlib.Data.List.Basic
import Mathlib.Tactic.Common
import RingCache.Proofs.Lru.Carries

/-!
# The slot store refines the recency list

Every operation on a store that carries a list answers what the list says, pushes out what the list
says, and leaves a store that carries the list it leaves (`run_spec`); and what one can read off a
store is what stands in the list (`Carries.toList_eq`, `Carries.size_eq`, `Carries.toNat_used`). A walk
along the links meets the slots of the list and then ends (`Carries.walk`), so that reading all entries
needs no limit. So a store that begins empty goes the way of a list that begins empty, over any
operations whose entries together fit 64 bits (`trail_shows`).

Without that bound, an `add` whose count is checked may be refused with the fault `underflow`. One
whose count wraps still leaves some prefix of the list with the new entry in front (`add_spec`).
-/

namespace RingCache.Lru

open Store Recency

variable {α : Type}

/-! ### Reading a store -/

namespace Store

/-- From a place on towards the oldest slot, one meets these slots and then comes to the end. -/
inductive Walk (s : Store α) : Option Nat → List Nat → Prop where
  | nil : Walk s none []
  | cons {i : Nat} {e : Slot α} {rest : List Nat} (he : s.slots[i]? = some e)
      (h : Walk s e.older rest) : Walk s (some i) (i :: rest)

/-- The walk from a place of the order meets the rest of the order. -/
theorem Linked.walk {s : Store α} {order : List Nat} (h : s.Linked order) (k : Nat) :
    s.Walk order[k]? (order.drop k) := by
  by_cases hk : k < order.length
  · obtain ⟨e, he, -, holder⟩ := h.slot_at (List.getElem?_eq_getElem hk)
    have hrest := h.walk (k + 1)
    rw [← holder] at hrest
    rw [List.getElem?_eq_getElem hk, List.drop_eq_getElem_cons hk]
    exact .cons he hrest
  · rw [List.getElem?_eq_none (by omega), List.drop_eq_nil_of_le (by omega)]
    exact .nil
termination_by order.length - k

/-- A walk that may stop early reads the entries of the slots that it meets. -/
theorem Walk.walk_eq {s : Store α} {place : Option Nat} {order : List Nat} (h : s.Walk place order)
    (limit : Nat) : (s.walk limit place).map some = (order.take limit).map (s.content[·]?) := by
  induction h generalizing limit with
  | nil => cases limit <;> simp [walk]
  | cons he h ih =>
    cases limit with
    | zero => simp [walk]
    | succ limit =>
      have hcontent := content_eq_some.mpr ⟨_, he, rfl⟩
      rw [List.take_succ_cons, List.map_cons, hcontent, ← ih]
      simp only [walk, he, List.map_cons]
      rfl

end Store

/-- Pushes out the entry of `key`, on a count of either kind. -/
def Store.removeBy [ByteSize α] (counting : Counting) (s : Store α) (key : String) :
    Except Fault (Outcome α (Option α)) :=
  match s.index[key]? with
  | none => .ok ⟨none, [], s⟩
  | some i => do
    let (e, s) ← s.take i counting
    pure ⟨some e.value, [(e.key, e.value)], s⟩

theorem Store.removeBy_checked [ByteSize α] (s : Store α) (key : String) :
    s.removeBy .checked key = s.remove key := rfl

namespace Carries

variable [ByteSize α] {s : Store α} {l : Recency α}

theorem size_eq (h : Carries s l) : s.size = l.length :=
  h.elim fun _ h => h.size_eq

theorem isEmpty_eq (h : Carries s l) : s.isEmpty = l.isEmpty := by
  have hsize : s.slots.size = l.length := h.size_eq
  rw [isEmpty, Array.isEmpty, hsize]
  cases l <;> rfl

theorem nodup_keys (h : Carries s l) : l.keys.Nodup :=
  h.elim fun _ h => h.nodup_keys

theorem toNat_used (h : Carries s l) (hfit : l.bytes < UInt64.size) : s.used.toNat = l.bytes :=
  h.elim fun _ h => h.toNat_used hfit

/-- The count of the bytes is exact up to a multiple of `2 ^ 64`. -/
theorem used_eq (h : Carries s l) : s.used = UInt64.ofNat l.bytes :=
  h.elim fun _ h => h.used

/-- From the newest slot on one meets the slots of the list, and then comes to the end. -/
theorem walk (h : Carries s l) :
    ∃ order, s.Walk s.newest order ∧ order.map (s.content[·]?) = l.map some := by
  obtain ⟨order, h⟩ := h
  exact ⟨order, h.linked.newest_eq ▸ h.linked.walk 0, h.entries⟩

/-- **The entries of a store** from the newest to the oldest are those of its list. -/
theorem toList_eq (h : Carries s l) : s.toList = l := by
  obtain ⟨order, hwalk, hentries⟩ := h.walk
  have hlength : order.length = s.slots.size := by
    have hlength := congrArg List.length hentries
    rw [List.length_map, List.length_map] at hlength
    exact hlength.trans h.size_eq.symm
  have hmap := hwalk.walk_eq s.slots.size
  rw [List.take_of_length_le (Nat.le_of_eq hlength), hentries] at hmap
  exact List.map_injective_iff.mpr (Option.some_injective _) hmap

/-! ### The operations -/

theorem get_spec (h : Carries s l) (key : String) :
    ∃ s', s.get key = .ok ⟨l.lookup key, [], s'⟩ ∧ s'.budget = s.budget ∧
      Carries s' (step s.budget l (.get key)).entries := by
  obtain ⟨order, h⟩ := h
  cases hi : s.index[key]? with
  | none =>
    have hlookup := lookup_eq_none (h.index_eq_none.mp hi)
    refine ⟨s, by simp only [Store.get, hi, hlookup], rfl, ?_⟩
    simp only [step, hlookup]
    exact ⟨order, h⟩
  | some i =>
    obtain ⟨m, v, hm, hl⟩ := h.find hi
    have hlookup := lookup_eq_some h.nodup_keys hl
    obtain ⟨s', hok, hbudget, h'⟩ := h.renew_spec hm hl
    obtain ⟨e, he, hentry⟩ := content_eq_some.mp (h'.content_at (m := 0) rfl)
    obtain rfl : e.value = v := congrArg Prod.snd hentry
    refine ⟨s', ?_, hbudget, ?_⟩
    · simp only [Store.get, hi, hok, bind, Except.bind, slot, he, hlookup]
      rfl
    · simp only [step, hlookup]
      rw [without_eq_eraseIdx h.nodup_keys hl]
      exact ⟨_, h'⟩

theorem peek_eq (h : Carries s l) (key : String) : s.peek key = .ok (l.lookup key) := by
  obtain ⟨order, h⟩ := h
  cases hi : s.index[key]? with
  | none => simp only [peek, hi, lookup_eq_none (h.index_eq_none.mp hi)]
  | some i =>
    obtain ⟨m, v, hm, hl⟩ := h.find hi
    obtain ⟨e, he, hentry⟩ := content_eq_some.mp ((h.content_at hm).trans hl)
    obtain rfl : e.value = v := congrArg Prod.snd hentry
    simp only [peek, hi, bind, Except.bind, slot, he, lookup_eq_some h.nodup_keys hl]
    rfl

theorem contains_eq (h : Carries s l) (key : String) :
    s.contains key = (l.lookup key).isSome := by
  obtain ⟨order, h⟩ := h
  rw [Store.contains, Std.HashMap.contains_eq_isSome_getElem?]
  cases hi : s.index[key]? with
  | none =>
    rw [lookup_eq_none (h.index_eq_none.mp hi)]
    rfl
  | some i =>
    obtain ⟨m, v, hm, hl⟩ := h.find hi
    rw [lookup_eq_some h.nodup_keys hl]
    rfl

/-- **Pushing out the oldest entry** takes the last entry of the list away. -/
theorem removeOldest_spec (h : Carries s l) (counting : Counting) :
    (s.removeOldest counting = .error .underflow ∧ Overflows counting l) ∨
      ∃ s', s.removeOldest counting = .ok ⟨l.getLast?, l.getLast?.toList, s'⟩ ∧ s'.budget = s.budget ∧
        Carries s' l.dropLast := by
  obtain ⟨order, h⟩ := h
  cases hn : order.length with
  | zero =>
    obtain rfl : l = [] := List.length_eq_zero_iff.mp (h.length_eq.symm.trans hn)
    have holdest : s.oldest = none := by rw [h.linked.oldest_eq, hn, before]
    exact .inr ⟨s, by rw [removeOldest, holdest]; rfl, rfl, order, h⟩
  | succ n =>
    have hlt : n < order.length := by omega
    have hltl : n < l.length := by rwa [← h.length_eq]
    have hm : order[n]? = some order[n] := List.getElem?_eq_getElem hlt
    have holdest : s.oldest = some order[n] := by rw [h.linked.oldest_eq, hn, before, hm]
    obtain ⟨⟨key, v⟩, hl⟩ : ∃ e, l[n]? = some e := ⟨_, List.getElem?_eq_getElem hltl⟩
    have hlast : l.getLast? = some (key, v) := by
      rw [List.getLast?_eq_getElem?, ← h.length_eq, hn, Nat.add_sub_cancel, hl]
    have hdrop : l.dropLast = l.eraseIdx n := by
      rw [← List.eraseIdx_length_sub_one, ← h.length_eq, hn, Nat.add_sub_cancel]
    rcases h.take_spec hm hl counting with ⟨herr, hbig⟩ | ⟨e, s', hok, hentry, hbudget, h'⟩
    · exact .inl ⟨by simp only [removeOldest, holdest, herr]; rfl, hbig⟩
    · obtain ⟨rfl, rfl⟩ : e.key = key ∧ e.value = v := Prod.mk.inj hentry
      refine .inr ⟨s', ?_, hbudget, hdrop ▸ h'⟩
      simp only [removeOldest, holdest, hok, hlast, bind, Except.bind]
      rfl

/-- **Pushing out a key** takes its entry away, wherever it stands. -/
theorem removeBy_spec (h : Carries s l) (counting : Counting) (key : String) :
    (s.removeBy counting key = .error .underflow ∧ Overflows counting l) ∨
      ∃ s', s.removeBy counting key =
          .ok ⟨l.lookup key, ((l.lookup key).map (key, ·)).toList, s'⟩ ∧
        s'.budget = s.budget ∧ Carries s' (without l key) := by
  obtain ⟨order, h⟩ := h
  cases hi : s.index[key]? with
  | none =>
    have hnot := h.index_eq_none.mp hi
    refine .inr ⟨s, by simp only [Store.removeBy, hi, lookup_eq_none hnot]; rfl, rfl, ?_⟩
    rw [without_of_not_mem hnot]
    exact ⟨order, h⟩
  | some i =>
    obtain ⟨m, v, hm, hl⟩ := h.find hi
    rcases h.take_spec hm hl counting with ⟨herr, hbig⟩ | ⟨e, s', hok, hentry, hbudget, h'⟩
    · exact .inl ⟨by simp only [Store.removeBy, hi, herr]; rfl, hbig⟩
    · obtain ⟨rfl, rfl⟩ : e.key = key ∧ e.value = v := Prod.mk.inj hentry
      refine .inr ⟨s', ?_, hbudget, ?_⟩
      · simp only [Store.removeBy, hi, hok, bind, Except.bind, lookup_eq_some h.nodup_keys hl]
        rfl
      · rw [without_eq_eraseIdx h.nodup_keys hl]
        exact h'

theorem remove_spec (h : Carries s l) (key : String) :
    (s.remove key = .error .underflow ∧ UInt64.size ≤ l.bytes) ∨
      ∃ s', s.remove key = .ok ⟨l.lookup key, ((l.lookup key).map (key, ·)).toList, s'⟩ ∧
        s'.budget = s.budget ∧ Carries s' (without l key) := by
  rw [← removeBy_checked]
  rcases h.removeBy_spec .checked key with ⟨herr, -, hbig⟩ | hok
  · exact .inl ⟨herr, hbig⟩
  · exact .inr hok

/-- **Putting an entry in** puts it in front of the list, in the place of any older entry of its
key. -/
theorem put_spec (h : Carries s l) (key : String) (value : α) (counting : Counting) :
    (s.put key value counting = .error .underflow ∧ Overflows counting l) ∨
      ∃ s', s.put key value counting = .ok s' ∧ s'.budget = s.budget ∧
        Carries s' ((key, value) :: without l key) := by
  obtain ⟨order, h⟩ := h
  cases hi : s.index[key]? with
  | none =>
    obtain ⟨s', hok, hbudget, -, h'⟩ := h.push_spec hi value
    refine .inr ⟨{ s' with used := s'.used + entrySize key value }, ?_, hbudget, ?_⟩
    · simp only [put, hi, hok, bind, Except.bind]
      rfl
    · rw [without_of_not_mem (h.index_eq_none.mp hi)]
      exact ⟨_, h'⟩
  | some i =>
    obtain ⟨m, v, hm, hl⟩ := h.find hi
    obtain ⟨s₁, hok₁, hbudget, h₁⟩ := h.renew_spec hm hl
    obtain ⟨e, he, hentry⟩ := content_eq_some.mp (h₁.content_at (m := 0) rfl)
    obtain rfl : e.value = v := congrArg Prod.snd hentry
    have hi₁ : i < s₁.slots.size := h₁.linked.inside i List.mem_cons_self
    rcases counting.discount_cases s₁.used (UInt64.ofNat (ByteSize.byteSize e.value)) with
      ⟨rfl, hlt, hfault⟩ | hdiscount
    · refine .inl ⟨?_, rfl, ?_⟩
      · simp only [put, hi, hok₁, bind, Except.bind, slot, he, hfault]
      · have hbig := h₁.size_le_of_used_lt (m := 0) rfl (Nat.le_add_left _ _) hlt
        rwa [Recency.bytes_cons, Recency.bytes_eraseIdx hl] at hbig
    · refine .inr ⟨{ s₁ with
          slots := s₁.slots.modify i fun e => { e with value := value }
          used := s₁.used - UInt64.ofNat (ByteSize.byteSize e.value) +
            UInt64.ofNat (ByteSize.byteSize value) }, ?_, hbudget, ?_⟩
      · simp only [put, hi, hok₁, bind, Except.bind, slot, he, hdiscount, modifySlot, if_pos hi₁]
        rfl
      · rw [without_eq_eraseIdx h.nodup_keys hl]
        exact ⟨_, h₁.replace_spec value⟩

/-! ### Trimming to the budget -/

theorem overBudget_iff (h : Carries s l) (hfit : l.bytes < UInt64.size) :
    s.overBudget = true ↔ s.budget ≠ 0 ∧ s.budget.toNat < l.bytes := by
  rw [← h.toNat_used hfit, ← UInt64.lt_iff_toNat_lt]
  simp [overBudget]

/-- **Trimming** pushes out entries from the end of the list. It stops at the longest prefix that
fits, if the bytes can be counted. -/
theorem trim_spec (h : Carries s l) (counting : Counting) {rounds : Nat}
    (hrounds : l.length < rounds) :
    (s.trim counting rounds = .error .underflow ∧ Overflows counting l) ∨
      ∃ s' l', s.trim counting rounds = .ok ((l.drop l'.length).reverse, s') ∧ s'.budget = s.budget ∧
        Carries s' l' ∧ l' <+: l ∧ (l.bytes < UInt64.size → l' = kept s.budget l) := by
  induction rounds generalizing s l with
  | zero => exact absurd hrounds (Nat.not_lt_zero _)
  | succ rounds ih =>
    by_cases hover : s.overBudget = true
    · obtain rfl | ⟨front, last, rfl⟩ := List.eq_nil_or_concat l
      · have hfit : bytes ([] : Recency α) < UInt64.size := by
          rw [bytes_nil]
          decide
        exact absurd ((h.overBudget_iff hfit).mp hover).2 (Nat.not_lt_zero _)
      rw [List.concat_eq_append] at h hrounds ⊢
      have hbytes : bytes front ≤ bytes (front ++ [last]) := by
        rw [bytes_append]
        omega
      have hremove := h.removeOldest_spec counting
      rw [List.getLast?_concat, List.dropLast_concat] at hremove
      rcases hremove with ⟨herr, hbig⟩ | ⟨s₁, hok, hbudget, h₁⟩
      · exact .inl ⟨by simp only [trim, if_pos hover, herr]; rfl, hbig⟩
      have hfront : front.length < rounds := by
        rw [List.length_append, List.length_singleton] at hrounds
        omega
      rcases ih h₁ hfront with ⟨herr, hbig⟩ | ⟨s', l', hok', hbudget', h', hpre, hkept⟩
      · refine .inl ⟨?_, hbig.1, hbig.2.trans hbytes⟩
        simp only [trim, if_pos hover, hok, bind, Except.bind, herr]
      · refine .inr ⟨s', l', ?_, hbudget'.trans hbudget, h',
          hpre.trans (List.prefix_append _ _), ?_⟩
        · rw [List.drop_append_of_le_length hpre.length_le, List.reverse_concat]
          simp only [trim, if_pos hover, hok, bind, Except.bind, hok']
          rfl
        · intro hfit
          -- the last entry does not fit, so the same prefix is the longest one with it and without
          obtain ⟨hzero, hlt⟩ := (h.overBudget_iff hfit).mp hover
          rw [hkept (by omega), hbudget, kept, kept, if_neg hzero, if_neg hzero,
            fitting_dropLast hlt, List.dropLast_concat]
    · refine .inr ⟨s, l, ?_, rfl, h, List.prefix_rfl, ?_⟩
      · simp only [trim, if_neg hover, List.drop_length, List.reverse_nil]
      · intro hfit
        rw [h.overBudget_iff hfit] at hover
        rw [kept]
        split
        · rfl
        · next hzero => exact (fitting_of_le (not_lt.mp fun hlt => hover ⟨hzero, hlt⟩)).symm

/-- **Adding an entry** puts it in front of the list and pushes out entries from the end, down to
the longest prefix that fits, if the bytes can be counted. -/
theorem add_spec (h : Carries s l) (key : String) (value : α) (counting : Counting) :
    (s.add key value counting = .error .underflow ∧ counting = .checked ∧
        UInt64.size ≤ bytes l + entryBytes (key, value)) ∨
      ∃ s' l', s.add key value counting =
          .ok ⟨(), (((key, value) :: without l key).drop l'.length).reverse, s'⟩ ∧
        s'.budget = s.budget ∧ Carries s' l' ∧ l' <+: (key, value) :: without l key ∧
        (bytes l + entryBytes (key, value) < UInt64.size →
          l' = kept s.budget ((key, value) :: without l key)) := by
  have hbytes := bytes_renewed_le l key value
  rcases h.put_spec key value counting with ⟨herr, hbig⟩ | ⟨s₁, hok, hbudget, h₁⟩
  · exact .inl ⟨by simp only [Store.add, herr]; rfl, hbig.1, Nat.le_add_right_of_le hbig.2⟩
  have hrounds : ((key, value) :: without l key).length < s₁.slots.size + 1 := by
    have hsize : s₁.slots.size = _ := h₁.size_eq
    omega
  rcases h₁.trim_spec counting hrounds with
    ⟨herr, hbig⟩ | ⟨s', l', hok', hbudget', h', hpre, hkept⟩
  · refine .inl ⟨?_, hbig.1, hbig.2.trans hbytes⟩
    simp only [Store.add, hok, bind, Except.bind, herr]
  · refine .inr ⟨s', l', ?_, hbudget'.trans hbudget, h', hpre, ?_⟩
    · simp only [Store.add, hok, bind, Except.bind, hok']
      rfl
    · intro hfit
      rw [hkept (by omega), hbudget]

/-- Without a limit, adding pushes nothing out, even if the count of the bytes has wrapped. -/
theorem add_unbounded (h : Carries s l) (hbudget : s.budget = 0) (key : String) (value : α) :
    ∃ s', s.add key value .wrapping = .ok ⟨(), [], s'⟩ ∧ s'.budget = 0 ∧
      Carries s' ((key, value) :: without l key) := by
  rcases h.put_spec key value .wrapping with ⟨-, hcounting, -⟩ | ⟨s', hok, hsame, h'⟩
  · cases hcounting
  · have hnone : s'.overBudget = false := by
      rw [overBudget, hsame, hbudget]
      rfl
    refine ⟨s', ?_, hsame.trans hbudget, h'⟩
    simp only [Store.add, hok, bind, Except.bind, trim, hnone]
    rfl

end Carries

/-! ### One operation -/

variable [ByteSize α]

/-- The bytes that an operation may bring in. -/
def Op.bytes : Op α → Nat
  | .add key value => entryBytes (key, value)
  | _ => 0

namespace Recency

theorem bytes_step_le (budget : UInt64) (l : Recency α) (op : Op α) :
    bytes (step budget l op).entries ≤ bytes l + op.bytes := by
  cases op with
  | add key value =>
    have hkept := bytes_le_of_sublist (kept_isPrefix budget ((key, value) :: without l key)).sublist
    have hwithout := bytes_without_le l key
    rw [bytes_cons] at hkept
    simp only [step, Op.bytes]
    omega
  | get key =>
    simp only [step, Op.bytes]
    cases hv : l.lookup key with
    | none => exact Nat.le_refl _
    | some v =>
      -- the entry that moves to the front is one of those that it leaves
      obtain ⟨front, back, rfl, hfront⟩ := List.lookup_eq_some_iff.mp hv
      have hwithout : without (front ++ (key, v) :: back) key =
          without front key ++ without back key := by
        simp [without]
      have h1 := bytes_without_le front key
      have h2 := bytes_without_le back key
      rw [bytes_cons, hwithout, bytes_append, bytes_append, bytes_cons]
      omega
  | peek key | contains key => exact Nat.le_refl _
  | remove key => exact bytes_without_le l key
  | removeOldest => exact bytes_le_of_sublist (List.dropLast_sublist l)
  | clear => exact Nat.zero_le _

end Recency

/-- **One operation** on a store that carries a list: where the bytes can be counted, it answers
and pushes out what the list says, and carries the list that is left. -/
theorem Carries.run_spec {s : Store α} {l : Recency α} (h : Carries s l) (op : Op α)
    (hfit : bytes l + op.bytes < UInt64.size) :
    ∃ out, s.run op = .ok out ∧ out.result = (step s.budget l op).result ∧
      out.pushed = (step s.budget l op).pushed ∧ out.store.budget = s.budget ∧
      Carries out.store (step s.budget l op).entries := by
  cases op with
  | add key value =>
    rcases h.add_spec key value .checked with ⟨-, -, hbig⟩ | ⟨s', l', hok, hbudget, h', -, hkept⟩
    · exact absurd hfit (not_lt.mpr hbig)
    · obtain rfl := hkept hfit
      exact ⟨_, by simp only [Store.run, hok]; rfl, rfl, rfl, hbudget, h'⟩
  | get key =>
    obtain ⟨s', hok, hbudget, h'⟩ := h.get_spec key
    refine ⟨⟨.value (l.lookup key), [], s'⟩, ?_, ?_, ?_, hbudget, h'⟩
    · simp only [Store.run, hok]
      rfl
    · simp only [step]
      split <;> simp [*]
    · simp only [step]
      split <;> rfl
  | peek key =>
    refine ⟨⟨.value (l.lookup key), [], s⟩, ?_, rfl, rfl, rfl, h⟩
    simp only [Store.run, h.peek_eq]
    rfl
  | contains key =>
    refine ⟨⟨.found (s.contains key), [], s⟩, rfl, ?_, rfl, rfl, h⟩
    simp only [step, h.contains_eq]
  | remove key =>
    rcases h.remove_spec key with ⟨-, hbig⟩ | ⟨s', hok, hbudget, h'⟩
    · exact absurd (Nat.lt_of_le_of_lt (Nat.le_add_right _ _) hfit) (not_lt.mpr hbig)
    · exact ⟨_, by simp only [Store.run, hok]; rfl, rfl, rfl, hbudget, h'⟩
  | removeOldest =>
    rcases h.removeOldest_spec .checked with ⟨-, -, hbig⟩ | ⟨s', hok, hbudget, h'⟩
    · exact absurd (Nat.lt_of_le_of_lt (Nat.le_add_right _ _) hfit) (not_lt.mpr hbig)
    · exact ⟨_, by simp only [Store.run, hok]; rfl, rfl, rfl, hbudget, h'⟩
  | clear => exact ⟨_, rfl, rfl, rfl, rfl, carries_empty s.budget⟩

/-! ### Any operations in order -/

/-- Carries out operations in order. The answer is what each of them leaves. -/
def Store.trail (s : Store α) : List (Op α) → Except Fault (List (Outcome α (Answer α)))
  | [] => .ok []
  | op :: ops => do
    let out ← s.run op
    let outs ← out.store.trail ops
    pure (out :: outs)

/-- What an operation left of a store, seen from outside, is what it left of a list. -/
structure Shows (out : Outcome α (Answer α)) (r : Recency.Outcome α) : Prop where
  result : out.result = r.result
  pushed : out.pushed = r.pushed
  entries : out.store.toList = r.entries
  /-- from the newest slot on one meets these entries, and then comes to the end -/
  walk : ∃ order, out.store.Walk out.store.newest order ∧
    order.map (out.store.content[·]?) = r.entries.map some
  size : out.store.size = r.entries.length
  isEmpty : out.store.isEmpty = r.entries.isEmpty
  bytes : out.store.used.toNat = r.entries.bytes

theorem Carries.trail_spec {s : Store α} {l : Recency α} (h : Carries s l) (ops : List (Op α))
    (hfit : bytes l + (ops.map Op.bytes).sum < UInt64.size) :
    ∃ outs, s.trail ops = .ok outs ∧ List.Forall₂ Shows outs (Recency.trail s.budget l ops) ∧
      ∀ r ∈ Recency.trail s.budget l ops, r.entries.keys.Nodup := by
  induction ops generalizing s l with
  | nil => exact ⟨[], rfl, .nil, nofun⟩
  | cons op ops ih =>
    rw [List.map_cons, List.sum_cons] at hfit
    have hle := bytes_step_le s.budget l op
    obtain ⟨out, hok, hresult, hpushed, hbudget, h'⟩ := h.run_spec op (by omega)
    obtain ⟨outs, hoks, hshows, hnodup⟩ := ih h' (by omega)
    rw [hbudget] at hshows hnodup
    refine ⟨out :: outs, ?_, .cons ?_ hshows, ?_⟩
    · simp only [Store.trail, hok, bind, Except.bind, hoks]
      rfl
    · exact ⟨hresult, hpushed, h'.toList_eq, h'.walk, h'.size_eq, h'.isEmpty_eq, h'.toNat_used (by omega)⟩
    · intro r hr
      rcases List.mem_cons.mp hr with rfl | hr
      · exact h'.nodup_keys
      · exact hnodup r hr

/-- **The slot store refines the recency list.** Whatever is done to an empty store, in which order
ever: no step faults, each shows what it shows on the list, and the keys of the list stay distinct.
All entries that are put in must together fit 64 bits. -/
theorem trail_shows (budget : UInt64) (ops : List (Op α))
    (hfit : (ops.map Op.bytes).sum < UInt64.size) :
    ∃ outs, (Store.empty budget).trail ops = .ok outs ∧
      List.Forall₂ Shows outs (Recency.trail budget [] ops) ∧
      ∀ r ∈ Recency.trail budget [] ops, r.entries.keys.Nodup :=
  (carries_empty budget).trail_spec ops (by rwa [bytes_nil, Nat.zero_add])

/-- Two entries of two bytes each under a budget of three: the older one is pushed out. -/
theorem trail_shows_pushing_out :
    ∃ outs, (Store.empty 3).trail [.add "a" (Value.ofString "x"), .add "b" (Value.ofString "y")] =
        .ok outs ∧
      List.Forall₂ Shows outs
        [⟨.done, [], [("a", Value.ofString "x")]⟩,
          ⟨.done, [("a", Value.ofString "x")], [("b", Value.ofString "y")]⟩] := by
  obtain ⟨outs, hok, hshows, -⟩ := trail_shows 3
    [.add "a" (Value.ofString "x"), .add "b" (Value.ofString "y")] (by decide)
  exact ⟨outs, hok, hshows⟩

end RingCache.Lru

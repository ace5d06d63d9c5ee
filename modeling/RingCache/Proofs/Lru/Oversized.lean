import RingCache.Proofs.Lru.Budgets
import RingCache.Proofs.Lru.Reuse

/-!
# An entry larger than the whole budget

Such an entry is put in front of all others, and the store then pushes out oldest entries until the
rest fits. The new entry alone does not fit, so no prefix of the list does but the empty one
(`fitting_of_lt`): every other entry is pushed out first, oldest to newest, and the new one last. The
`add` changes nothing else only in a store that was empty before (`oversized_empties`).

Statements are about the stores that can come up at all (`Reached`): those that any operations lead to
from an empty one.
-/

namespace RingCache.Lru

open Recency

variable {α : Type} [ByteSize α] {s : Store α} {budget : UInt64}

/-! ### Stores that can come up -/

/-- The stores that operations lead to from an empty one. -/
inductive Reached (budget : UInt64) : Store α → Prop where
  | empty : Reached budget (.empty budget)
  | run {s : Store α} {op : Op α} {out : Outcome α (Answer α)} (h : Reached budget s)
      (hok : s.run op = .ok out) : Reached budget out.store

/-- An operation that succeeds leaves some list, whether or not the bytes could be counted. -/
theorem Carries.of_run {l : Recency α} (h : Carries s l) {op : Op α}
    {out : Outcome α (Answer α)} (hok : s.run op = .ok out) :
    out.store.budget = s.budget ∧ ∃ l', Carries out.store l' := by
  rw [← Store.runBy_checked] at hok
  rcases h.runBy_spec .checked op with ⟨herr, -⟩ | ⟨_, l', hmade, hbudget, h', -⟩
  · cases hok.symm.trans herr
  · cases hok.symm.trans hmade
    exact ⟨hbudget, l', h'⟩

/-- **Every store that can come up** keeps its budget, and carries the list of its entries. -/
theorem Reached.carries (h : Reached budget s) : s.budget = budget ∧ Carries s s.toList := by
  induction h with
  | empty =>
    have hempty : Carries (Store.empty budget : Store α) [] := carries_empty budget
    exact ⟨rfl, hempty.toList_eq.symm ▸ hempty⟩
  | run h hok ih =>
    obtain ⟨hbudget, hcarries⟩ := ih
    obtain ⟨hbudget', l', h'⟩ := hcarries.of_run hok
    exact ⟨hbudget'.trans hbudget, h'.toList_eq.symm ▸ h'⟩

/-! ### What is larger than the budget -/

/-- Nothing fits where the newest entry does not. -/
theorem Recency.fitting_of_lt {limit : Nat} {e : String × α} (h : limit < entryBytes e)
    (l : Recency α) : fitting limit (e :: l) = [] := by
  have hone : limit < bytes [e] := by rwa [bytes_cons, bytes_nil, Nat.add_zero]
  rw [← List.singleton_append, fitting_append_of_lt hone, fitting_dropLast hone]
  exact fitting_of_le (Nat.zero_le limit)

/-- **Adding an entry larger than the budget** pushes out every other entry, oldest first, and then
the new one. An older value of its key is replaced before, and not reported. -/
theorem Carries.add_oversized {l : Recency α} (h : Carries s l) (key : String) (value : α)
    (hbudget : s.budget ≠ 0) (hover : s.budget.toNat < entryBytes (key, value))
    (hfit : bytes l + entryBytes (key, value) < UInt64.size) :
    ∃ out, s.run (.add key value) = .ok out ∧
      out.pushed = (without l key).reverse ++ [(key, value)] ∧ Carries out.store [] := by
  obtain ⟨out, hok, -, hpushed, -, hstore⟩ := h.run_spec (.add key value) hfit
  have hkept : kept s.budget ((key, value) :: without l key) = [] := by
    rw [kept, if_neg hbudget, fitting_of_lt hover]
  simp only [step, hkept, List.length_nil, List.drop_zero, List.reverse_cons] at hpushed hstore
  exact ⟨out, hok, hpushed, hstore⟩

/-- **An entry larger than the whole budget empties the store.** Where its key is new, all entries
are reported, oldest first, and the new one after them. So what was there stays as it was, and the new
entry alone is reported, just in case nothing was there. -/
theorem oversized_empties (h : Reached budget s) (hbudget : budget ≠ 0) (key : String) (value : α)
    (hkey : key ∉ s.keys) (hover : budget.toNat < entryBytes (key, value))
    (hfit : bytes s.toList + entryBytes (key, value) < UInt64.size) :
    ∃ out, s.run (.add key value) = .ok out ∧ out.pushed = s.toList.reverse ++ [(key, value)] ∧
      out.store.toList = [] ∧ out.store.isEmpty = true ∧ out.store.used = 0 ∧
      ((out.store.toList = s.toList ∧ out.store.used = s.used ∧ out.pushed = [(key, value)]) ↔
        s.toList = []) := by
  obtain ⟨rfl, hcarries⟩ := h.carries
  obtain ⟨out, hok, hpushed, hstore⟩ := hcarries.add_oversized key value hbudget hover hfit
  rw [without_of_not_mem hkey] at hpushed
  have hused : out.store.used = 0 := hstore.used_eq
  refine ⟨out, hok, hpushed, hstore.toList_eq, hstore.isEmpty_eq, hused, ?_, ?_⟩
  · rintro ⟨hentries, -, -⟩
    exact hentries.symm.trans hstore.toList_eq
  · intro hnil
    rw [hnil] at hpushed hcarries
    exact ⟨hstore.toList_eq.trans hnil.symm, hused.trans hcarries.used_eq.symm, hpushed⟩

/-- Three bytes under a budget of two, in a store that holds one entry of two bytes. -/
theorem oversized_empties_one :
    ∃ s : Store Value, Reached 2 s ∧ s.toList = [("a", Value.ofString "x")] ∧
      ∃ out, s.run (.add "b" (Value.ofString "yz")) = .ok out ∧
        out.pushed = [("a", Value.ofString "x"), ("b", Value.ofString "yz")] ∧
        out.store.toList = [] := by
  obtain ⟨first, hok, -, -, -, hstore⟩ :=
    (carries_empty 2).run_spec (.add "a" (Value.ofString "x")) (by decide)
  have hentries : first.store.toList = [("a", Value.ofString "x")] := hstore.toList_eq
  have hreached : Reached 2 first.store := .run .empty hok
  obtain ⟨out, hadd, hpushed, hempty, -⟩ :=
    oversized_empties hreached (by decide) "b" (Value.ofString "yz")
      (by rw [Store.keys, hentries]; decide) (by decide) (by rw [hentries]; decide)
  rw [hentries] at hpushed
  exact ⟨first.store, hreached, hentries, out, hadd, hpushed, hempty⟩

/-- **One large value costs the whole content.** Under a budget of eight bytes, an entry of fourteen
bytes leaves nothing of the entry that was there, and both are reported: the store is not as it was
before. -/
theorem oversized_not_ignored :
    ∃ s : Store Value, Reached 8 s ∧ s.toList = [("small", Value.ofString "x")] ∧
      "huge" ∉ s.keys ∧ 8 < entryBytes ("huge", Value.ofString "0123456789") ∧
      ∃ out, s.run (.add "huge" (Value.ofString "0123456789")) = .ok out ∧
        out.store.toList = [] ∧ out.store.toList ≠ s.toList ∧
        out.pushed = [("small", Value.ofString "x"), ("huge", Value.ofString "0123456789")] ∧
        out.pushed ≠ [("huge", Value.ofString "0123456789")] := by
  obtain ⟨first, hok, -, -, hbudget, hstore⟩ :=
    (carries_empty 8).run_spec (.add "small" (Value.ofString "x")) (by decide)
  have hentries : first.store.toList = [("small", Value.ofString "x")] := hstore.toList_eq
  obtain ⟨out, hadd, hpushed, hempty⟩ :=
    hstore.add_oversized "huge" (Value.ofString "0123456789")
      (by rw [hbudget]; decide) (by rw [hbudget]; decide) (by decide)
  refine ⟨first.store, .run .empty hok, hentries, by rw [Store.keys, hentries]; decide, by decide,
    out, hadd, hempty.toList_eq, ?_, hpushed, ?_⟩
  · rw [hempty.toList_eq, hentries]
    exact nofun
  · rw [show out.pushed = _ from hpushed]
    intro heq
    exact absurd (congrArg List.length heq) (by decide)

end RingCache.Lru

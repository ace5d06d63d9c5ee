import Mathlib.Data.List.Basic
import Mathlib.Data.Nat.Find
import Mathlib.Tactic.Ring
import RingCache.Lru.Store

/-!
# The recency list: what a slot store means

A store of entries is meant to be a plain list of entries, newest first, with distinct keys. Here
every operation is carried out on such a list, in the plainest words:

* a hit moves its entry to the front (`Recency.step`, case `get`);
* `add` puts its entry in front, and keeps the longest prefix that fits the budget (`fitting`);
* what falls off the end is pushed out, oldest entry first.

Bytes are counted in `Nat`, without a bound. The slots and links that carry such a list are the
matter of `Proofs/Lru/Links`; that they carry it is shown in `Proofs/Lru/Refinement`.
-/

namespace RingCache.Lru

/-- Entries, newest first. -/
abbrev Recency (α : Type) := List (String × α)

/-- What an operation leaves: its answer, the entries it pushed out in order, and the list. -/
structure Recency.Outcome (α : Type) where
  result : Answer α
  pushed : List (String × α)
  entries : Recency α

namespace Recency

variable {α : Type}

/-- The keys, newest first. -/
def keys (l : Recency α) : List String := l.map Prod.fst

/-- The list without the entries of `key`. -/
def without (l : Recency α) (key : String) : Recency α := l.filter fun e => e.1 ≠ key

section Bytes

variable [ByteSize α]

/-- The bytes that one entry counts. -/
def entryBytes (e : String × α) : Nat := e.1.utf8ByteSize + ByteSize.byteSize e.2

/-- The bytes of all entries. -/
def bytes (l : Recency α) : Nat := (l.map entryBytes).sum

/-- The longest prefix of at most `limit` bytes. -/
def fitting (limit : Nat) (l : Recency α) : Recency α :=
  l.take (Nat.findGreatest (fun n => bytes (l.take n) ≤ limit) l.length)

/-- What a budget lets stay: everything if it is zero, else the longest prefix that fits. -/
def kept (budget : UInt64) (l : Recency α) : Recency α :=
  if budget = 0 then l else fitting budget.toNat l

/-- Carries out one operation. -/
def step (budget : UInt64) (l : Recency α) : Op α → Outcome α
  | .add key value =>
    let l := (key, value) :: without l key
    ⟨.done, (l.drop (kept budget l).length).reverse, kept budget l⟩
  | .get key =>
    match l.lookup key with
    | none => ⟨.value none, [], l⟩
    | some v => ⟨.value (some v), [], (key, v) :: without l key⟩
  | .peek key => ⟨.value (l.lookup key), [], l⟩
  | .contains key => ⟨.found (l.lookup key).isSome, [], l⟩
  | .remove key =>
    ⟨.value (l.lookup key), ((l.lookup key).map (key, ·)).toList, without l key⟩
  | .removeOldest => ⟨.entry l.getLast?, l.getLast?.toList, l.dropLast⟩
  | .clear => ⟨.done, [], []⟩

/-- Carries out operations in order. The answer is what each of them leaves. -/
def trail (budget : UInt64) : Recency α → List (Op α) → List (Outcome α)
  | _, [] => []
  | l, op :: ops => step budget l op :: trail budget (step budget l op).entries ops

/-! ### Bytes of a list -/

@[simp] theorem bytes_nil : bytes ([] : Recency α) = 0 := rfl

@[simp] theorem bytes_cons (e : String × α) (l : Recency α) :
    bytes (e :: l) = entryBytes e + bytes l := by
  simp [bytes]

@[simp] theorem bytes_append (l m : Recency α) : bytes (l ++ m) = bytes l + bytes m := by
  simp [bytes]

theorem bytes_le_of_sublist {l m : Recency α} (h : l.Sublist m) : bytes l ≤ bytes m := by
  induction h with
  | slnil => exact Nat.le_refl _
  | cons e _ ih => rw [bytes_cons]; omega
  | cons_cons e _ ih => rw [bytes_cons, bytes_cons]; omega

/-- Taking an entry out takes its bytes away. -/
theorem bytes_eraseIdx {l : Recency α} {m : Nat} {e : String × α} (h : l[m]? = some e) :
    entryBytes e + bytes (l.eraseIdx m) = bytes l := by
  induction l generalizing m with
  | nil => simp at h
  | cons a l ih =>
    cases m with
    | zero =>
      rw [List.getElem?_cons_zero] at h
      cases h
      rw [List.eraseIdx_cons_zero, bytes_cons]
    | succ m =>
      rw [List.getElem?_cons_succ] at h
      rw [List.eraseIdx_cons_succ, bytes_cons, bytes_cons, ← ih h]
      ring

theorem bytes_without_le (l : Recency α) (key : String) : bytes (without l key) ≤ bytes l :=
  bytes_le_of_sublist List.filter_sublist

/-- An entry in the place of any older one of its key adds no more than its own bytes. -/
theorem bytes_renewed_le (l : Recency α) (key : String) (value : α) :
    bytes ((key, value) :: without l key) ≤ bytes l + entryBytes (key, value) := by
  have := bytes_without_le l key
  rw [bytes_cons]
  omega

/-! ### Looking a key up -/

omit [ByteSize α] in
theorem lookup_eq_none {l : Recency α} {key : String} (h : key ∉ l.keys) :
    l.lookup key = none := by
  rw [List.lookup_eq_none_iff]
  intro e he
  have hne : key ≠ e.1 := fun heq => h (heq ▸ List.mem_map_of_mem he)
  simpa using hne

omit [ByteSize α] in
theorem not_mem_of_lookup {l : Recency α} {key : String} (h : l.lookup key = none) :
    key ∉ l.keys := by
  intro hmem
  obtain ⟨e, he, rfl⟩ := List.mem_map.mp hmem
  simpa using List.lookup_eq_none_iff.mp h e he

omit [ByteSize α] in
/-- Where the keys are distinct, the entry at a place is the one that a look-up finds. -/
theorem lookup_eq_some {l : Recency α} (h : l.keys.Nodup) {m : Nat} {key : String} {v : α}
    (hm : l[m]? = some (key, v)) : l.lookup key = some v := by
  induction l generalizing m with
  | nil => simp at hm
  | cons e l ih =>
    obtain ⟨hnot, hl⟩ := List.nodup_cons.mp h
    cases m with
    | zero =>
      rw [List.getElem?_cons_zero] at hm
      cases hm
      simp
    | succ m =>
      rw [List.getElem?_cons_succ] at hm
      have hmem : key ∈ keys l := List.mem_map_of_mem (f := Prod.fst) (List.mem_of_getElem? hm)
      have hne : key ≠ e.1 := fun heq => hnot (heq ▸ hmem)
      rw [List.lookup_cons, show (key == e.1) = false by simpa using hne]
      exact ih hl hm

omit [ByteSize α] in
theorem without_of_not_mem {l : Recency α} {key : String} (h : key ∉ l.keys) :
    without l key = l := by
  apply List.filter_eq_self.mpr
  intro e he
  have hne : e.1 ≠ key := fun heq => h (heq ▸ List.mem_map_of_mem he)
  simpa using hne

omit [ByteSize α] in
/-- The entries of other keys stay. -/
theorem lookup_without {l : Recency α} {key k : String} (h : k ≠ key) :
    (without l key).lookup k = l.lookup k := by
  induction l with
  | nil => rfl
  | cons e l ih =>
    by_cases he : e.1 = key
    · have hne : (k == e.1) = false := by simpa [he] using h
      rw [without, List.filter_cons_of_neg (by simpa using he), List.lookup_cons, hne]
      exact ih
    · rw [without, List.filter_cons_of_pos (by simpa using he), List.lookup_cons, List.lookup_cons]
      split
      · rfl
      · exact ih

omit [ByteSize α] in
/-- Where the keys are distinct, a key goes with the entry at its place. -/
theorem without_eq_eraseIdx {l : Recency α} (h : l.keys.Nodup) {m : Nat} {key : String} {v : α}
    (hm : l[m]? = some (key, v)) : without l key = l.eraseIdx m := by
  induction l generalizing m with
  | nil => simp at hm
  | cons e l ih =>
    obtain ⟨hnot, hl⟩ := List.nodup_cons.mp h
    cases m with
    | zero =>
      rw [List.getElem?_cons_zero] at hm
      cases hm
      rw [List.eraseIdx_cons_zero, without, List.filter_cons_of_neg (by simp)]
      exact without_of_not_mem hnot
    | succ m =>
      rw [List.getElem?_cons_succ] at hm
      have hmem : key ∈ keys l := List.mem_map_of_mem (f := Prod.fst) (List.mem_of_getElem? hm)
      have hne : e.1 ≠ key := fun heq => hnot (heq ▸ hmem)
      rw [List.eraseIdx_cons_succ, without, List.filter_cons_of_pos (by simpa using hne)]
      exact congrArg (e :: ·) (ih hl hm)

/-! ### The longest prefix that fits -/

theorem fitting_isPrefix (limit : Nat) (l : Recency α) : fitting limit l <+: l :=
  List.take_prefix _ _

theorem fitting_of_le {limit : Nat} {l : Recency α} (h : bytes l ≤ limit) :
    fitting limit l = l := by
  have hn : Nat.findGreatest (fun n => bytes (l.take n) ≤ limit) l.length = l.length :=
    Nat.findGreatest_eq (by rwa [List.take_length])
  rw [fitting, hn, List.take_length]

/-- A list that does not fit may as well lose its last entry first. -/
theorem fitting_dropLast {limit : Nat} {l : Recency α} (h : limit < bytes l) :
    fitting limit l = fitting limit l.dropLast := by
  obtain rfl | ⟨front, last, rfl⟩ := List.eq_nil_or_concat l
  · simp at h
  · rw [List.concat_eq_append] at h ⊢
    -- below the full length the prefixes of both lists are the same
    have hsame : ∀ n ≤ front.length, (front ++ [last]).take n = front.take n :=
      fun n hn => List.take_append_of_le_length hn
    obtain ⟨hle, hfits, hmost⟩ := Nat.findGreatest_eq_iff.mp
      (rfl : Nat.findGreatest (fun n => bytes (front.take n) ≤ limit) front.length = _)
    have hgreatest : Nat.findGreatest (fun n => bytes ((front ++ [last]).take n) ≤ limit)
        (front ++ [last]).length =
        Nat.findGreatest (fun n => bytes (front.take n) ≤ limit) front.length := by
      refine Nat.findGreatest_eq_iff.mpr ⟨?_, ?_, ?_⟩
      · exact hle.trans (by simp)
      · intro h0
        rw [hsame _ hle]
        exact hfits h0
      · intro n hlt hn
        by_cases hnf : n ≤ front.length
        · rw [hsame n hnf]
          exact hmost hlt hnf
        · rw [List.take_of_length_le (by simp; omega)]
          omega
    rw [fitting, fitting, hgreatest, List.dropLast_concat, hsame _ hle]

theorem kept_isPrefix (budget : UInt64) (l : Recency α) : kept budget l <+: l := by
  rw [kept]
  split
  · exact List.prefix_rfl
  · exact fitting_isPrefix _ _

/-- What fits is within the limit. -/
theorem bytes_fitting_le (limit : Nat) (l : Recency α) : bytes (fitting limit l) ≤ limit := by
  rw [fitting]
  by_cases h0 : Nat.findGreatest (fun n => bytes (l.take n) ≤ limit) l.length = 0
  · rw [h0, List.take_zero]
    exact Nat.zero_le _
  · exact (Nat.findGreatest_eq_iff.mp
      (rfl : Nat.findGreatest (fun n => bytes (l.take n) ≤ limit) l.length = _)).2.1 h0

/-- What fits is the longest such prefix. -/
theorem prefix_fitting {limit : Nat} {l m : Recency α} (hpre : m <+: l)
    (hfits : bytes m ≤ limit) : m <+: fitting limit l := by
  have hm : m = l.take m.length := List.prefix_iff_eq_take.mp hpre
  have hle : m.length ≤ Nat.findGreatest (fun n => bytes (l.take n) ≤ limit) l.length :=
    Nat.le_findGreatest hpre.length_le (by rwa [← hm])
  rw [hm, fitting]
  exact List.take_prefix_take_left hle

end Bytes

end Recency

end RingCache.Lru

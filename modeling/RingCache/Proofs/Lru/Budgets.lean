import Mathlib.Tactic.Common
import RingCache.Proofs.Lru.Refinement
import RingCache.Proofs.Stages

/-!
# A larger budget keeps at least as much

Two stores that begin empty are put through the same operations, one under a smaller budget than the
other. Then what the smaller one keeps is a prefix of what the larger one keeps, newest first, at any
time (`larger_keeps_more`). For what a store leaves of a list under an `add` is the longest prefix
whose bytes, as they are counted, are within the budget (`Longest`), and a prefix that is within the
smaller budget is one within the larger budget as well (`Longest.mono`). No other operation looks at
the budget, and each keeps one list a prefix of the other, but for a look-up: this may move an entry to
the front that only the larger store has.

Nothing is assumed about the bytes. A count that has wrapped at 64 bits is wrong for a list, but it is
the same for equal lists, and this is enough.
-/

namespace RingCache.Lru

open Store Recency

variable {α : Type} [ByteSize α]

namespace Recency

/-! ### The longest prefix within a budget -/

/-- The bytes of a list, as they are counted, are within a budget. -/
def Within (budget : UInt64) (l : Recency α) : Prop :=
  budget = 0 ∨ UInt64.ofNat l.bytes ≤ budget

/-- A list is the longest prefix of another one that is within a budget. -/
structure Longest (budget : UInt64) (l l' : Recency α) : Prop where
  isPrefix : l' <+: l
  within : Within budget l'
  longest : ∀ m, m <+: l → Within budget m → m <+: l'

/-- A budget that sets a limit, and one that lets no less stay. -/
def Looser (budget budget' : UInt64) : Prop := budget ≠ 0 ∧ (budget ≤ budget' ∨ budget' = 0)

variable {budget budget' : UInt64} {l l' m m' : Recency α} {op : Op α}

theorem Looser.within (h : Looser budget budget') (hm : Within budget m) : Within budget' m := by
  obtain ⟨hpos, hle | hzero⟩ := h
  · exact .inr (UInt64.le_trans (hm.resolve_left hpos) hle)
  · exact .inl hzero

/-- **What fits the smaller budget** of a shorter list is no longer than what fits the larger one. -/
theorem Longest.mono (hle : Looser budget budget') (hpre : l <+: l') (h : Longest budget l m)
    (h' : Longest budget' l' m') : m <+: m' :=
  h'.longest m (h.isPrefix.trans hpre) (hle.within h.within)

theorem longest_self (h : Within budget l) : Longest budget l l :=
  ⟨List.prefix_rfl, h, fun _ hm _ => hm⟩

/-- An entry at the end with which a list is not within the budget may as well be left out. -/
theorem Longest.concat (h : Longest budget l m) {e : String × α}
    (hover : ¬ Within budget (l ++ [e])) : Longest budget (l ++ [e]) m where
  isPrefix := h.isPrefix.trans (List.prefix_append _ _)
  within := h.within
  longest := by
    intro p hp hwithin
    rcases List.prefix_concat_iff.mp hp with rfl | hp
    · exact absurd hwithin hover
    · exact h.longest p hp hwithin

theorem Longest.unique (h : Longest budget l m) (h' : Longest budget l m') : m = m' :=
  (h'.longest m h.isPrefix h.within).eq_of_length_le
    (h.longest m' h'.isPrefix h'.within).length_le

/-- Where the bytes can be counted, the budget lets just the longest such prefix stay. -/
theorem longest_kept (budget : UInt64) (hfit : bytes l < UInt64.size) :
    Longest budget l (kept budget l) := by
  have hcount : ∀ {m : Recency α}, m <+: l → (UInt64.ofNat (bytes m)).toNat = bytes m :=
    fun hm => Nat.mod_eq_of_lt (Nat.lt_of_le_of_lt (bytes_le_of_sublist hm.sublist) hfit)
  rw [kept]
  split
  · next hzero => exact longest_self (.inl hzero)
  · next hpos =>
    refine ⟨fitting_isPrefix _ _, .inr ?_, ?_⟩
    · rw [UInt64.le_iff_toNat_le, hcount (fitting_isPrefix _ _)]
      exact bytes_fitting_le _ _
    · intro m hm hwithin
      have hle := UInt64.le_iff_toNat_le.mp (hwithin.resolve_left hpos)
      rw [hcount hm] at hle
      exact prefix_fitting hm hle

/-! ### What an operation leaves of a list -/

/-- What an operation leaves of a list, whether or not the bytes can be counted. -/
def Leaves (budget : UInt64) (l : Recency α) (op : Op α) (l' : Recency α) : Prop :=
  match op with
  | .add key value => Longest budget ((key, value) :: without l key) l'
  | op => l' = (step budget l op).entries

/-- Where the bytes can be counted, this is what the list says. -/
theorem Leaves.eq_step (h : Leaves budget l op l') (hfit : bytes l + op.bytes < UInt64.size) :
    l' = (step budget l op).entries := by
  cases op with
  | add key value =>
    have hbytes := bytes_renewed_le l key value
    exact Longest.unique h (longest_kept budget (Nat.lt_of_le_of_lt hbytes hfit))
  | get | peek | contains | remove | removeOldest | clear => exact h

omit [ByteSize α] in
theorem dropLast_isPrefix (h : l <+: l') : l.dropLast <+: l'.dropLast := by
  rcases List.eq_nil_or_concat l' with rfl | ⟨front, last, rfl⟩
  · obtain rfl := List.prefix_nil.mp h
    exact List.prefix_rfl
  · rw [List.concat_eq_append] at h ⊢
    rw [List.dropLast_concat]
    rcases List.prefix_concat_iff.mp h with heq | hfront
    · have hdrop : l.dropLast = front := by rw [heq, List.dropLast_concat]
      exact hdrop ▸ List.prefix_rfl
    · exact (List.dropLast_prefix l).trans hfront

/-- **An operation keeps a prefix a prefix**, unless it is a look-up. -/
theorem Leaves.isPrefix (hle : Looser budget budget') (hpre : l <+: l')
    (hop : ∀ key, op ≠ .get key) (h : Leaves budget l op m) (h' : Leaves budget' l' op m') :
    m <+: m' := by
  cases op with
  | add key value =>
    have hfront : (key, value) :: without l key <+: (key, value) :: without l' key :=
      (List.prefix_cons_inj _).mpr (hpre.filter _)
    exact Longest.mono hle hfront h h'
  | get key => exact absurd rfl (hop key)
  | peek | contains =>
    obtain rfl : m = l := h
    obtain rfl : m' = l' := h'
    exact hpre
  | remove key =>
    obtain rfl : m = without l key := h
    obtain rfl : m' = without l' key := h'
    exact hpre.filter _
  | removeOldest =>
    obtain rfl : m = l.dropLast := h
    obtain rfl : m' = l'.dropLast := h'
    exact dropLast_isPrefix hpre
  | clear =>
    obtain rfl : m = [] := h
    exact List.nil_prefix

end Recency

/-! ### What an operation leaves of a store -/

/-- Carries out one operation, on a count of either kind. -/
def Store.runBy (counting : Counting) (s : Store α) :
    Op α → Except Fault (Outcome α (Answer α))
  | .add key value => do
    let out ← s.add key value counting
    pure ⟨.done, out.pushed, out.store⟩
  | .remove key => do
    let out ← s.removeBy counting key
    pure ⟨.value out.result, out.pushed, out.store⟩
  | .removeOldest => do
    let out ← s.removeOldest counting
    pure ⟨.entry out.result, out.pushed, out.store⟩
  | op => s.run op

theorem Store.runBy_checked (s : Store α) (op : Op α) : s.runBy .checked op = s.run op := by
  cases op <;> rfl

namespace Carries

variable {s : Store α} {l : Recency α} {counting : Counting}

theorem overBudget_eq_false_iff (h : Carries s l) :
    s.overBudget = false ↔ Within s.budget l := by
  rw [Within, ← h.used_eq, overBudget, Bool.and_eq_false_iff, ← UInt64.not_lt]
  simp

/-- **Trimming stops at the longest prefix within the budget**, by the count that the store has. -/
theorem trim_longest (h : Carries s l) {rounds : Nat} {pushed : List (String × α)} {s' : Store α}
    (hok : s.trim counting rounds = .ok (pushed, s')) :
    ∃ l', Carries s' l' ∧ Longest s.budget l l' := by
  induction rounds generalizing s l pushed with
  | zero => cases hok
  | succ rounds ih =>
    cases hover : s.overBudget with
    | false =>
      rw [trim, if_neg (by rw [hover]; decide)] at hok
      cases hok
      exact ⟨l, h, longest_self (h.overBudget_eq_false_iff.mp hover)⟩
    | true =>
      have hnot : ¬ Within s.budget l := by
        rw [← h.overBudget_eq_false_iff, hover]
        decide
      obtain rfl | ⟨front, last, rfl⟩ := List.eq_nil_or_concat l
      · exact absurd (.inr (UInt64.zero_le)) hnot
      rw [List.concat_eq_append] at h hnot ⊢
      have hremove := h.removeOldest_spec counting
      rw [List.getLast?_concat, List.dropLast_concat] at hremove
      rw [trim, if_pos hover] at hok
      obtain ⟨out, hout, hok⟩ := ok_of_bind hok
      rcases hremove with ⟨herr, -⟩ | ⟨s₁, hok₁, hbudget, h₁⟩
      · cases hout.symm.trans herr
      · cases hout.symm.trans hok₁
        obtain ⟨⟨rest, s₂⟩, htrim, hok⟩ := ok_of_bind hok
        cases hok
        obtain ⟨l', h', hlongest⟩ := ih h₁ htrim
        exact ⟨l', h', (hbudget ▸ hlongest).concat hnot⟩

/-- An entry that is put in leaves the longest prefix within the budget. -/
theorem add_longest (h : Carries s l) {key : String} {value : α} {out : Outcome α Unit}
    (hok : s.add key value counting = .ok out) :
    ∃ l', Carries out.store l' ∧ Longest s.budget ((key, value) :: without l key) l' := by
  obtain ⟨s₁, hput, hok⟩ := ok_of_bind hok
  obtain ⟨⟨pushed, s₂⟩, htrim, hok⟩ := ok_of_bind hok
  cases hok
  rcases h.put_spec key value counting with ⟨herr, -⟩ | ⟨_, hput', hbudget, h₁⟩
  · cases hput.symm.trans herr
  · cases hput.symm.trans hput'
    rw [← hbudget]
    exact h₁.trim_longest htrim

/-- **One operation on a store that carries a list**: it is refused where a checked count would need
more than 64 bits, or leaves a list as it should. -/
theorem runBy_spec (h : Carries s l) (counting : Counting) (op : Op α) :
    (s.runBy counting op = .error .underflow ∧ counting = .checked ∧
        UInt64.size ≤ bytes l + op.bytes) ∨
      ∃ out l', s.runBy counting op = .ok out ∧ out.store.budget = s.budget ∧
        Carries out.store l' ∧ Leaves s.budget l op l' := by
  cases op with
  | add key value =>
    rcases h.add_spec key value counting with herr | ⟨s', _, hok, hbudget, -⟩
    · exact .inl ⟨by simp only [Store.runBy, herr.1]; rfl, herr.2⟩
    · obtain ⟨l', h', hlongest⟩ := h.add_longest hok
      exact .inr ⟨_, l', by simp only [Store.runBy, hok]; rfl, hbudget, h', hlongest⟩
  | get key =>
    obtain ⟨s', hok, hbudget, h'⟩ := h.get_spec key
    exact .inr ⟨_, _, by simp only [Store.runBy, Store.run, hok]; rfl, hbudget, h', rfl⟩
  | peek key =>
    exact .inr ⟨_, l, by simp only [Store.runBy, Store.run, h.peek_eq]; rfl, rfl, h, rfl⟩
  | contains key => exact .inr ⟨_, l, rfl, rfl, h, rfl⟩
  | remove key =>
    rcases h.removeBy_spec counting key with ⟨herr, hcounting, hbig⟩ | ⟨s', hok, hbudget, h'⟩
    · exact .inl ⟨by simp only [Store.runBy, herr]; rfl, hcounting, hbig⟩
    · exact .inr ⟨_, _, by simp only [Store.runBy, hok]; rfl, hbudget, h', rfl⟩
  | removeOldest =>
    rcases h.removeOldest_spec counting with ⟨herr, hcounting, hbig⟩ | ⟨s', hok, hbudget, h'⟩
    · exact .inl ⟨by simp only [Store.runBy, herr]; rfl, hcounting, hbig⟩
    · exact .inr ⟨_, _, by simp only [Store.runBy, hok]; rfl, hbudget, h', rfl⟩
  | clear => exact .inr ⟨_, _, rfl, rfl, carries_empty s.budget, rfl⟩

end Carries

/-! ### Two stores side by side -/

/-- Carries out operations in order, on a count of either kind: with a checked count this is
`Store.trail`. -/
def Store.trailBy (counting : Counting) (s : Store α) :
    List (Op α) → Except Fault (List (Outcome α (Answer α)))
  | [] => .ok []
  | op :: ops => do
    let out ← s.runBy counting op
    let outs ← out.store.trailBy counting ops
    pure (out :: outs)

theorem Store.trailBy_checked (s : Store α) (ops : List (Op α)) :
    s.trailBy .checked ops = s.trail ops := by
  induction ops generalizing s with
  | nil => rfl
  | cons op ops ih => simp only [trailBy, trail, runBy_checked, ih]

/-- Operations that are made begin with one that is made. -/
theorem trailBy_cons_eq_ok {counting : Counting} {s : Store α} {op : Op α} {ops : List (Op α)}
    {outs : List (Outcome α (Answer α))} (hok : s.trailBy counting (op :: ops) = .ok outs) :
    ∃ out rest, s.runBy counting op = .ok out ∧ out.store.trailBy counting ops = .ok rest ∧
      outs = out :: rest := by
  obtain ⟨out, hrun, hok⟩ := ok_of_bind hok
  obtain ⟨rest, htrail, hok⟩ := ok_of_bind hok
  cases hok
  exact ⟨out, rest, hrun, htrail, rfl⟩

/-- At any time the bytes that are kept and those that come in fit 64 bits. -/
def Recency.Counts (budget : UInt64) : Recency α → List (Op α) → Prop
  | _, [] => True
  | l, op :: ops =>
    bytes l + op.bytes < UInt64.size ∧ Counts budget (step budget l op).entries ops

/-- It is enough that all that comes in fits. -/
theorem Recency.counts_of_sum (budget : UInt64) {l : Recency α} {ops : List (Op α)}
    (h : bytes l + (ops.map Op.bytes).sum < UInt64.size) : Counts budget l ops := by
  induction ops generalizing l with
  | nil => trivial
  | cons op ops ih =>
    rw [List.map_cons, List.sum_cons] at h
    have hle := bytes_step_le budget l op
    exact ⟨by omega, ih (by omega)⟩

/-- One store keeps a beginning of what another one keeps, whose budget is looser. -/
structure Beside (s s' : Store α) (l l' : Recency α) : Prop where
  small : Carries s l
  large : Carries s' l'
  isPrefix : l <+: l'
  looser : Looser s.budget s'.budget

namespace Beside

variable {counting : Counting} {s s' : Store α} {l l' : Recency α} {op : Op α} {ops : List (Op α)}
  {out out' : Outcome α (Answer α)}

/-- **An operation leaves both stores side by side.** -/
theorem run (h : Beside s s' l l') (hop : ∀ key, op ≠ .get key)
    (hok : s.runBy counting op = .ok out) (hok' : s'.runBy counting op = .ok out') :
    ∃ m m', Beside out.store out'.store m m' ∧ out'.store.budget = s'.budget ∧
      Leaves s'.budget l' op m' := by
  rcases h.small.runBy_spec counting op with ⟨herr, -⟩ | ⟨_, m, hmade, hbudget, hm, hleaves⟩
  · cases hok.symm.trans herr
  rcases h.large.runBy_spec counting op with ⟨herr, -⟩ | ⟨_, m', hmade', hbudget', hm', hleaves'⟩
  · cases hok'.symm.trans herr
  cases hok.symm.trans hmade
  cases hok'.symm.trans hmade'
  refine ⟨m, m', ⟨hm, hm', ?_, ?_⟩, hbudget', hleaves'⟩
  · exact hleaves.isPrefix h.looser h.isPrefix hop hleaves'
  · rw [hbudget, hbudget']
    exact h.looser

/-- An operation is made on both stores, if the count wraps or can hold what the larger one keeps. -/
theorem run_exists (h : Beside s s' l l')
    (hfit : counting = .checked → bytes l' + op.bytes < UInt64.size) :
    (∃ out, s.runBy counting op = .ok out) ∧ ∃ out', s'.runBy counting op = .ok out' := by
  have hbytes := bytes_le_of_sublist h.isPrefix.sublist
  constructor
  · rcases h.small.runBy_spec counting op with ⟨-, hchecked, hbig⟩ | ⟨out, -, hok, -⟩
    · have := hfit hchecked
      omega
    · exact ⟨out, hok⟩
  · rcases h.large.runBy_spec counting op with ⟨-, hchecked, hbig⟩ | ⟨out', -, hok', -⟩
    · have := hfit hchecked
      omega
    · exact ⟨out', hok'⟩

/-- **After every operation** what the one store shows is a prefix of what the other one shows. -/
theorem trail (h : Beside s s' l l') (hops : ∀ key, .get key ∉ ops)
    {outs outs' : List (Outcome α (Answer α))} (hok : s.trailBy counting ops = .ok outs)
    (hok' : s'.trailBy counting ops = .ok outs') :
    List.Forall₂ (fun out out' => out.store.toList <+: out'.store.toList) outs outs' := by
  induction ops generalizing s s' l l' outs outs' with
  | nil =>
    cases hok
    cases hok'
    exact .nil
  | cons op ops ih =>
    obtain ⟨out, rest, hrun, htrail, rfl⟩ := trailBy_cons_eq_ok hok
    obtain ⟨out', rest', hrun', htrail', rfl⟩ := trailBy_cons_eq_ok hok'
    have hop : ∀ key, op ≠ .get key := fun key hkey => hops key (hkey ▸ List.mem_cons_self)
    obtain ⟨m, m', hnext, -, -⟩ := h.run hop hrun hrun'
    refine .cons ?_ (ih hnext (fun key hkey => hops key (List.mem_cons_of_mem _ hkey)) htrail htrail')
    rw [hnext.small.toList_eq, hnext.large.toList_eq]
    exact hnext.isPrefix

theorem trail_exists (h : Beside s s' l l') (hops : ∀ key, .get key ∉ ops)
    (hcounts : counting = .wrapping ∨ Counts s'.budget l' ops) :
    (∃ outs, s.trailBy counting ops = .ok outs) ∧ ∃ outs', s'.trailBy counting ops = .ok outs' := by
  induction ops generalizing s s' l l' with
  | nil => exact ⟨⟨[], rfl⟩, [], rfl⟩
  | cons op ops ih =>
    have hfit : counting = .checked → bytes l' + op.bytes < UInt64.size := by
      rintro rfl
      exact (hcounts.resolve_left nofun).1
    obtain ⟨⟨out, hrun⟩, out', hrun'⟩ := h.run_exists hfit
    have hop : ∀ key, op ≠ .get key := fun key hkey => hops key (hkey ▸ List.mem_cons_self)
    obtain ⟨m, m', hnext, hbudget, hleaves⟩ := h.run hop hrun hrun'
    have hcounts' : counting = .wrapping ∨ Counts out'.store.budget m' ops := by
      refine hcounts.imp_right fun hcounts => ?_
      rw [hbudget, hleaves.eq_step hcounts.1]
      exact hcounts.2
    obtain ⟨⟨outs, htrail⟩, outs', htrail'⟩ :=
      ih hnext (fun key hkey => hops key (List.mem_cons_of_mem _ hkey)) hcounts'
    refine ⟨⟨out :: outs, ?_⟩, out' :: outs', ?_⟩
    · simp only [Store.trailBy, hrun, bind, Except.bind, htrail]
      rfl
    · simp only [Store.trailBy, hrun', bind, Except.bind, htrail']
      rfl

end Beside

/-- **A larger budget keeps at least as much.** Two stores begin empty, one with a budget that sets a
limit and one with a budget that is no smaller or sets none, and go through the same operations, any
but look-ups. After every one of them the entries of the first store, newest first, are a prefix of
those of the second one, keys and values alike, however large the entries are.

No operation fails on a count that wraps. On a checked one none does as long as 64 bits hold what the
second store keeps together with what comes in. -/
theorem larger_keeps_more {small large : UInt64} (hpos : small ≠ 0)
    (hle : small ≤ large ∨ large = 0) (counting : Counting) (ops : List (Op α))
    (hops : ∀ key, .get key ∉ ops) :
    (∀ outs outs', (Store.empty small).trailBy counting ops = .ok outs →
        (Store.empty large).trailBy counting ops = .ok outs' →
        List.Forall₂ (fun out out' => out.store.toList <+: out'.store.toList) outs outs') ∧
      (counting = .wrapping ∨ Counts large [] ops →
        (∃ outs, (Store.empty small).trailBy counting ops = .ok outs) ∧
          ∃ outs', (Store.empty large).trailBy counting ops = .ok outs') := by
  have hempty : Beside (Store.empty small : Store α) (.empty large) [] [] :=
    ⟨carries_empty small, carries_empty large, List.prefix_rfl, hpos, hle⟩
  exact ⟨fun _ _ hok hok' => hempty.trail hops hok hok', hempty.trail_exists hops⟩

/-- Three bytes against none that limit: the first entry is pushed out of the one store and removed
from the other. -/
theorem larger_keeps_more_removed :
    let ops : List (Op Value) := [.add "a" (Value.ofString "x"), .add "b" (Value.ofString "y"),
      .remove "a"]
    (3 : UInt64) ≠ 0 ∧ ((3 : UInt64) ≤ 0 ∨ (0 : UInt64) = 0) ∧ (∀ key, .get key ∉ ops) ∧
      Counts 0 [] ops ∧
      ∃ outs outs', (Store.empty 3).trail ops = .ok outs ∧ (Store.empty 0).trail ops = .ok outs' ∧
        List.Forall₂ (fun out out' => out.store.toList <+: out'.store.toList) outs outs' := by
  intro ops
  have hpos : (3 : UInt64) ≠ 0 := by decide
  have hle : (3 : UInt64) ≤ 0 ∨ (0 : UInt64) = 0 := .inr rfl
  have hops : ∀ key, .get key ∉ ops := by simp [ops]
  have hcounts : Counts 0 [] ops := counts_of_sum 0 (by decide)
  obtain ⟨hkeeps, hmade⟩ := larger_keeps_more hpos hle .checked ops hops
  obtain ⟨⟨outs, hok⟩, outs', hok'⟩ := hmade (.inr hcounts)
  have hbeside := hkeeps outs outs' hok hok'
  rw [Store.trailBy_checked] at hok hok'
  exact ⟨hpos, hle, hops, hcounts, outs, outs', hok, hok', hbeside⟩

end RingCache.Lru

import Mathlib.Data.List.Forall2
import Mathlib.Tactic.Common
import RingCache.Proofs.Bench.Run

/-!
# Some places of a list by themselves

Tasks and calls are known by their places in lists that grow at their end. Where only some of them
are left, those that stay have other places: `rank` says which. A list *shadows* another one if it
has something for each of these places, in order, and nothing else (`Shadows`). It still does so when
both lists grow or change in places that belong to each other, and when the longer list grows or
changes elsewhere.

Calls are the first to be seen so (`Gates.Shadow`): those with certain labels, by themselves.
-/

namespace RingCache

namespace Bench

variable {β γ : Type} {p : β → Bool} {R : β → γ → Prop} {l : List β} {m : List γ} {a b : β} {i j : Nat}

/-! ### Ranks -/

/-- The place of what stands at place `i`, among those places that `p` picks. -/
def rank (p : β → Bool) (l : List β) (i : Nat) : Nat := (l.take i).countP p

theorem rank_append (h : i ≤ l.length) (l' : List β) : rank p (l ++ l') i = rank p l i := by
  rw [rank, List.take_append_of_le_length h, rank]

theorem rank_mono (p : β → Bool) (l : List β) (h : i ≤ j) : rank p l i ≤ rank p l j :=
  (List.take_sublist_take_left h).countP_le

theorem rank_length (p : β → Bool) (l : List β) : rank p l l.length = (l.filter p).length := by
  rw [rank, List.take_length, List.countP_eq_length_filter]

theorem rank_map {f : γ → β} (l : List γ) (i : Nat) :
    rank p (l.map f) i = rank (fun c => p (f c)) l i := by
  rw [rank, ← List.map_take, List.countP_map]
  rfl

theorem filter_eq_of_getElem? (hi : l[i]? = some a) :
    l.filter p = (l.take i).filter p ++ (if p a then [a] else []) ++ (l.drop (i + 1)).filter p := by
  obtain ⟨hlt, rfl⟩ := List.getElem?_eq_some_iff.mp hi
  conv_lhs => rw [← List.take_append_drop i l, List.drop_eq_getElem_cons hlt]
  rw [List.filter_append, List.filter_cons, List.append_assoc]
  split <;> rfl

/-- What is picked stands at its rank. -/
theorem getElem?_rank (hi : l[i]? = some a) (ha : p a = true) :
    (l.filter p)[rank p l i]? = some a := by
  rw [filter_eq_of_getElem? hi, if_pos ha, List.append_assoc, rank, List.countP_eq_length_filter,
    List.getElem?_append_right (Nat.le_refl _), Nat.sub_self]
  rfl

theorem rank_lt (hi : l[i]? = some a) (ha : p a = true) (hij : i < j) : rank p l i < rank p l j := by
  have hlt := (List.getElem?_eq_some_iff.mp hi).1
  have hsplit : l.take j = l.take i ++ a :: (l.take j).drop (i + 1) := by
    have hj : (l.take j)[i]? = some a := by rw [List.getElem?_take_of_lt hij, hi]
    obtain ⟨hltj, hget⟩ := List.getElem?_eq_some_iff.mp hj
    conv_lhs => rw [← List.take_append_drop i (l.take j), List.drop_eq_getElem_cons hltj, hget]
    rw [List.take_take, Nat.min_eq_left (Nat.le_of_lt hij)]
  rw [rank, rank, hsplit, List.countP_append, List.countP_cons_of_pos ha]
  omega

/-- Places that are picked have different ranks. -/
theorem rank_inj (hi : l[i]? = some a) (ha : p a = true) (hj : l[j]? = some b) (hb : p b = true)
    (h : rank p l i = rank p l j) : i = j := by
  rcases Nat.lt_trichotomy i j with hij | hij | hij
  · exact absurd h (Nat.ne_of_lt (rank_lt hi ha hij))
  · exact hij
  · exact absurd h.symm (Nat.ne_of_lt (rank_lt hj hb hij))

theorem filter_set (hi : l[i]? = some a) (ha : p a = true) (hb : p b = true) :
    (l.set i b).filter p = (l.filter p).set (rank p l i) b := by
  have hlt := (List.getElem?_eq_some_iff.mp hi).1
  rw [filter_eq_of_getElem? hi, filter_eq_of_getElem? (List.getElem?_set_self hlt), if_pos ha,
    if_pos hb, List.take_set_of_le (Nat.le_refl i), List.drop_set_of_lt (Nat.lt_succ_self i), rank,
    List.countP_eq_length_filter, List.append_assoc, List.append_assoc, List.set_append_right _ _
    (Nat.le_refl _), Nat.sub_self]
  rfl

theorem filter_set_other (hi : l[i]? = some a) (ha : p a = false) (hb : p b = false) :
    (l.set i b).filter p = l.filter p := by
  have hlt := (List.getElem?_eq_some_iff.mp hi).1
  rw [filter_eq_of_getElem? hi, filter_eq_of_getElem? (List.getElem?_set_self hlt),
    List.take_set_of_le (Nat.le_refl i), List.drop_set_of_lt (Nat.lt_succ_self i), ha, hb]
  rfl

/-! ### Shadows -/

/-- The list `m` has something for each place of `l` that `p` picks, in order. -/
def Shadows (p : β → Bool) (R : β → γ → Prop) (l : List β) (m : List γ) : Prop :=
  List.Forall₂ R (l.filter p) m

theorem forall₂_set {l : List β} {m : List γ} (h : List.Forall₂ R l m) {a : β} {c : γ} (hac : R a c)
    (k : Nat) : List.Forall₂ R (l.set k a) (m.set k c) := by
  induction h generalizing k with
  | nil => exact .nil
  | cons hhead htail ih =>
    cases k with
    | zero => exact .cons hac htail
    | succ k => exact .cons hhead (ih k)

namespace Shadows

variable {c : γ}

theorem nil : Shadows p R [] [] := List.Forall₂.nil

theorem length (h : Shadows p R l m) : m.length = rank p l l.length := by
  rw [rank_length]
  exact h.length_eq.symm

theorem get (h : Shadows p R l m) (hi : l[i]? = some a) (ha : p a = true) :
    ∃ c, m[rank p l i]? = some c ∧ R a c := by
  have hrank := getElem?_rank hi ha
  obtain ⟨hlt, hget⟩ := List.getElem?_eq_some_iff.mp hrank
  have hlt' : rank p l i < m.length := by rwa [← h.length_eq]
  refine ⟨m[rank p l i], List.getElem?_eq_getElem hlt', ?_⟩
  rw [← hget]
  exact List.Forall₂.get h hlt hlt'

theorem append (h : Shadows p R l m) (ha : p a = true) (hac : R a c) :
    Shadows p R (l ++ [a]) (m ++ [c]) := by
  rw [Shadows, List.filter_append, List.filter_cons_of_pos ha]
  exact List.rel_append h (.cons hac .nil)

theorem append_other (h : Shadows p R l m) (ha : p a = false) : Shadows p R (l ++ [a]) m := by
  rwa [Shadows, List.filter_append, List.filter_cons_of_neg (by simpa using ha), List.filter_nil,
    List.append_nil]

theorem set (h : Shadows p R l m) (hi : l[i]? = some a) (ha : p a = true) (hb : p b = true)
    (hbc : R b c) : Shadows p R (l.set i b) (m.set (rank p l i) c) := by
  rw [Shadows, filter_set hi ha hb]
  exact forall₂_set h hbc _

theorem set_other (h : Shadows p R l m) (hi : l[i]? = some a) (ha : p a = false)
    (hb : p b = false) : Shadows p R (l.set i b) m := by
  rwa [Shadows, filter_set_other hi ha hb]

theorem imp {R' : β → γ → Prop} (h : Shadows p R l m) (hR : ∀ a c, R a c → R' a c) :
    Shadows p R' l m :=
  List.Forall₂.imp hR h

end Shadows

end Bench

/-! ### Calls by themselves -/

namespace Gates

open Bench

variable {α : Type} {ours : String → Bool} {g g' : Gates α} {label : String} {call : Nat}
  {answer : Answer α}

/-- The calls of `g'` are those of `g` with the labels that are ours. -/
def Shadow (ours : String → Bool) (g g' : Gates α) : Prop :=
  Shadows (fun gate => ours gate.label) Eq g.calls.toList g'.calls.toList

theorem shadow_iff : Shadow ours g g' ↔
    g'.calls.toList = g.calls.toList.filter fun gate => ours gate.label := by
  rw [Shadow, Shadows, List.forall₂_eq_eq_eq]
  exact eq_comm

/-- A call of ours has a rank among the labels, and among the calls. -/
theorem rank_labels (g : Gates α) (call : Nat) :
    rank ours g.labels call = rank (fun gate => ours gate.label) g.calls.toList call :=
  rank_map _ _

theorem getElem?_labels {g : Gates α} : g.labels[call]? = some label ↔
    ∃ gate, g.calls[call]? = some gate ∧ gate.label = label := by
  rw [labels, List.getElem?_map, Array.getElem?_toList, Option.map_eq_some_iff]

namespace Shadow

/-- A call of ours is the same call under another number. -/
theorem gate (h : Shadow ours g g') (hlabel : g.labels[call]? = some label)
    (hours : ours label = true) : g'.calls[rank ours g.labels call]? = g.calls[call]? := by
  obtain ⟨gate, hgate, rfl⟩ := getElem?_labels.mp hlabel
  obtain ⟨gate', hgate', rfl⟩ := Shadows.get h (Array.getElem?_toList.trans hgate) hours
  rw [rank_labels, ← Array.getElem?_toList, hgate', hgate]

theorem answer? (h : Shadow ours g g') (hlabel : g.labels[call]? = some label)
    (hours : ours label = true) : g'.answer? (rank ours g.labels call) = g.answer? call := by
  rw [Gates.answer?, h.gate hlabel hours, Gates.answer?]

theorem size (h : Shadow ours g g') : g'.calls.size = rank ours g.labels g.calls.size := by
  rw [rank_labels, ← Array.length_toList, ← Array.length_toList]
  exact Shadows.length h

theorem place (h : Shadow ours g g') (hours : ours label = true) :
    Shadow ours (g.place label).2 (g'.place label).2 := by
  rw [Shadow, Gates.place, Gates.place, Array.toList_push, Array.toList_push]
  exact Shadows.append h hours rfl

theorem place_other (h : Shadow ours g g') (hours : ours label = false) :
    Shadow ours (g.place label).2 g' := by
  rw [Shadow, Gates.place, Array.toList_push]
  exact Shadows.append_other h hours

/-- A call of ours is answered in the shadow just where it is answered. -/
theorem give (h : Shadow ours g g') (hlabel : g.labels[call]? = some label)
    (hours : ours label = true) (answer : Answer α) :
    match g.give? call answer with
    | none => g'.give? (rank ours g.labels call) answer = none
    | some gates =>
      ∃ gates', g'.give? (rank ours g.labels call) answer = some gates' ∧ Shadow ours gates gates' := by
  have hsame := h.gate hlabel hours
  obtain ⟨⟨label', answered⟩, hgate, rfl⟩ := getElem?_labels.mp hlabel
  rw [hgate] at hsame
  simp only [give?, hgate, hsame]
  cases answered with
  | some earlier => rfl
  | none =>
    refine ⟨_, rfl, ?_⟩
    rw [Shadow, Array.toList_setIfInBounds, Array.toList_setIfInBounds, rank_labels]
    exact Shadows.set h (Array.getElem?_toList.trans hgate) hours hours rfl

theorem give_other (h : Shadow ours g g') (hlabel : ∀ label, g.labels[call]? = some label →
    ours label = false) {gates : Gates α} (hgive : g.give? call answer = some gates) :
    Shadow ours gates g' := by
  rw [give?] at hgive
  split at hgive
  · next label hgate =>
    cases hgive
    have hours := hlabel label (getElem?_labels.mpr ⟨_, hgate, rfl⟩)
    rw [Shadow, Array.toList_setIfInBounds]
    exact Shadows.set_other h (Array.getElem?_toList.trans hgate) hours hours
  · cases hgive

end Shadow

end Gates

end RingCache

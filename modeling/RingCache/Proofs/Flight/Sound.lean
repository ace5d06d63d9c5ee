import Mathlib.Data.List.Nodup
import Mathlib.Data.List.Perm.Basic
import Mathlib.Tactic.Common
import RingCache.Bench
import RingCache.Flight

/-!
# One turn of a flight

The flights are *sound* if each key is loaded by at most one of them, each under a ticket of its
own, and all that are live have not ended. A flight that ends frees its key, and so no other flight
ends with it (`Sound.live_finish`). A task that takes part in a flight has a *plight*: it
plays a role, it was told an outcome, or it is gone. `Boards` says what a first turn may do to the flights
and to the plight of the task, `Flies` what a later turn may do, a drop included.

Both keep the flights sound, leave every flight alone that is not the task's own, and change the
live flights just as the plight says.
-/

namespace RingCache.Flights

variable {α : Type} {f f' : Flights α} {key : String} {ticket : Nat}

/-- Each key has one live flight, and live flights have not ended. -/
structure Sound (f : Flights α) : Prop where
  keys : (f.live.map Prod.fst).Nodup
  tickets : (f.live.map Prod.snd).Nodup
  airborne : ∀ e ∈ f.live, f.phases[e.2]? = some .airborne

theorem sound_empty : (empty : Flights α).Sound :=
  ⟨List.nodup_nil, List.nodup_nil, nofun⟩

/-- Begins a flight of `key`. -/
def board (f : Flights α) (key : String) : Flights α :=
  ⟨(key, f.phases.size) :: f.live, f.phases.push .airborne⟩

theorem join_of_none (h : f.live.lookup key = none) :
    f.join key = (.leader f.phases.size, f.board key) := by
  simp only [join, h, board]

theorem join_of_some (h : f.live.lookup key = some ticket) : f.join key = (.waiter ticket, f) := by
  simp only [join, h]

@[simp] theorem phases_finish (f : Flights α) (ticket : Nat) (phase : Phase α) (t : Nat) :
    (f.finish ticket phase).phases[t]? =
      if t = ticket then f.phases[t]?.map fun _ => phase else f.phases[t]? := by
  rw [finish, Array.getElem?_setIfInBounds]
  by_cases ht : t = ticket
  · subst ht
    rw [if_pos rfl, if_pos rfl]
    by_cases hlt : t < f.phases.size
    · simp [hlt]
    · simp [hlt]
  · rw [if_neg (Ne.symm ht), if_neg ht]

/-- The flight that was begun last ends, and leaves those that were there before. -/
theorem live_finish_last {others : List (String × Nat)} (hlive : f.live = (key, ticket) :: others)
    (hfree : others.lookup key = none) (phase : Phase α) :
    (f.finish ticket phase).live = others := by
  have hkey : f.key? ticket = some key := by simp [key?, hlive]
  have hothers : others.filter (fun e => e.1 != key) = others := by
    refine List.filter_eq_self.mpr fun e he => ?_
    have hne := List.lookup_eq_none_iff.mp hfree e he
    simpa [bne, Bool.beq_comm] using hne
  rw [finish, hkey]
  show f.live.filter _ = others
  rw [hlive, List.filter_cons_of_neg (by simp), hothers]

namespace Sound

theorem ticket_lt (h : f.Sound) (hlive : (key, ticket) ∈ f.live) : ticket < f.phases.size :=
  (Array.getElem?_eq_some_iff.mp (h.airborne _ hlive)).1

theorem lookup_eq_some (h : f.Sound) :
    f.live.lookup key = some ticket ↔ (key, ticket) ∈ f.live := by
  constructor
  · intro hlookup
    obtain ⟨front, back, hlive, -⟩ := List.lookup_eq_some_iff.mp hlookup
    rw [hlive]
    exact List.mem_append_right _ List.mem_cons_self
  · intro hlive
    cases hlookup : f.live.lookup key with
    | none =>
      have := List.lookup_eq_none_iff.mp hlookup _ hlive
      simp at this
    | some t =>
      obtain ⟨front, back, hmem, -⟩ := List.lookup_eq_some_iff.mp hlookup
      have ht : (key, t) ∈ f.live := hmem ▸ List.mem_append_right _ List.mem_cons_self
      have := List.inj_on_of_nodup_map h.keys ht hlive rfl
      rw [(Prod.mk.inj this).2]

/-- A live flight has no outcome yet. -/
theorem outcome?_live (h : f.Sound) (hlive : (key, ticket) ∈ f.live) :
    f.outcome? ticket = none := by
  rw [outcome?, h.airborne _ hlive]

theorem board (h : f.Sound) (hkey : f.live.lookup key = none) : (f.board key).Sound := by
  refine ⟨List.nodup_cons.mpr ⟨?_, h.keys⟩, List.nodup_cons.mpr ⟨?_, h.tickets⟩, ?_⟩
  · intro hmem
    obtain ⟨⟨k, t⟩, he, rfl⟩ := List.mem_map.mp hmem
    rw [h.lookup_eq_some.mpr he] at hkey
    cases hkey
  · intro hmem
    -- every ticket in use is smaller than the new one
    obtain ⟨⟨k, t⟩, he, ht⟩ := List.mem_map.mp hmem
    have ht : t = f.phases.size := ht
    exact Nat.lt_irrefl _ (ht ▸ h.ticket_lt he)
  · intro e he
    rcases List.mem_cons.mp he with rfl | he
    · exact Array.getElem?_push_size
    · show (f.phases.push _)[e.2]? = _
      rw [Array.getElem?_push, if_neg (Nat.ne_of_lt (h.ticket_lt he)), h.airborne e he]

/-- **To free the key of a flight is to end this flight alone**: no other one has its key, and none
has its ticket. -/
theorem live_finish (h : f.Sound) (ticket : Nat) (phase : Phase α) :
    (f.finish ticket phase).live = f.live.filter fun e => e.2 != ticket := by
  show (f.key? ticket).elim f.live f.free = _
  cases hfind : f.live.find? (fun e => e.2 == ticket) with
  | none =>
    -- a flight that is not live frees no key
    rw [key?, hfind]
    refine (List.filter_eq_self.mpr fun e he => ?_).symm
    simpa using List.find?_eq_none.mp hfind e he
  | some own =>
    have hown : own ∈ f.live := List.mem_of_find?_eq_some hfind
    have hticket : own.2 = ticket := by simpa using List.find?_some hfind
    rw [key?, hfind]
    refine List.filter_congr fun e he => ?_
    have hsame : e.1 = own.1 ↔ e.2 = ticket := by
      rw [← hticket]
      constructor
      · intro hkey
        rw [List.inj_on_of_nodup_map h.keys he hown hkey]
      · intro ht
        rw [List.inj_on_of_nodup_map h.tickets he hown ht]
    rw [Bool.eq_iff_iff, bne_iff_ne, bne_iff_ne]
    exact not_congr hsame

theorem live_finish_subset (h : f.Sound) (ticket : Nat) (phase : Phase α) :
    (f.finish ticket phase).live ⊆ f.live := by
  rw [h.live_finish]
  exact List.filter_subset_self _

theorem finish (h : f.Sound) (ticket : Nat) (phase : Phase α) : (f.finish ticket phase).Sound := by
  have hlive := h.live_finish ticket phase
  have hsub : (f.finish ticket phase).live.Sublist f.live := hlive ▸ List.filter_sublist
  refine ⟨h.keys.sublist (hsub.map _), h.tickets.sublist (hsub.map _), ?_⟩
  intro e he
  rw [hlive] at he
  obtain ⟨he, hne⟩ := List.mem_filter.mp he
  rw [phases_finish, if_neg (by simpa using hne)]
  exact h.airborne e he

end Sound

/-! ### Plights -/

/-- How a task that takes part in a flight has fared. -/
inductive Plight (α : Type) where
  /-- it leads a flight or waits for one -/
  | plays (role : Role)
  /-- it was told an outcome, its own or one that is shared with it -/
  | told (shared : Bool) (outcome : Answer α)
  /-- it had no need of a flight -/
  | aside
  /-- it was dropped -/
  | gone

/-- What a first turn may come to. -/
inductive Boards (f : Flights α) (key : String) : Flights α → Plight α → Prop where
  | aside : Boards f key f .aside
  | lead (hkey : f.live.lookup key = none) :
      Boards f key (f.board key) (.plays (.leader f.phases.size))
  | atOnce (hkey : f.live.lookup key = none) (outcome : Answer α) :
      Boards f key ((f.board key).land f.phases.size outcome) (.told false outcome)
  | follow {ticket : Nat} (hkey : f.live.lookup key = some ticket) :
      Boards f key f (.plays (.waiter ticket))

/-- What a later turn may come to. -/
inductive Flies (f : Flights α) : Role → Flights α → Plight α → Prop where
  | fly (ticket : Nat) : Flies f (.leader ticket) f (.plays (.leader ticket))
  | land (ticket : Nat) (outcome : Answer α) :
      Flies f (.leader ticket) (f.land ticket outcome) (.told false outcome)
  | lose (ticket : Nat) : Flies f (.leader ticket) (f.abandon ticket) .gone
  | wait {ticket : Nat} (hnone : f.outcome? ticket = none) :
      Flies f (.waiter ticket) f (.plays (.waiter ticket))
  | share {ticket : Nat} {outcome : Answer α} (hsome : f.outcome? ticket = some outcome) :
      Flies f (.waiter ticket) f (.told true outcome)
  | leave (ticket : Nat) : Flies f (.waiter ticket) f .gone

/-- The live flight that a plight stands for. -/
def Plight.flight (key : String) : Plight α → Option (String × Nat)
  | .plays (.leader ticket) => some (key, ticket)
  | _ => none

namespace Boards

variable {p : Plight α}

theorem sound (h : Boards f key f' p) (hf : f.Sound) : f'.Sound := by
  cases h with
  | aside | follow hkey => exact hf
  | lead hkey => exact hf.board hkey
  | atOnce hkey outcome => exact (hf.board hkey).finish _ _

theorem phases (h : Boards f key f' p) {t : Nat} (ht : t < f.phases.size) :
    f'.phases[t]? = f.phases[t]? := by
  have hpush : (f.board key).phases[t]? = f.phases[t]? := by
    rw [board, Array.getElem?_push, if_neg (Nat.ne_of_lt ht)]
  cases h with
  | aside | follow hkey => rfl
  | lead hkey => exact hpush
  | atOnce hkey outcome =>
    rw [Flights.land, phases_finish, if_neg (Nat.ne_of_lt ht), hpush]

theorem live (h : Boards f key f' p) : f'.live = (p.flight key).toList ++ f.live := by
  cases h with
  | aside | lead hkey | follow hkey => rfl
  | atOnce hkey outcome =>
    exact live_finish_last rfl hkey _

end Boards

namespace Flies

variable {role : Role} {p : Plight α}

theorem sound (h : Flies f role f' p) (hf : f.Sound) : f'.Sound := by
  cases h with
  | fly | wait hnone | share hsome | leave => exact hf
  | land ticket outcome => exact hf.finish _ _
  | lose ticket => exact hf.finish _ _

/-- Only a leader may touch a flight, and only its own. -/
theorem phases (h : Flies f role f' p) {t : Nat} (ht : role ≠ .leader t) :
    f'.phases[t]? = f.phases[t]? := by
  cases h with
  | fly | wait hnone | share hsome | leave => rfl
  | land ticket outcome =>
    have hne : t ≠ ticket := fun heq => ht (heq ▸ rfl)
    rw [Flights.land, phases_finish, if_neg hne]
  | lose ticket =>
    have hne : t ≠ ticket := fun heq => ht (heq ▸ rfl)
    rw [abandon, phases_finish, if_neg hne]

/-- The live flights but the task's own stay. -/
theorem live (h : Flies f role f' p) (hf : f.Sound) {others : List (String × Nat)}
    (hlive : f.live.Perm (((Plight.plays role : Plight α).flight key).toList ++ others)) :
    f'.live.Perm ((p.flight key).toList ++ others) := by
  -- no other live flight has the ticket of the one that ends
  have hfinish : ∀ {ticket : Nat} {phase : Phase α}, f.live.Perm ((key, ticket) :: others) →
      (f.finish ticket phase).live.Perm others := by
    intro ticket phase hlive
    have hnodup := (hlive.map Prod.snd).nodup_iff.mp hf.tickets
    rw [List.map_cons, List.nodup_cons] at hnodup
    have hothers : others.filter (fun e => e.2 != ticket) = others := by
      apply List.filter_eq_self.mpr
      intro e he
      have hne : e.2 ≠ ticket := by
        intro heq
        exact hnodup.1 (List.mem_map.mpr ⟨e, he, heq⟩)
      simpa using hne
    have hfilter := hlive.filter fun e => e.2 != ticket
    rw [hf.live_finish]
    rwa [List.filter_cons_of_neg (by simp), hothers] at hfilter
  cases h with
  | fly | wait hnone | share hsome | leave => exact hlive
  | land ticket outcome => exact hfinish hlive
  | lose ticket => exact hfinish hlive

end Flies

end RingCache.Flights

import Mathlib.Data.List.Nodup
import Mathlib.Data.List.Perm.Basic
import Mathlib.Tactic.Common
import RingCache.Proofs.Bench.Run
import RingCache.Proofs.Flight.Sound

/-!
# Crews: tasks that take part in flights

A *crew* says how tasks of some kind take part in flights: which key one asks for, which role a
waiting task plays, and what a task that is told an outcome comes to. Its laws say that each turn of
a task is one of those that `Boards` and `Flies` list. Whatever else the tasks do is their own
matter.

For every run of such tasks:

* `Crew.manned`: the live flights are those of the waiting leaders, one to one, so that each key has
  at most one leader (`Manned.leader_unique`);
* `Crew.headsAt_after`: who began a flight stays its leader, and its end is that of the flight;
* `Crew.followsAt_after`: who joined a flight is told the outcome of that flight and of no other.
-/

namespace RingCache.Flights

open Bench

/-! ### Places in a list that is filtered -/

section FilterMap

variable {β γ δ : Type} {f : β → Option γ} {l : List β}

/-- What one place adds to a filtered list, whatever stands there. -/
theorem filterMap_set_perm {i : Nat} {a : β} (hi : l[i]? = some a) :
    ∃ others, (l.filterMap f).Perm ((f a).toList ++ others) ∧
      ∀ b, ((l.set i b).filterMap f).Perm ((f b).toList ++ others) := by
  obtain ⟨hlt, rfl⟩ := List.getElem?_eq_some_iff.mp hi
  have hcons : ∀ b, (b :: l.eraseIdx i).filterMap f =
      (f b).toList ++ (l.eraseIdx i).filterMap f := by
    intro b
    rw [List.filterMap_cons]
    cases f b <;> rfl
  refine ⟨(l.eraseIdx i).filterMap f, ?_, ?_⟩
  · rw [← hcons]
    exact (List.getElem_cons_eraseIdx_perm hlt).symm.filterMap f
  · intro b
    rw [← hcons]
    exact (List.set_perm_cons_eraseIdx hlt b).filterMap f

/-- Where nothing is left twice, it is left by one place. -/
theorem eq_of_nodup_filterMap {g : γ → δ} (hnodup : ((l.filterMap f).map g).Nodup) {i j : Nat}
    {u v : γ} (hi : l[i]?.bind f = some u) (hj : l[j]?.bind f = some v) (huv : g u = g v) :
    i = j := by
  rw [List.Nodup, List.pairwise_map, List.pairwise_filterMap, List.pairwise_iff_getElem] at hnodup
  obtain ⟨a, ha, hu⟩ := Option.bind_eq_some_iff.mp hi
  obtain ⟨b, hb, hv⟩ := Option.bind_eq_some_iff.mp hj
  obtain ⟨hilt, rfl⟩ := List.getElem?_eq_some_iff.mp ha
  obtain ⟨hjlt, rfl⟩ := List.getElem?_eq_some_iff.mp hb
  rcases Nat.lt_trichotomy i j with hij | hij | hij
  · exact absurd huv (hnodup i j hilt hjlt hij u hu v hv)
  · exact hij
  · exact absurd huv.symm (hnodup j i hjlt hilt hij v hv u hu)

end FilterMap

/-! ### Crews -/

/-- How tasks are seen from the flights that they take part in. -/
structure Parts (τ ρ κ α : Type) where
  /-- the key that is asked for -/
  key : κ → String
  /-- the role that a waiting task plays -/
  role : τ → Option Role
  /-- what one comes to who is told an outcome -/
  tell : κ → Bool → Answer α → ρ
  /-- whether a waiting task belongs to what was asked -/
  suits : κ → τ → Prop

namespace Parts

variable {σ τ ρ κ α : Type}

/-- What has become of a task shows its plight. -/
inductive Shows (c : Parts τ ρ κ α) (ask : κ) : Fate τ ρ → Plight α → Prop where
  | plays {task : τ} {role : Role} (hsuits : c.suits ask task) (hrole : c.role task = some role) :
      Shows c ask (.waiting task) (.plays role)
  | told (shared : Bool) (outcome : Answer α) :
      Shows c ask (.finished (c.tell ask shared outcome)) (.told shared outcome)
  | aside (result : ρ) : Shows c ask (.finished result) .aside
  | gone : Shows c ask .dropped .gone

/-- The live flight that a card stands for, with its key. -/
def flight (c : Parts τ ρ κ α) : Card κ τ ρ → Option (String × Nat)
  | (ask, .waiting task) =>
    match c.role task with
    | some (.leader ticket) => some (c.key ask, ticket)
    | _ => none
  | _ => none

/-- The task at place `i` leads the flight `ticket` of `key`. -/
def Leads (c : Parts τ ρ κ α) (x : Scene σ τ ρ κ α) (i : Nat) (key : String) (ticket : Nat) :
    Prop :=
  x.cards[i]?.bind c.flight = some (key, ticket)

/-- How one fares who began the flight `ticket`. -/
inductive Heads (c : Parts τ ρ κ α) (f : Flights α) (ask : κ) (ticket : Nat) : Fate τ ρ → Prop where
  | flying {task : τ} (hrole : c.role task = some (.leader ticket))
      (hphase : f.phases[ticket]? = some .airborne) : Heads c f ask ticket (.waiting task)
  | landed {outcome : Answer α} (hphase : f.phases[ticket]? = some (.landed outcome)) :
      Heads c f ask ticket (.finished (c.tell ask false outcome))
  | lost (hphase : f.phases[ticket]? = some .lost) : Heads c f ask ticket .dropped

/-- How one fares who joined the flight `ticket`. -/
inductive Follows (c : Parts τ ρ κ α) (f : Flights α) (ask : κ) (ticket : Nat) :
    Fate τ ρ → Prop where
  | waits {task : τ} (hrole : c.role task = some (.waiter ticket)) :
      Follows c f ask ticket (.waiting task)
  | shares {outcome : Answer α} (hsome : f.outcome? ticket = some outcome) :
      Follows c f ask ticket (.finished (c.tell ask true outcome))
  | left : Follows c f ask ticket .dropped

variable {c : Parts τ ρ κ α} {f : Flights α} {ask : κ} {fate : Fate τ ρ} {p : Plight α}

theorem Shows.flight_eq (h : c.Shows ask fate p) : c.flight (ask, fate) = p.flight (c.key ask) := by
  cases h with
  | plays hsuits hrole =>
    simp only [flight, hrole]
    split <;> simp_all [Plight.flight]
  | told shared outcome | aside result | gone => rfl

theorem flight_eq_some {card : Card κ τ ρ} {key : String} {ticket : Nat} :
    c.flight card = some (key, ticket) ↔ ∃ ask task, card = (ask, .waiting task) ∧
      c.role task = some (.leader ticket) ∧ c.key ask = key := by
  constructor
  · intro h
    obtain ⟨ask, fate⟩ := card
    cases fate with
    | waiting task =>
      simp only [flight] at h
      split at h
      · next t hrole =>
        cases h
        exact ⟨ask, task, rfl, hrole, rfl⟩
      · cases h
    | finished result | dropped => cases h
  · rintro ⟨ask, task, rfl, hrole, rfl⟩
    simp only [flight, hrole]

theorem leads_of_role {x : Scene σ τ ρ κ α} {i ticket : Nat} {task : τ}
    (hcard : x.cards[i]? = some (ask, .waiting task))
    (hrole : c.role task = some (.leader ticket)) : c.Leads x i (c.key ask) ticket := by
  rw [Leads, hcard]
  exact flight_eq_some.mpr ⟨ask, task, rfl, hrole, rfl⟩

/-- What one is told who joined a flight is how its leader fared. -/
theorem Follows.told {r : ρ} {ask' : κ} {fate' : Fate τ ρ} {ticket : Nat}
    (h : c.Follows f ask ticket (.finished r)) (hheads : c.Heads f ask' ticket fate') :
    (∃ outcome, fate' = .finished (c.tell ask' false outcome) ∧ r = c.tell ask true outcome) ∨
      (fate' = .dropped ∧ r = c.tell ask true (.error abandoned)) := by
  cases h with
  | shares hsome =>
    cases hheads with
    | flying hrole hphase =>
      rw [outcome?, hphase] at hsome
      cases hsome
    | landed hphase =>
      rw [outcome?, hphase] at hsome
      cases hsome
      exact .inl ⟨_, rfl, rfl⟩
    | lost hphase =>
      rw [outcome?, hphase] at hsome
      cases hsome
      exact .inr ⟨rfl, rfl⟩

end Parts

/-- Tasks that take part in flights, with the laws of their turns. -/
structure Crew (σ τ ρ κ α : Type) [Resumable σ τ ρ α] [Asking κ τ] extends Parts τ ρ κ α where
  flights : σ → Flights α
  /-- whether one finds without a flight what is asked for -/
  served : σ → κ → Prop
  plays_role : ∀ {ask : κ} {task : τ}, suits ask task → ∃ r, role task = some r
  begins : ∀ {s : σ} {g : Gates α} {ask : κ} {s' : σ} {g' : Gates α} {next : τ ⊕ ρ},
    (flights s).Sound → Resumable.resume s g (Asking.fresh ask : τ) = (s', g', next) →
    ∃ p, Boards (flights s) (key ask) (flights s') p ∧ toParts.Shows ask (.of next) p ∧
      (p = .aside ↔ served s ask)
  turns : ∀ {s : σ} {g : Gates α} {ask : κ} {task : τ} {r : Role} {s' : σ} {g' : Gates α}
    {next : τ ⊕ ρ}, (flights s).Sound → suits ask task → role task = some r →
    Resumable.resume s g task = (s', g', next) →
    ∃ p, Flies (flights s) r (flights s') p ∧ toParts.Shows ask (.of next) p
  leaves : ∀ {ask : κ} {task : τ} {r : Role} (s : σ), suits ask task → role task = some r →
    Flies (flights s) r (flights (Resumable.abandon α s task)) .gone

namespace Crew

variable {σ τ ρ κ α : Type} [Resumable σ τ ρ α] [Asking κ τ] {c : Crew σ τ ρ κ α}
  {x y : Scene σ τ ρ κ α} {step : Step κ α} {i : Nat} {ask : κ} {fate : Fate τ ρ} {ticket : Nat}

/-- Each live flight has one leader among the waiting tasks. -/
structure Manned (c : Crew σ τ ρ κ α) (x : Scene σ τ ρ κ α) : Prop where
  sound : (c.flights x.state).Sound
  roster : (c.flights x.state).live.Perm (x.cards.filterMap c.flight)
  suits : ∀ (i : Nat) (ask : κ) (task : τ), x.cards[i]? = some (ask, .waiting task) →
    c.suits ask task

/-- What a step does to the flights and to the cards. -/
inductive Turn (c : Crew σ τ ρ κ α) (x : Scene σ τ ρ κ α) : Step κ α → Scene σ τ ρ κ α → Prop where
  | still {step : Step κ α} {y : Scene σ τ ρ κ α}
      (hflights : c.flights y.state = c.flights x.state) (hcards : y.cards = x.cards) :
      Turn c x step y
  | boards {id : Int} {ask : κ} {fate : Fate τ ρ} {p : Plight α} {y : Scene σ τ ρ κ α}
      (hcards : y.cards = x.cards ++ [(ask, fate)])
      (hboards : Boards (c.flights x.state) (c.key ask) (c.flights y.state) p)
      (hshows : c.Shows ask fate p) (hserved : p = .aside ↔ c.served x.state ask) :
      Turn c x (.start id ask) y
  | flies {step : Step κ α} {i : Nat} {ask : κ} {task : τ} {role : Role} {fate : Fate τ ρ}
      {p : Plight α} {y : Scene σ τ ρ κ α}
      (hcard : x.cards[i]? = some (ask, .waiting task)) (hrole : c.role task = some role)
      (hcards : y.cards = x.cards.set i (ask, fate))
      (hflies : Flies (c.flights x.state) role (c.flights y.state) p)
      (hshows : c.Shows ask fate p) : Turn c x step y

theorem Manned.turn (hx : c.Manned x) (h : x.Goes step y) : c.Turn x step y := by
  cases h with
  | start hresume =>
    obtain ⟨p, hboards, hshows, hserved⟩ := c.begins hx.sound hresume
    exact .boards rfl hboards hshows hserved
  | resume hcard hresume =>
    have hsuits := hx.suits _ _ _ hcard
    obtain ⟨role, hrole⟩ := c.plays_role hsuits
    obtain ⟨p, hflies, hshows⟩ := c.turns hx.sound hsuits hrole hresume
    exact .flies hcard hrole rfl hflies hshows
  | give hgive => exact .still rfl rfl
  | drop hcard =>
    have hsuits := hx.suits _ _ _ hcard
    obtain ⟨role, hrole⟩ := c.plays_role hsuits
    exact .flies hcard hrole rfl (c.leaves _ hsuits hrole) .gone
  | idle hidle => exact .still rfl rfl

/-- **Each step keeps the flights manned.** -/
theorem Turn.manned (h : c.Turn x step y) (hx : c.Manned x) : c.Manned y := by
  cases h with
  | still hflights hcards =>
    refine ⟨hflights ▸ hx.sound, ?_, ?_⟩
    · rw [hflights, hcards]
      exact hx.roster
    · rw [hcards]
      exact hx.suits
  | @boards id ask fate p y hcards hboards hshows hserved =>
    refine ⟨hboards.sound hx.sound, ?_, ?_⟩
    · have hnew : [(ask, fate)].filterMap c.flight = (p.flight (c.key ask)).toList := by
        rw [List.filterMap_cons, hshows.flight_eq]
        cases p.flight (c.key ask) <;> rfl
      rw [hcards, List.filterMap_append, hnew, hboards.live]
      exact (List.perm_append_comm).trans (hx.roster.append_right _)
    · intro j ask' task' hj
      rw [hcards, List.getElem?_append] at hj
      split at hj
      · exact hx.suits j ask' task' hj
      · cases List.mem_singleton.mp (List.mem_of_getElem? hj)
        cases hshows with
        | plays hsuits hrole => exact hsuits
  | @flies step i ask task role fate p y hcard hrole hcards hflies hshows =>
    refine ⟨hflies.sound hx.sound, ?_, ?_⟩
    · -- the card of the task gives way to the new one, and all other cards stay
      obtain ⟨others, hold, hnew⟩ := filterMap_set_perm (f := c.flight) hcard
      have hflight : c.flight (ask, .waiting task) =
          (Plight.plays role : Plight α).flight (c.key ask) :=
        (Parts.Shows.plays (hx.suits _ _ _ hcard) hrole).flight_eq
      rw [hflight] at hold
      have hlive := hflies.live hx.sound (hx.roster.trans hold)
      rw [hcards]
      refine hlive.trans (List.Perm.symm ?_)
      rw [← hshows.flight_eq]
      exact hnew (ask, fate)
    · intro j ask' task' hj
      rw [hcards, List.getElem?_set] at hj
      split at hj
      · split at hj
        · cases hj
          cases hshows with
          | plays hsuits hrole => exact hsuits
        · cases hj
      · exact hx.suits j ask' task' hj

theorem manned_init {s : σ} (hs : c.flights s = .empty) : c.Manned (scene s []) := by
  refine ⟨?_, ?_, nofun⟩
  · show (c.flights s).Sound
    rw [hs]
    exact sound_empty
  · show (c.flights s).live.Perm []
    rw [hs]
    exact .nil

/-- **In every run the flights are manned.** -/
theorem manned {s : σ} (hs : c.flights s = .empty) (steps : List (Step κ α)) :
    c.Manned (scene s steps) := by
  refine run_induction (fun _ x => c.Manned x) [] (manned_init hs) ?_ steps
  intro steps step hx
  exact (hx.turn (scene_goes s steps step)).manned hx

namespace Manned

variable {key : String}

theorem leads_airborne (hx : c.Manned x) (hi : c.Leads x i key ticket) :
    (key, ticket) ∈ (c.flights x.state).live ∧
      (c.flights x.state).phases[ticket]? = some .airborne := by
  obtain ⟨card, hcard, hflight⟩ := Option.bind_eq_some_iff.mp hi
  have hlive : (key, ticket) ∈ (c.flights x.state).live :=
    hx.roster.mem_iff.mpr (List.mem_filterMap.mpr ⟨card, List.mem_of_getElem? hcard, hflight⟩)
  exact ⟨hlive, hx.sound.airborne _ hlive⟩

/-- A key is free if it has no leader, and its flight is that of its leader. -/
theorem lookup_eq_some (hx : c.Manned x) :
    (c.flights x.state).live.lookup key = some ticket ↔ ∃ i, c.Leads x i key ticket := by
  rw [hx.sound.lookup_eq_some]
  refine ⟨?_, fun ⟨i, hi⟩ => (hx.leads_airborne hi).1⟩
  intro hlive
  obtain ⟨card, hmem, hflight⟩ := List.mem_filterMap.mp (hx.roster.mem_iff.mp hlive)
  obtain ⟨i, hi⟩ := List.getElem?_of_mem hmem
  exact ⟨i, Option.bind_eq_some_iff.mpr ⟨card, hi, hflight⟩⟩

/-- **Each key has at most one leader.** -/
theorem leader_unique (hx : c.Manned x) {j t : Nat} (hi : c.Leads x i key ticket)
    (hj : c.Leads x j key t) : i = j := by
  have hkeys := (hx.roster.map Prod.fst).nodup_iff.mp hx.sound.keys
  exact eq_of_nodup_filterMap hkeys hi hj rfl

/-- Each flight has at most one leader. -/
theorem ticket_unique (hx : c.Manned x) {j : Nat} {key' : String} (hi : c.Leads x i key ticket)
    (hj : c.Leads x j key' ticket) : i = j := by
  have htickets := (hx.roster.map Prod.snd).nodup_iff.mp hx.sound.tickets
  exact eq_of_nodup_filterMap htickets hi hj rfl

/-- The keys that are being loaded are counted by their leaders. -/
theorem inFlight_eq (hx : c.Manned x) :
    (c.flights x.state).inFlight = x.cards.countP fun card => (c.flight card).isSome := by
  rw [inFlight, hx.roster.length_eq, List.length_filterMap_eq_countP]

end Manned

/-! ### Bonds to one flight -/

/-- The task at place `i` asked so and began the flight `ticket`. -/
def HeadsAt (c : Crew σ τ ρ κ α) (x : Scene σ τ ρ κ α) (i : Nat) (ask : κ) (ticket : Nat) : Prop :=
  ∃ fate, x.cards[i]? = some (ask, fate) ∧ c.Heads (c.flights x.state) ask ticket fate

/-- The task at place `i` asked so and joined the flight `ticket`. -/
def FollowsAt (c : Crew σ τ ρ κ α) (x : Scene σ τ ρ κ α) (i : Nat) (ask : κ) (ticket : Nat) :
    Prop :=
  ∃ fate, x.cards[i]? = some (ask, fate) ∧ c.Follows (c.flights x.state) ask ticket fate

theorem Manned.headsAt (hx : c.Manned x) {key : String} (hi : c.Leads x i key ticket) :
    ∃ ask, c.key ask = key ∧ c.HeadsAt x i ask ticket := by
  obtain ⟨card, hcard, hflight⟩ := Option.bind_eq_some_iff.mp hi
  obtain ⟨ask, task, rfl, hrole, hkey⟩ := Parts.flight_eq_some.mp hflight
  exact ⟨ask, hkey, _, hcard, .flying hrole (hx.leads_airborne hi).2⟩

/-- How the task at place `i` fares in a step: either it stays as it is, and with it each flight
that no other task leads, or it takes its turn. -/
theorem Turn.fares (h : c.Turn x step y) (hi : x.cards[i]? = some (ask, fate)) :
    (y.cards[i]? = some (ask, fate) ∧ ∀ ticket < (c.flights x.state).phases.size,
        (∀ key j, c.Leads x j key ticket → j = i) →
          (c.flights y.state).phases[ticket]? = (c.flights x.state).phases[ticket]?) ∨
      ∃ task role fate' p, fate = .waiting task ∧ c.role task = some role ∧
        y.cards[i]? = some (ask, fate') ∧
        Flies (c.flights x.state) role (c.flights y.state) p ∧ c.Shows ask fate' p := by
  have hlt : i < x.cards.length := (List.getElem?_eq_some_iff.mp hi).1
  cases h with
  | still hflights hcards =>
    rw [hflights, hcards]
    exact .inl ⟨hi, fun _ _ _ => rfl⟩
  | boards hcards hboards hshows hserved =>
    refine .inl ⟨?_, fun ticket hticket _ => hboards.phases hticket⟩
    rw [hcards, List.getElem?_append_left hlt, hi]
  | @flies step j ask' task role fate' p y hcard hrole hcards hflies hshows =>
    by_cases hij : j = i
    · subst hij
      rw [hi] at hcard
      cases hcard
      refine .inr ⟨task, role, fate', p, rfl, hrole, ?_, hflies, hshows⟩
      rw [hcards, List.getElem?_set_self hlt]
    · refine .inl ⟨by rw [hcards, List.getElem?_set_ne hij, hi], fun ticket _ hlead => ?_⟩
      apply hflies.phases
      rintro rfl
      exact hij (hlead _ _ (Parts.leads_of_role hcard hrole))

/-- **Who began a flight stays its leader**, and its end is that of the flight. -/
theorem Turn.headsAt (h : c.Turn x step y) (hx : c.Manned x) (hi : c.HeadsAt x i ask ticket) :
    c.HeadsAt y i ask ticket := by
  obtain ⟨fate, hfate, hheads⟩ := hi
  rcases h.fares hfate with
    ⟨hstays, hphases⟩ | ⟨task, role, fate', p, rfl, hrole, hnew, hflies, hshows⟩
  · have hsame : (c.flights y.state).phases[ticket]? = (c.flights x.state).phases[ticket]? := by
      cases hheads with
      | flying hrole hphase =>
        apply hphases ticket (Array.getElem?_eq_some_iff.mp hphase).1
        intro key j hj
        exact hx.ticket_unique hj (Parts.leads_of_role hfate hrole)
      | landed hphase | lost hphase =>
        -- a flight that has ended is led by nobody
        apply hphases ticket (Array.getElem?_eq_some_iff.mp hphase).1
        intro key j hj
        rw [(hx.leads_airborne hj).2] at hphase
        cases hphase
    refine ⟨fate, hstays, ?_⟩
    cases hheads with
    | flying hrole hphase => exact .flying hrole (hsame.trans hphase)
    | landed hphase => exact .landed (hsame.trans hphase)
    | lost hphase => exact .lost (hsame.trans hphase)
  · -- the leader itself: it flies on, lands or is lost
    refine ⟨fate', hnew, ?_⟩
    cases hheads with
    | flying hrole' hphase =>
      rw [hrole'] at hrole
      cases hrole
      have hfinish : ∀ phase : Phase α,
          ((c.flights x.state).finish ticket phase).phases[ticket]? = some phase := by
        intro phase
        rw [phases_finish, if_pos rfl, hphase]
        rfl
      generalize c.flights y.state = f' at hflies ⊢
      cases hflies with
      | fly =>
        cases hshows with
        | plays hsuits hrole => exact .flying hrole hphase
      | land ticket outcome =>
        cases hshows with
        | told => exact .landed (hfinish _)
      | lose =>
        cases hshows with
        | gone => exact .lost (hfinish _)

/-- **Who joined a flight is told the outcome of that flight** and of no other. -/
theorem Turn.followsAt (h : c.Turn x step y) (hx : c.Manned x) (hi : c.FollowsAt x i ask ticket) :
    c.FollowsAt y i ask ticket := by
  obtain ⟨fate, hfate, hfollows⟩ := hi
  rcases h.fares hfate with
    ⟨hstays, hphases⟩ | ⟨task, role, fate', p, rfl, hrole, hnew, hflies, hshows⟩
  · refine ⟨fate, hstays, ?_⟩
    cases hfollows with
    | waits hrole => exact .waits hrole
    | @shares outcome hsome =>
      have hlt : ticket < (c.flights x.state).phases.size := by
        by_contra hge
        rw [outcome?, Array.getElem?_eq_none (Nat.le_of_not_lt hge)] at hsome
        cases hsome
      refine .shares ?_
      rw [outcome?, hphases ticket hlt, ← outcome?, hsome]
      -- a flight with an outcome is led by nobody
      intro key j hj
      rw [outcome?, (hx.leads_airborne hj).2] at hsome
      cases hsome
    | left => exact .left
  · -- the waiter itself: it waits on, shares the outcome or leaves
    refine ⟨fate', hnew, ?_⟩
    cases hfollows with
    | waits hrole' =>
      rw [hrole'] at hrole
      cases hrole
      generalize c.flights y.state = f' at hflies ⊢
      cases hflies with
      | wait hnone =>
        cases hshows with
        | plays hsuits hrole => exact .waits hrole
      | share hsome =>
        cases hshows with
        | told => exact .shares hsome
      | leave =>
        cases hshows with
        | gone => exact .left

/-- **A task begins** as a leader if its key is free, else it joins the leader of its key, unless it
finds at hand what it asks for. -/
theorem Manned.begun (hx : c.Manned x) {id : Int} (h : x.Goes (.start id ask) y)
    (hserved : ¬ c.served x.state ask) :
    ((c.flights x.state).live.lookup (c.key ask) = none ∧
        c.HeadsAt y x.cards.length ask (c.flights x.state).phases.size) ∨
      ∃ j t, c.Leads x j (c.key ask) t ∧ c.FollowsAt y x.cards.length ask t := by
  cases h with
  | idle hidle => exact hidle.elim
  | @start id ask s g next hresume =>
    obtain ⟨p, hboards, hshows, hiff⟩ := c.begins hx.sound hresume
    have hnew : (x.cards ++ [(ask, Fate.of next)])[x.cards.length]? = some (ask, .of next) :=
      List.getElem?_concat_length
    have hpush : ((c.flights x.state).board (c.key ask)).phases[(c.flights x.state).phases.size]? =
        some .airborne := Array.getElem?_push_size
    generalize hf : c.flights s = f' at hboards
    generalize Fate.of next = fate at hshows hnew
    cases hboards with
    | aside => exact absurd (hiff.mp rfl) hserved
    | lead hkey =>
      cases hshows with
      | plays hsuits hrole => exact .inl ⟨hkey, _, hnew, .flying hrole (by rw [hf, hpush])⟩
    | atOnce hkey outcome =>
      cases hshows with
      | told =>
        -- its flight began and ended within the turn
        refine .inl ⟨hkey, _, hnew, .landed ?_⟩
        rw [hf, land, phases_finish, if_pos rfl, hpush]
        rfl
    | @follow t hkey =>
      obtain ⟨j, hj⟩ := hx.lookup_eq_some.mp hkey
      cases hshows with
      | plays hsuits hrole => exact .inr ⟨j, t, hj, _, hnew, .waits hrole⟩

/-- A waiter that is resumed is told the outcome of its flight, if it has one; else it waits on. -/
theorem Manned.resumed (hx : c.Manned x) (h : x.Goes (.resume i) y)
    (hi : c.FollowsAt x i ask ticket) {task : τ}
    (hwaits : x.cards[i]? = some (ask, .waiting task)) :
    match (c.flights x.state).outcome? ticket with
    | some outcome => y.cards[i]? = some (ask, .finished (c.tell ask true outcome))
    | none => ∃ task', y.cards[i]? = some (ask, .waiting task') := by
  obtain ⟨fate, hfate, hfollows⟩ := hi
  rw [hwaits] at hfate
  cases hfate
  cases hfollows with
  | waits hrole =>
    obtain ⟨fate', hnew, hfares⟩ := h.fares hwaits
    cases hfares with
    | stays hother => exact absurd rfl (hother rfl task)
    | dropped hstep => cases hstep
    | @turns task next hstep hresume =>
      obtain ⟨p, hflies, hshows⟩ := c.turns hx.sound (hx.suits _ _ _ hwaits) hrole hresume
      generalize hfate : Fate.of next = fate at hshows hnew
      generalize c.flights y.state = f' at hflies
      cases hflies with
      | wait hnone =>
        cases hshows with
        | plays hsuits hrole =>
          rw [hnone]
          exact ⟨_, hnew⟩
      | share hsome =>
        cases hshows with
        | told =>
          rw [hsome]
          exact hnew
      | leave =>
        -- whoever is resumed is not gone
        cases hshows
        cases next <;> cases hfate

/-- **A waiter ends with its next turn** just if its leader has come to its end. -/
theorem Manned.ends_iff (hx : c.Manned x) (h : x.Goes (.resume i) y) {j : Nat} {ask' : κ}
    (hj : c.HeadsAt x j ask' ticket) (hi : c.FollowsAt x i ask ticket) {task : τ}
    (hwaits : x.cards[i]? = some (ask, .waiting task)) :
    (∃ r, y.cards[i]? = some (ask, .finished r)) ↔
      ∀ task', x.cards[j]? ≠ some (ask', .waiting task') := by
  have hresumed := hx.resumed h hi hwaits
  obtain ⟨fate, hfate, hheads⟩ := hj
  rw [hfate]
  cases hheads with
  | @flying task' hrole hphase =>
    rw [outcome?, hphase] at hresumed
    obtain ⟨task, hstill⟩ := hresumed
    constructor
    · rintro ⟨r, hr⟩
      rw [hstill] at hr
      cases hr
    · intro hended
      exact absurd rfl (hended task')
  | landed hphase | lost hphase =>
    rw [outcome?, hphase] at hresumed
    refine ⟨?_, fun _ => ⟨_, hresumed⟩⟩
    rintro - task' ⟨⟩

/-- Who leads a flight after a step led it before, unless it began in that step. -/
theorem Turn.leads_before (h : c.Turn x step y) {key : String} (hi : c.Leads y i key ticket) :
    c.Leads x i key ticket ∨
      ∃ id ask, step = .start id ask ∧ c.key ask = key ∧ i = x.cards.length := by
  cases h with
  | still hflights hcards => exact .inl (by rwa [Parts.Leads, ← hcards])
  | @boards id ask fate p y hcards hboards hshows hserved =>
    rw [Parts.Leads, hcards] at hi
    obtain ⟨card, hcard, hflight⟩ := Option.bind_eq_some_iff.mp hi
    rcases Nat.lt_trichotomy i x.cards.length with hlt | heq | hgt
    · rw [List.getElem?_append_left hlt] at hcard
      exact .inl (Option.bind_eq_some_iff.mpr ⟨card, hcard, hflight⟩)
    · subst heq
      rw [List.getElem?_concat_length] at hcard
      cases hcard
      obtain ⟨ask, task, ⟨⟩, -, hkey⟩ := Parts.flight_eq_some.mp hflight
      exact .inr ⟨id, ask, rfl, hkey, rfl⟩
    · rw [List.getElem?_eq_none (by rwa [List.length_append])] at hcard
      cases hcard
  | @flies step j ask task role fate p y hcard hrole hcards hflies hshows =>
    rw [Parts.Leads, hcards] at hi
    by_cases hij : j = i
    · subst hij
      rw [List.getElem?_set_self (List.getElem?_eq_some_iff.mp hcard).1] at hi
      have hflight : p.flight (c.key ask) = some (key, ticket) := hshows.flight_eq ▸ hi
      refine .inl (Option.bind_eq_some_iff.mpr ⟨_, hcard, ?_⟩)
      generalize c.flights y.state = f' at hflies
      cases hflies with
      | fly t =>
        cases hflight
        exact Parts.flight_eq_some.mpr ⟨ask, task, rfl, hrole, rfl⟩
      | land | lose | wait | share | leave => cases hflight
    · rw [List.getElem?_set_ne hij] at hi
      exact .inl hi

/-! ### Along a run -/

theorem headsAt_after {s : σ} (hs : c.flights s = .empty) {before : List (Step κ α)}
    (hi : c.HeadsAt (scene s before) i ask ticket) (later : List (Step κ α)) :
    c.HeadsAt (scene s (before ++ later)) i ask ticket := by
  refine run_induction (fun _ x => c.HeadsAt x i ask ticket) before hi ?_ later
  intro steps step hi
  have hx := manned hs steps
  exact (hx.turn (scene_goes s steps step)).headsAt hx hi

theorem followsAt_after {s : σ} (hs : c.flights s = .empty) {before : List (Step κ α)}
    (hi : c.FollowsAt (scene s before) i ask ticket) (later : List (Step κ α)) :
    c.FollowsAt (scene s (before ++ later)) i ask ticket := by
  refine run_induction (fun _ x => c.FollowsAt x i ask ticket) before hi ?_ later
  intro steps step hi
  have hx := manned hs steps
  exact (hx.turn (scene_goes s steps step)).followsAt hx hi

end Crew

end RingCache.Flights

import Mathlib.Tactic.Common
import RingCache.Proofs.Cluster.Names
import RingCache.Proofs.Flight.Sound

/-!
# Between look-ups nobody loads

A look-up that leads a flight has ended it when it has its outcome, and each look-up that it asks for
on its way has ended its own by then. So a look-up leaves the same flights under way that it has found
(`keeps_look`), although it leads one itself in between (`Aloft`). In a cluster that comes about from
fresh nodes none is under way then, from one request to the next (`Reached.idle`), so that no look-up
has to wait for somebody else: each has its outcome (`Reached.look_eq`), and each request its answer
(`Reached.serveBy_eq`).
-/

namespace RingCache

/-! ### Flights of a group -/

namespace Group

variable {π ρ : Type} {g g' : Group π} {key : String} {ticket? : Option Nat}

/-- The ticket of the flight that a look-up leads, if it does. -/
def Stage.leads? : Stage ρ → Option Nat
  | .done _ | .waiting _ => none
  | .fetching ticket _ | .loading ticket => some ticket

/-- What the first turn of a look-up does with the flights: it begins the one that it leads. -/
structure Begins (g g' : Group π) (key : String) (ticket? : Option Nat) : Prop where
  live : g'.flights.live = (ticket?.map (key, ·)).toList ++ g.flights.live
  free : ticket?.isSome → g.flights.live.lookup key = none

theorem Begins.nothing (hlive : g'.flights.live = g.flights.live) (hnone : ticket? = none) :
    Begins g g' key ticket? := by
  subst hnone
  exact ⟨hlive, fun hsome => absurd hsome Bool.false_ne_true⟩

theorem begins_load (g : Group π) (pick : π → String → Option ρ) (key : String) :
    Begins g (g.load pick key).2 key (g.load pick key).1.leads? := by
  simp only [load]
  cases hlive : g.flights.live.lookup key with
  | some ticket =>
    simp only [Flights.join, hlive, await]
    split
    · exact .nothing rfl rfl
    · exact .nothing rfl rfl
  | none =>
    simp only [Flights.join, hlive]
    split
    · exact ⟨rfl, fun _ => hlive⟩
    · exact ⟨rfl, fun _ => hlive⟩

theorem begins_start (g : Group π) (pick : π → String → Option ρ) (key : String) :
    Begins g (g.start pick key).2 key (g.start pick key).1.leads? := by
  simp only [start]
  split
  · exact .nothing rfl rfl
  · rcases g.cache.get key with ⟨_ | value, cache⟩
    · have hload := begins_load { g with
        cache := cache, counters := { g.counters with gets := g.counters.gets + 1 } } pick key
      exact ⟨hload.live, hload.free⟩
    · exact .nothing rfl rfl

end Group

namespace Cluster

/-! ### Flights of a cluster -/

/-- The flights that are under way in a group of a node. -/
def live? (c : Cluster) (i : Nat) (name : String) : Option (List (String × Nat)) :=
  (c.member? i name).map (·.group.flights.live)

/-- The same flights are under way. -/
def SameFlights (c c' : Cluster) : Prop := c'.live? = c.live?

variable {c c' c₀ : Cluster} {i : Nat} {name key : String} {m : Member} {ticket : Nat}

theorem live?_modify (c : Cluster) (i : Nat) (name : String) (f : Member → Member) (j : Nat)
    (other : String) : (c.modify i name f).live? j other =
      if j = i ∧ other = name then (c.member? i name).map (f · |>.group.flights.live)
      else c.live? j other := by
  rw [live?, member?_modify]
  split
  · next hsame =>
    obtain ⟨rfl, rfl⟩ := hsame
    rw [Option.map_map]
    rfl
  · rfl

/-- A turn that leaves the flights of its group leaves all flights. -/
theorem live?_of_modify {f : Member → Member}
    (hf : ∀ m, c.member? i name = some m → (f m).group.flights.live = m.group.flights.live) :
    (c.modify i name f).live? = c.live? := by
  funext j other
  rw [live?_modify]
  split
  · next hsame =>
    obtain ⟨rfl, rfl⟩ := hsame
    cases hm : c.member? j other with
    | none =>
      rw [live?, hm]
      rfl
    | some m => rw [live?, hm, Option.map_some, Option.map_some, hf m hm]
  · rfl

theorem steady_sameFlights : Steady SameFlights where
  refl _ := rfl
  trans h h' := h'.trans h
  served _ _ _ := live?_of_modify fun _ _ => rfl

/-- One more flight is under way than before, for a key that had none: a look-up leads it. -/
structure Aloft (i : Nat) (name key : String) (ticket : Nat) (c c' : Cluster) : Prop where
  own : c'.live? i name = (c.live? i name).map ((key, ticket) :: ·)
  free : ∀ others, c.live? i name = some others → others.lookup key = none
  rest : ∀ j other, ¬ (j = i ∧ other = name) → c'.live? j other = c.live? j other

namespace Aloft

theorem same (h : Aloft i name key ticket c₀ c) (hsame : SameFlights c c') :
    Aloft i name key ticket c₀ c' :=
  ⟨hsame ▸ h.own, h.free, fun j other hne => hsame ▸ h.rest j other hne⟩

/-- The flight ends, and the others stay under way. -/
theorem finish (h : Aloft i name key ticket c₀ c) {f : Member → Member}
    (hf : ∀ m, c.member? i name = some m →
      ∃ phase, (f m).group.flights = m.group.flights.finish ticket phase) :
    SameFlights c₀ (c.modify i name f) := by
  funext j other
  rw [live?_modify]
  split
  · next hsame =>
    obtain ⟨rfl, rfl⟩ := hsame
    have hown := h.own
    cases hm : c.member? j other with
    | none =>
      rw [live?, hm] at hown
      exact (Option.map_eq_none_iff.mp hown.symm).symm
    | some m =>
      rw [live?, hm, Option.map_some] at hown
      obtain ⟨others, hothers, hlive⟩ := Option.map_eq_some_iff.mp hown.symm
      obtain ⟨phase, hphase⟩ := hf m hm
      rw [hothers, Option.map_some, hphase,
        Flights.live_finish_last hlive.symm (h.free _ hothers)]
  · next hne => exact h.rest j other hne

end Aloft

/-! ### Turns of a look-up -/

section Turns

variable {α : Type} {ask : Look} {f : Member → α × Member} {answer : Except CacheError Value}

/-- The first turn of a look-up begins the flight that it leads, if it leads one. -/
theorem begins_turn (c : Cluster) (i : Nat) (name key : String) (m : Member)
    (pick : Picker → String → Option PeerRoute) :
    match (atMember i name m (onGroup fun g => g.start pick key) c).1.leads? with
    | none => SameFlights c (atMember i name m (onGroup fun g => g.start pick key) c).2
    | some ticket => Aloft i name key ticket c
        (atMember i name m (onGroup fun g => g.start pick key) c).2 := by
  have hbegins := Group.begins_start ((c.member? i name).getD m).group pick key
  show match (((c.member? i name).getD m).group.start pick key).1.leads? with
    | none => SameFlights c (c.modify i name _)
    | some ticket => Aloft i name key ticket c (c.modify i name _)
  cases hleads : (((c.member? i name).getD m).group.start pick key).1.leads? with
  | none =>
    rw [hleads] at hbegins
    refine live?_of_modify fun m' hm => ?_
    rw [hm, Option.getD_some] at hbegins ⊢
    exact hbegins.live
  | some ticket =>
    rw [hleads] at hbegins
    refine ⟨?_, fun others hothers => ?_, fun j other hne => ?_⟩
    · rw [live?_modify, if_pos ⟨rfl, rfl⟩, live?]
      cases hm : c.member? i name with
      | none => rfl
      | some m' =>
        rw [hm, Option.getD_some] at hbegins
        exact congrArg some hbegins.live
    · obtain ⟨m', hm, rfl⟩ := Option.map_eq_some_iff.mp hothers
      rw [hm, Option.getD_some] at hbegins
      exact hbegins.free rfl
    · rw [live?_modify, if_neg hne]

/-- A turn that leaves the flights leaves the one that the look-up leads. -/
theorem Aloft.turn (h : Aloft i name key ticket c₀ c)
    (hf : ∀ m, (f m).2.group.flights = m.group.flights) :
    Aloft i name key ticket c₀ (atMember i name m f c).2 := by
  refine h.same (live?_of_modify fun m' hm => ?_)
  rw [hm, Option.getD_some, hf]

/-- A turn that ends the flight that the look-up leads. -/
theorem Aloft.land (h : Aloft i name key ticket c₀ c)
    (hf : ∀ m, ∃ phase, (f m).2.group.flights = m.group.flights.finish ticket phase) :
    SameFlights c₀ (atMember i name m f c).2 := by
  refine h.finish fun m' hm => ?_
  rw [hm, Option.getD_some]
  exact hf m'

theorem Aloft.loadFrom (h : Aloft i m.group.name key ticket c₀ c) :
    SameFlights c₀ (loadFrom i m key ticket c).2 := by
  rw [Cluster.loadFrom, bind_apply]
  have hcalled : Aloft i m.group.name key ticket c₀ (atMember i m.group.name m (onOrigin key) c).2 :=
    h.turn fun _ => rfl
  generalize atMember i m.group.name m (onOrigin key) c = called at hcalled
  obtain ⟨answer, c'⟩ := called
  show SameFlights c₀ (atMember i m.group.name m (onGroup fun g =>
    (g.afterLoad key ticket answer : Group.Stage PeerRoute × Group Picker)) c').2
  refine hcalled.land fun m' => ⟨.landed answer, ?_⟩
  cases answer with
  | ok value | error e => rfl

theorem Aloft.settle (h : Aloft i m.group.name key ticket c₀ c) :
    SameFlights c₀ (settle i m key ticket answer c).2 := by
  cases answer with
  | ok value =>
    show SameFlights c₀ (atMember i m.group.name m (onGroup fun g =>
      (g.afterFetch ticket (.ok value) : Group.Stage PeerRoute × Group Picker)) c).2
    exact h.land fun _ => ⟨.landed (.ok value), rfl⟩
  | error e =>
    -- the failure of the peer is counted, and the origin is asked
    show SameFlights c₀ (Cluster.loadFrom i m key ticket (atMember i m.group.name m (onGroup fun g =>
      (g.afterFetch ticket (.error e) : Group.Stage PeerRoute × Group Picker)) c).2).2
    exact Aloft.loadFrom (h.turn fun _ => rfl)

theorem Aloft.fetchFrom (h : Aloft i m.group.name key ticket c₀ c)
    (hask : ∀ i group key, Keeps SameFlights (ask i group key)) (route : PeerRoute) :
    Aloft i m.group.name key ticket c₀ (fetchFrom ask i m key route c).2 := by
  cases route with
  | standIn => exact h.turn fun _ => rfl
  | remote client => exact h.same (steady_sameFlights.fetchBy hask client _ key c)

theorem keeps_lookUp (hask : ∀ i group key, Keeps SameFlights (ask i group key)) (i : Nat)
    (m : Member) (key : String) (pick : Picker → String → Option PeerRoute) :
    Keeps SameFlights (Group.lookUp (surroundings ask i m key) pick key) := by
  intro c
  have hbegins := begins_turn c i m.group.name key m pick
  rw [lookUp_eq, bind_apply]
  rcases hturn : atMember i m.group.name m (onGroup fun g => g.start pick key) c with ⟨stage, c'⟩
  rw [hturn] at hbegins
  cases stage with
  | done outcome | waiting ticket => exact hbegins
  | loading ticket => exact Aloft.loadFrom hbegins
  | fetching ticket route => exact (hbegins.fetchFrom hask route).settle

/-- **A look-up leaves the same flights under way.** -/
theorem keeps_look (i : Nat) (group key : String) : Keeps SameFlights (look i group key) :=
  steady_sameFlights.keeps_look keeps_lookUp i group key

end Turns

end Cluster

/-! ### Clusters that come about -/

namespace Node

/-- Nobody loads anything in any group. -/
def Idle (n : Node) : Prop := ∀ name m, n.registry.find? name = some m → m.group.flights.live = []

variable {n n' : Node} {name : String}

theorem Idle.newGroup (h : n.Idle) {budget : UInt64} {source : Source}
    (hok : n.newGroup name budget source = .ok n') : n'.Idle := by
  obtain ⟨r, hr, hok⟩ := ok_of_bind hok
  cases hok
  intro other m (hm : r.find? other = some m)
  rw [Registry.find?_register hr] at hm
  split at hm
  · cases hm
    rfl
  · exact h other m hm

theorem Idle.registerPeers (h : n.Idle) {picker : Picker} {standIn : Source}
    (hok : n.registerPeers name picker standIn = .ok n') : n'.Idle := by
  obtain ⟨m, hm, hok⟩ := ok_of_bind hok
  obtain ⟨group, hgroup, hok⟩ := ok_of_bind hok
  cases hok
  have hlive : group.flights = m.group.flights := by
    rw [Group.registerPeers] at hgroup
    split at hgroup
    · cases hgroup
      rfl
    · cases hgroup
  intro other m' hm'
  rw [find?_modifyMember] at hm'
  split at hm'
  · obtain ⟨old, hold, rfl⟩ := Option.map_eq_some_iff.mp hm'
    show group.flights.live = []
    rw [hlive]
    exact h name m (Registry.find?_of_require hm)
  · exact h other m' hm'

theorem lasting_idle : Lasting Idle where
  fresh := nofun
  join _ h := h
  newGroup h := h.newGroup
  registerPeers h := h.registerPeers
  setPeers h hok := by
    obtain ⟨pool, -, hok⟩ := ok_of_bind hok
    cases hok
    exact h

end Node

namespace Cluster

variable {c c' : Cluster} {i : Nat} {group : String}

theorem SameFlights.idle (h : SameFlights c c') (hidle : ∀ i, (c.node i).Idle) (i : Nat) :
    (c'.node i).Idle := by
  intro name m (hm : c'.member? i name = some m)
  have hlive : c.live? i name = some m.group.flights.live := by
    rw [← h, live?, hm]
    rfl
  obtain ⟨old, hold, hsame⟩ := Option.map_eq_some_iff.mp hlive
  rw [← hsame]
  exact hidle i name old hold

/-- **Between requests nobody loads anything**, whatever was done before. -/
theorem Reached.idle (h : c.Reached) (i : Nat) : (c.node i).Idle :=
  h.each Node.lasting_idle steady_sameFlights keeps_look SameFlights.idle i

theorem Reached.look_isSome (h : c.Reached) (i : Nat) (group key : String) :
    (look i group key c).1.isSome := by
  cases hm : c.member? i group with
  | none =>
    rw [look_eq, lookWithin_succ, hm]
    rfl
  | some m =>
    refine Cluster.look_isSome hm ((h.named i).name_eq hm) ?_
    rw [h.idle i group m hm]
    rfl

/-- **No look-up has to wait for another one**: what it is given is its own outcome. -/
theorem Reached.look_eq (h : c.Reached) (i : Nat) (group key : String) :
    look i group key c = (some (c.get i group key).1, (c.get i group key).2) := by
  have hsome := h.look_isSome i group key
  rw [Cluster.get]
  rcases hlook : look i group key c with ⟨_ | outcome, c'⟩
  · rw [hlook] at hsome
    cases hsome
  · rfl

/-- **No request goes without an answer.** -/
theorem Reached.serveBy_eq (h : c.Reached) (i : Nat) (pool : Peer.Pool) (r : Http.Request) :
    serveBy look i pool r c = (some (c.serve i pool r).1, (c.serve i pool r).2) := by
  have hsome : (serveBy look i pool r c).1.isSome := by
    cases hroute : pool.route r with
    | elsewhere | methodNotAllowed | bad fault =>
      simp only [serveBy, hroute]
      rfl
    | value group key =>
      rw [serveBy_value hroute]
      cases hm : c.member? i group with
      | none => rfl
      | some m =>
        show (Option.map _ _).isSome
        rw [look_countServed, Option.isSome_map]
        exact h.look_isSome i group key
  rw [Cluster.serve]
  rcases hserve : serveBy look i pool r c with ⟨_ | response, c'⟩
  · rw [hserve] at hsome
    cases hsome
  · rfl

end Cluster

end RingCache

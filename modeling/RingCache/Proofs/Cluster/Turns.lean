import Mathlib.Tactic.Common
import RingCache.Proofs.Cluster.Served

/-!
# What every look-up respects

A look-up changes a cluster in turns, each of which puts another member in the place of the one that
is there, whose group keeps its name. So a relation between clusters that is kept along such changes
(`Respected`) holds between a cluster and what becomes of it, however many nodes the look-up passes
(`Respected.look`).

Every request leads to look-ups and beside them only counts that it was served. So what holds across
a look-up holds across a request (`Steady`).
-/

namespace RingCache

namespace Group

variable {π ρ : Type} (g : Group π)

theorem name_land (ticket : Nat) (outcome : Except CacheError Value) :
    (g.land ticket outcome : Stage ρ × Group π).2.name = g.name := rfl

theorem name_await (ticket : Nat) : (g.await ticket : Stage ρ × Group π).2.name = g.name := by
  rw [await]
  split
  · rfl
  · rfl

theorem name_load (pick : π → String → Option ρ) (key : String) :
    (g.load pick key).2.name = g.name := by
  simp only [load]
  split
  · exact name_await _ _
  · split
    · rfl
    · rfl

theorem name_start (pick : π → String → Option ρ) (key : String) :
    (g.start pick key).2.name = g.name := by
  simp only [start]
  split
  · rfl
  · split
    · rfl
    · exact name_load _ _ _

theorem name_afterFetch (ticket : Nat) (answer : Except CacheError Value) :
    (g.afterFetch ticket answer : Stage ρ × Group π).2.name = g.name := by
  cases answer with
  | ok value => exact name_land _ _ _
  | error e => rfl

theorem name_afterLoad (key : String) (ticket : Nat) (answer : Except CacheError Value) :
    (g.afterLoad key ticket answer : Stage ρ × Group π).2.name = g.name := by
  cases answer with
  | ok value => exact name_land _ _ _
  | error e => exact name_land _ _ _

theorem name_registerPeers {g g' : Group π} {peers : π} (h : g.registerPeers peers = .ok g') :
    g'.name = g.name := by
  rw [registerPeers] at h
  split at h
  · cases h
    rfl
  · cases h

end Group

namespace Cluster

/-- A computation keeps to a relation, whatever it starts from. -/
def Keeps {α : Type} (R : Cluster → Cluster → Prop) (x : StateM Cluster α) : Prop :=
  ∀ c, R c (x c).2

/-- A relation between clusters that is kept where a served request is counted. -/
structure Steady (R : Cluster → Cluster → Prop) : Prop where
  refl : ∀ c, R c c
  trans : ∀ {c c' c''}, R c c' → R c' c'' → R c c''
  served : ∀ c i name, R c (c.countServed i name)

/-- A relation between clusters that is kept where another member comes into the place of one, with a
group of the same name. -/
structure Respected (R : Cluster → Cluster → Prop) : Prop where
  refl : ∀ c, R c c
  trans : ∀ {c c' c''}, R c c' → R c' c'' → R c c''
  put : ∀ {c : Cluster} {i : Nat} {name : String} {m m' : Member}, c.member? i name = some m →
    m'.group.name = m.group.name → R c (c.modify i name fun _ => m')

variable {α β : Type} {R : Cluster → Cluster → Prop} {ask : Look} {i : Nat} {m : Member}
  {name key : String}

/-! ### Requests -/

namespace Steady

theorem keeps_pure (hR : Steady R) (a : α) : Keeps R (pure a) := fun c => hR.refl c

theorem bind (hR : Steady R) {x : StateM Cluster α} {f : α → StateM Cluster β} (h : Keeps R x)
    (hnext : ∀ a, Keeps R (f a)) : Keeps R (x >>= f) :=
  fun c => hR.trans (h c) (hnext _ _)

theorem serveBy (hR : Steady R) (hask : ∀ i group key, Keeps R (ask i group key)) (i : Nat)
    (pool : Peer.Pool) (r : Http.Request) : Keeps R (serveBy ask i pool r) := by
  intro c
  cases hroute : pool.route r with
  | elsewhere | methodNotAllowed | bad fault =>
    simp only [Cluster.serveBy, hroute]
    exact hR.refl c
  | value group key =>
    rw [serveBy_value hroute]
    cases hm : c.member? i group with
    | none => exact hR.refl c
    | some m => exact hR.trans (hR.served c i group) (hask i group key _)

theorem fetchBy (hR : Steady R) (hask : ∀ i group key, Keeps R (ask i group key))
    (client : Peer.Client) (group key : String) : Keeps R (fetchBy ask client group key) := by
  intro c
  rw [fetchBy_eq]
  rcases c.reach client with answer | ⟨i, pool⟩
  · exact hR.refl c
  · exact hR.serveBy hask i pool _ c

/-- From one look-up to the next one that it asks for, and so to all of them. -/
theorem keeps_look (hR : Steady R)
    (hlookUp : ∀ {ask : Look}, (∀ i group key, Keeps R (ask i group key)) → ∀ i m key pick,
      Keeps R (Group.lookUp (surroundings ask i m key) pick key)) (i : Nat) (group key : String) :
    Keeps R (look i group key) := by
  have hwithin : ∀ hops i group key, Keeps R (lookWithin hops i group key) := by
    intro hops
    induction hops with
    | zero => exact fun _ _ _ => hR.keeps_pure _
    | succ hops ih =>
      intro i group key c
      rw [lookWithin_succ]
      cases c.member? i group with
      | none => exact hR.refl c
      | some m => exact hlookUp ih i m key (c.node i).pick c
  intro c
  rw [look_eq]
  exact hwithin _ i group key c

variable (hR : Steady R) (hlook : ∀ i group key, Keeps R (look i group key))
include hR hlook

/-- **A request keeps to what its look-ups keep to.** -/
theorem serve (c : Cluster) (i : Nat) (pool : Peer.Pool) (r : Http.Request) :
    R c (c.serve i pool r).2 := hR.serveBy hlook i pool r c

theorem fetch (c : Cluster) (client : Peer.Client) (group key : String) :
    R c (c.fetch client group key).2 := hR.fetchBy hlook client group key c

theorem frontEnd (c : Cluster) (i : Nat) (group : String) (r : Http.Request) :
    R c (c.frontEnd i group r).2 := by
  cases hroute : FrontEnd.route r with
  | value key =>
    simp only [Cluster.frontEnd, hroute]
    exact hlook i group key c
  | methodNotAllowed | keyMissing | statistics | health | notFound path =>
    simp only [Cluster.frontEnd, hroute]
    exact hR.refl c

end Steady

/-! ### Look-ups -/

namespace Respected

theorem steady (hR : Respected R) : Steady R where
  refl := hR.refl
  trans := hR.trans
  served c i name := by
    cases hm : c.member? i name with
    | none =>
      rw [countServed, modify_of_none hm]
      exact hR.refl c
    | some m =>
      -- to count is a change of the member that is there; to put, one member for another
      have hput : c.countServed i name = c.modify i name fun _ => m.countServed := by
        refine modify_congr fun m' hm' => ?_
        rw [hm] at hm'
        cases hm'
        rfl
      rw [hput]
      exact hR.put hm rfl

theorem atMember (hR : Respected R) {f : Member → α × Member}
    (hf : ∀ m, (f m).2.group.name = m.group.name) : Keeps R (atMember i name m f) := by
  intro c
  cases hm : c.member? i name with
  | none =>
    show R c (c.modify i name _)
    rw [modify_of_none hm]
    exact hR.refl c
  | some m₀ =>
    rw [atMember_of_some hm]
    exact hR.put hm (hf m₀)

theorem loadFrom (hR : Respected R) {ticket : Nat} : Keeps R (loadFrom i m key ticket) :=
  hR.steady.bind (hR.atMember fun _ => rfl) fun _ =>
    hR.steady.bind (hR.atMember fun m => m.group.name_afterLoad key ticket _) fun _ =>
      hR.steady.keeps_pure _

theorem fetchFrom (hR : Respected R) (hask : ∀ i group key, Keeps R (ask i group key)) (i : Nat)
    (m : Member) (key : String) (route : PeerRoute) : Keeps R (fetchFrom ask i m key route) := by
  cases route with
  | standIn => exact hR.atMember fun _ => rfl
  | remote client => exact hR.steady.fetchBy hask client _ key

theorem settle (hR : Respected R) {ticket : Nat} {answer : Except CacheError Value} :
    Keeps R (settle i m key ticket answer) := by
  refine hR.steady.bind (hR.atMember fun m => m.group.name_afterFetch ticket answer) fun stage => ?_
  cases stage with
  | done outcome => exact hR.steady.keeps_pure _
  | waiting | loading | fetching => exact hR.loadFrom

theorem lookUp (hR : Respected R) (hask : ∀ i group key, Keeps R (ask i group key)) (i : Nat)
    (m : Member) (key : String) (pick : Picker → String → Option PeerRoute) :
    Keeps R (Group.lookUp (surroundings ask i m key) pick key) := by
  rw [lookUp_eq]
  refine hR.steady.bind (hR.atMember fun m => m.group.name_start pick key) fun stage => ?_
  cases stage with
  | done outcome | waiting ticket => exact hR.steady.keeps_pure _
  | loading ticket => exact hR.loadFrom
  | fetching ticket route =>
    exact hR.steady.bind (hR.fetchFrom hask i m key route) fun _ => hR.settle

/-- **A look-up keeps to what its turns respect.** -/
theorem look (hR : Respected R) (i : Nat) (group key : String) : Keeps R (look i group key) :=
  hR.steady.keeps_look hR.lookUp i group key

end Respected

end RingCache.Cluster

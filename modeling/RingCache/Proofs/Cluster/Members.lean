import Mathlib.Data.List.Basic
import Mathlib.Tactic.Common
import RingCache.Cluster

/-!
# Members of a cluster

A member is found by the index of its node and the name of its group. Whatever happens to one member
(`Cluster.modify`) leaves all others alone, and so does a look-up, which is a row of turns at one
member (`Cluster.lookUp_eq`): each turn reads the member, answers something and puts another state in
its place (`Cluster.atMember`).
-/

namespace RingCache

/-! ### Look-ups in turns -/

namespace Group

variable {m : Type → Type} [Monad m] {π ρ : Type}

/-- A turn: the group is read, and what it becomes is written back. -/
def Surroundings.turn (s : Surroundings m π ρ) (f : Group π → Stage ρ × Group π) :
    m (Stage ρ) := do
  let g ← s.read
  s.write (f g).2
  pure (f g).1

variable [LawfulMonad m]

theorem Surroundings.turn_bind {α : Type} (s : Surroundings m π ρ)
    (f : Group π → Stage ρ × Group π) (k : Stage ρ → m α) :
    (s.turn f >>= k) = (do
      let g ← s.read
      s.write (f g).2
      k (f g).1) := by
  simp only [turn, bind_assoc, pure_bind]

theorem loadFrom_turns (s : Surroundings m π ρ) (key : String) (ticket : Nat) :
    loadFrom s key ticket = (do
      let answer ← s.load
      let _ ← s.turn fun g => g.afterLoad key ticket answer
      pure (some answer)) := by
  simp only [Surroundings.turn_bind]
  rfl

theorem lookUp_turns (s : Surroundings m π ρ) (pick : π → String → Option ρ) (key : String) :
    lookUp s pick key = (do
      match ← s.turn fun g => g.start pick key with
      | .done outcome => pure (some outcome)
      | .waiting _ => pure none
      | .loading ticket => loadFrom s key ticket
      | .fetching ticket route =>
        let answer ← s.fetch route
        match ← s.turn fun g => g.afterFetch ticket answer with
        | .done outcome => pure (some outcome)
        | _ => loadFrom s key ticket) := by
  simp only [Surroundings.turn_bind]
  rfl

end Group

/-! ### Registries -/

namespace Registry

variable {μ : Type} {r : Registry μ} {name other : String}

theorem find?_replace (r : Registry μ) (name : String) (m : μ) (k : String) :
    (r.replace name m).find? k = if k = name then (r.find? k).map fun _ => m else r.find? k := by
  obtain ⟨entries⟩ := r
  simp only [find?, replace]
  induction entries with
  | nil => simp
  | cons e entries ih =>
    obtain ⟨n, x⟩ := e
    rw [List.map_cons]
    by_cases hn : n = name
    · subst hn
      by_cases hk : k = n
      · subst hk
        simp
      · rw [if_neg hk] at ih ⊢
        have hne : (k == n) = false := by simpa using hk
        simp only [if_pos, List.lookup_cons, hne, ih]
    · rw [if_neg hn]
      by_cases hk : k = n
      · subst hk
        simp [hn]
      · have hne : (k == n) = false := by simpa using hk
        simp only [List.lookup_cons, hne, ih]

theorem replace_replace (r : Registry μ) (name : String) (m m' : μ) :
    (r.replace name m).replace name m' = r.replace name m' := by
  simp only [replace, List.map_map]
  congr 2
  funext e
  by_cases he : e.1 = name
  · simp [he]
  · simp [he]

theorem replace_comm (hne : name ≠ other) (m m' : μ) :
    (r.replace name m).replace other m' = (r.replace other m').replace name m := by
  simp only [replace, List.map_map]
  congr 2
  funext e
  by_cases he : e.1 = name
  · simp [he, hne]
  · by_cases he' : e.1 = other
    · simp [he', Ne.symm hne]
    · simp [he, he']

end Registry

/-! ### Nodes -/

namespace Node

variable {n : Node} {name other : String}

@[simp] theorem pools_modifyMember (n : Node) (name : String) (f : Member → Member) :
    (n.modifyMember name f).pools = n.pools := by
  rw [modifyMember]
  split <;> rfl

theorem find?_modifyMember (n : Node) (name : String) (f : Member → Member) (k : String) :
    (n.modifyMember name f).registry.find? k =
      if k = name then (n.registry.find? k).map f else n.registry.find? k := by
  rw [modifyMember]
  split
  · next m hm =>
    show (n.registry.replace name (f m)).find? k = _
    rw [Registry.find?_replace]
    split
    · next hk =>
      rw [hk, hm]
      rfl
    · rfl
  · next hm =>
    split
    · next hk =>
      rw [hk, hm]
      rfl
    · rfl

theorem modifyMember_of_none (h : n.registry.find? name = none) (f : Member → Member) :
    n.modifyMember name f = n := by
  rw [modifyMember, h]

theorem modifyMember_of_some {m : Member} (h : n.registry.find? name = some m)
    (f : Member → Member) :
    n.modifyMember name f = { n with registry := n.registry.replace name (f m) } := by
  rw [modifyMember, h]

theorem modifyMember_modifyMember (n : Node) (name : String) (f f' : Member → Member) :
    (n.modifyMember name f).modifyMember name f' = n.modifyMember name fun m => f' (f m) := by
  cases h : n.registry.find? name with
  | none => rw [modifyMember_of_none h, modifyMember_of_none h, modifyMember_of_none h]
  | some m =>
    have h' : (n.modifyMember name f).registry.find? name = some (f m) := by
      rw [find?_modifyMember, if_pos rfl, h]
      rfl
    rw [modifyMember_of_some h', modifyMember_of_some h, modifyMember_of_some h]
    simp only [Registry.replace_replace]

theorem modifyMember_comm (hne : name ≠ other) (n : Node) (f f' : Member → Member) :
    (n.modifyMember name f).modifyMember other f' =
      (n.modifyMember other f').modifyMember name f := by
  have hother : (n.modifyMember name f).registry.find? other = n.registry.find? other := by
    rw [find?_modifyMember, if_neg (Ne.symm hne)]
  have hname : (n.modifyMember other f').registry.find? name = n.registry.find? name := by
    rw [find?_modifyMember, if_neg hne]
  cases h : n.registry.find? name with
  | none =>
    rw [h] at hname
    rw [modifyMember_of_none h, modifyMember_of_none hname]
  | some m =>
    rw [h] at hname
    cases h' : n.registry.find? other with
    | none =>
      rw [h'] at hother
      rw [modifyMember_of_none hother, modifyMember_of_none h']
    | some m' =>
      rw [h'] at hother
      rw [modifyMember_of_some hother, modifyMember_of_some hname, modifyMember_of_some h,
        modifyMember_of_some h']
      simp only [Registry.replace_comm hne]

end Node

/-! ### Members -/

namespace Member

/-- What the answer of the origin makes of a member whose look-up leads a flight. -/
def loaded (m : Member) (key : String) (ticket : Nat) : Member :=
  { m with
    group := (m.group.afterLoad key ticket (m.origin.call key).1 :
      Group.Stage PeerRoute × Group Picker).2
    origin := (m.origin.call key).2 }

/-- What the answer of a peer makes of a member whose look-up leads a flight: a failure leads to the
origin. -/
def settled (m : Member) (key : String) (ticket : Nat) (answer : Except CacheError Value) :
    Member :=
  let m := { m with
    group := (m.group.afterFetch ticket answer : Group.Stage PeerRoute × Group Picker).2 }
  match answer with
  | .ok _ => m
  | .error _ => m.loaded key ticket

end Member

/-! ### Clusters -/

namespace Cluster

variable {c : Cluster} {i j : Nat} {name other : String}

theorem node_setNode (c : Cluster) (i : Nat) (n : Node) (j : Nat) :
    (c.setNode i n).node j = if j = i ∧ i < c.nodes.size then n else c.node j := by
  simp only [node, setNode, Array.getD_eq_getD_getElem?, Array.getElem?_setIfInBounds]
  by_cases hj : j = i
  · subst hj
    by_cases hlt : j < c.nodes.size
    · simp [hlt]
    · simp [hlt]
  · simp [hj, Ne.symm hj]

theorem setNode_setNode (c : Cluster) (i : Nat) (n n' : Node) :
    (c.setNode i n).setNode i n' = c.setNode i n' := by
  simp only [setNode, Array.setIfInBounds_setIfInBounds]

theorem setNode_comm (hne : i ≠ j) (c : Cluster) (n n' : Node) :
    (c.setNode i n).setNode j n' = (c.setNode j n').setNode i n := by
  simp only [setNode, Array.setIfInBounds_comm _ _ hne]

theorem setNode_node (c : Cluster) (i : Nat) : c.setNode i (c.node i) = c := by
  obtain ⟨link, nodes, endpoints⟩ := c
  simp only [setNode, node, mk.injEq, true_and, and_true]
  apply Array.ext_getElem?
  intro k
  rw [Array.getElem?_setIfInBounds]
  split
  · next hk =>
    subst hk
    split
    · next hlt => simp [hlt]
    · next hlt => simp [hlt]
  · rfl

/-- The node with index `i` there may be none of is one without groups. -/
theorem node_of_size_le (h : c.nodes.size ≤ i) : c.node i = .fresh := by
  simp [node, Array.getD_eq_getD_getElem?, h]

/-- The member of that name on node `i`. -/
def member? (c : Cluster) (i : Nat) (name : String) : Option Member :=
  (c.node i).registry.find? name

/-- Changes the member of that name on node `i`, if there is one. -/
def modify (c : Cluster) (i : Nat) (name : String) (f : Member → Member) : Cluster :=
  c.setNode i ((c.node i).modifyMember name f)

@[simp] theorem link_modify (c : Cluster) (i : Nat) (name : String) (f : Member → Member) :
    (c.modify i name f).link = c.link := rfl

@[simp] theorem endpoints_modify (c : Cluster) (i : Nat) (name : String) (f : Member → Member) :
    (c.modify i name f).endpoints = c.endpoints := rfl

@[simp] theorem size_modify (c : Cluster) (i : Nat) (name : String) (f : Member → Member) :
    (c.modify i name f).nodes.size = c.nodes.size := by
  simp [modify, setNode]

theorem node_modify (c : Cluster) (i : Nat) (name : String) (f : Member → Member) (j : Nat) :
    (c.modify i name f).node j =
      if j = i then (c.node i).modifyMember name f else c.node j := by
  rw [modify, node_setNode]
  by_cases hj : j = i
  · subst hj
    by_cases hlt : j < c.nodes.size
    · rw [if_pos ⟨rfl, hlt⟩, if_pos rfl]
    · -- there is no such node, and so no member to change
      rw [if_neg fun h => hlt h.2, if_pos rfl, node_of_size_le (Nat.le_of_not_lt hlt)]
      rfl
  · rw [if_neg fun h => hj h.1, if_neg hj]

@[simp] theorem node_modify_self (c : Cluster) (i : Nat) (name : String) (f : Member → Member) :
    (c.modify i name f).node i = (c.node i).modifyMember name f := by
  rw [node_modify, if_pos rfl]

theorem node_modify_of_ne (hne : j ≠ i) (name : String) (f : Member → Member) :
    (c.modify i name f).node j = c.node j := by
  rw [node_modify, if_neg hne]

@[simp] theorem pools_modify (c : Cluster) (i : Nat) (name : String) (f : Member → Member)
    (j : Nat) : ((c.modify i name f).node j).pools = (c.node j).pools := by
  rw [node_modify]
  split
  · next hj => rw [Node.pools_modifyMember, hj]
  · rfl

@[simp] theorem pick_modify (c : Cluster) (i : Nat) (name : String) (f : Member → Member)
    (j : Nat) : ((c.modify i name f).node j).pick = (c.node j).pick := by
  funext picker key
  simp only [Node.pick, pools_modify]

theorem member?_modify (c : Cluster) (i : Nat) (name : String) (f : Member → Member) (j : Nat)
    (k : String) : (c.modify i name f).member? j k =
      if j = i ∧ k = name then (c.member? j k).map f else c.member? j k := by
  rw [member?, node_modify]
  by_cases hj : j = i
  · subst hj
    rw [if_pos rfl, Node.find?_modifyMember]
    simp only [true_and, member?]
  · rw [if_neg hj, if_neg fun h => hj h.1, member?]

@[simp] theorem member?_modify_self (c : Cluster) (i : Nat) (name : String)
    (f : Member → Member) : (c.modify i name f).member? i name = (c.member? i name).map f := by
  rw [member?_modify, if_pos ⟨rfl, rfl⟩]

theorem member?_put {m : Member} (h : c.member? i name = some m) (m' : Member) :
    (c.modify i name fun _ => m').member? i name = some m' := by
  rw [member?_modify_self, h, Option.map_some]

theorem member?_modify_of_ne (hne : ¬ (j = i ∧ other = name)) (f : Member → Member) :
    (c.modify i name f).member? j other = c.member? j other := by
  rw [member?_modify, if_neg hne]

/-- The members of the other nodes stay. -/
theorem member?_modify_of_other (hne : j ≠ i) (name other : String) (f : Member → Member) :
    (c.modify i name f).member? j other = c.member? j other :=
  member?_modify_of_ne (fun hsame => hne hsame.1) f

/-- A member of that name is the new one, or that of another node, as it was. -/
theorem member?_put_cases {m m' mj : Member} (h : c.member? i name = some m)
    (hj : (c.modify i name fun _ => m').member? j name = some mj) :
    j = i ∧ mj = m' ∨ j ≠ i ∧ c.member? j name = some mj := by
  by_cases hij : j = i
  · subst hij
    rw [member?_put h] at hj
    exact .inl ⟨rfl, (Option.some_inj.mp hj).symm⟩
  · rw [member?_modify_of_other hij] at hj
    exact .inr ⟨hij, hj⟩

theorem modify_of_none (h : c.member? i name = none) (f : Member → Member) :
    c.modify i name f = c := by
  rw [modify, Node.modifyMember_of_none h, setNode_node]

theorem modify_modify (c : Cluster) (i : Nat) (name : String) (f f' : Member → Member) :
    (c.modify i name f).modify i name f' = c.modify i name fun m => f' (f m) := by
  rw [modify, node_modify_self, modify, setNode_setNode, Node.modifyMember_modifyMember]
  rfl

/-- Changes of different members do not interfere. -/
theorem modify_comm (hne : ¬ (i = j ∧ name = other)) (c : Cluster) (f f' : Member → Member) :
    (c.modify i name f).modify j other f' = (c.modify j other f').modify i name f := by
  by_cases hij : i = j
  · subst hij
    have hname : name ≠ other := fun h => hne ⟨rfl, h⟩
    simp only [modify, setNode_setNode]
    rw [← modify, ← modify, node_modify_self, node_modify_self, Node.modifyMember_comm hname]
  · rw [modify, node_modify_of_ne (Ne.symm hij), modify, setNode_comm hij, modify, modify,
      ← modify, node_modify_of_ne hij]

/-- Only what happens to the member that is there matters. -/
theorem modify_congr {f f' : Member → Member} (h : ∀ m, c.member? i name = some m → f m = f' m) :
    c.modify i name f = c.modify i name f' := by
  cases hm : c.member? i name with
  | none => rw [modify_of_none hm, modify_of_none hm]
  | some m =>
    rw [modify, modify, Node.modifyMember_of_some hm, Node.modifyMember_of_some hm, h m hm]

/-! ### Turns at a member -/

section Turns

variable {α : Type}

/-- One turn at the member of that name on node `i`, or at `m` where there is none, which stays as it
is then. -/
def atMember (i : Nat) (name : String) (m : Member) (f : Member → α × Member) :
    StateM Cluster α := fun c =>
  let (answer, m') := f ((c.member? i name).getD m)
  (answer, c.modify i name fun _ => m')

/-- A turn of the group alone. -/
def onGroup (f : Group Picker → α × Group Picker) (m : Member) : α × Member :=
  ((f m.group).1, { m with group := (f m.group).2 })

/-- A call of the origin. -/
def onOrigin (key : String) (m : Member) : Except CacheError Value × Member :=
  ((m.origin.call key).1, { m with origin := (m.origin.call key).2 })

/-- A call of the stand-in for a peer. -/
def onStandIn (key : String) (m : Member) : Except CacheError Value × Member :=
  ((m.standIn.call key).1, { m with standIn := (m.standIn.call key).2 })

/-- A turn at a member that is there. -/
theorem atMember_of_some {m m₀ : Member} (h : c.member? i name = some m)
    (f : Member → α × Member) :
    atMember i name m₀ f c = ((f m).1, c.modify i name fun _ => (f m).2) := by
  simp only [atMember, h, Option.getD_some]

/-- A turn that changes a part of the member as it finds it. -/
theorem atMember_update (m : Member) (f : Member → α) (u : Member → Member → Member)
    (c : Cluster) :
    (f ((c.member? i name).getD m), c.modify i name (u ((c.member? i name).getD m))) =
      atMember i name m (fun m => (f m, u m m)) c := by
  refine congrArg (Prod.mk _) (modify_congr fun m' hm' => ?_)
  rw [hm', Option.getD_some]

end Turns

/-- The turns of a look-up that asks the origin. -/
def loadFrom (i : Nat) (m : Member) (key : String) (ticket : Nat) :
    StateM Cluster (Option (Except CacheError Value)) := do
  let answer ← atMember i m.group.name m (onOrigin key)
  let _ ← atMember i m.group.name m
    (onGroup fun g => (g.afterLoad key ticket answer : Group.Stage PeerRoute × Group Picker))
  pure (some answer)

/-- Asking the peer of a member. -/
def fetchFrom (look : Look) (i : Nat) (m : Member) (key : String) :
    PeerRoute → StateM Cluster (Except CacheError Value)
  | .remote client => fetchBy look client m.group.name key
  | .standIn => atMember i m.group.name m (onStandIn key)

/-- Reading a group and writing another one back is one turn. -/
theorem turn_eq (look : Look) (i : Nat) (m : Member) (key : String)
    (f : Group Picker → Group.Stage PeerRoute × Group Picker) :
    (surroundings look i m key).turn f = atMember i m.group.name m (onGroup f) := by
  funext c
  exact atMember_update m (fun m => (f m.group).1)
    (fun m m' => { m' with group := (f m.group).2 }) c

theorem load_eq (look : Look) (i : Nat) (m : Member) (key : String) :
    (surroundings look i m key).load = atMember i m.group.name m (onOrigin key) := by
  funext c
  exact atMember_update m (fun m => (m.origin.call key).1)
    (fun m m' => { m' with origin := (m.origin.call key).2 }) c

theorem fetch_eq (look : Look) (i : Nat) (m : Member) (key : String) (route : PeerRoute) :
    (surroundings look i m key).fetch route = fetchFrom look i m key route := by
  cases route with
  | remote client => rfl
  | standIn =>
    funext c
    exact atMember_update m (fun m => (m.standIn.call key).1)
      (fun m m' => { m' with standIn := (m.standIn.call key).2 }) c

theorem loadFrom_eq (look : Look) (i : Nat) (m : Member) (key : String) (ticket : Nat) :
    Group.loadFrom (surroundings look i m key) key ticket = loadFrom i m key ticket := by
  rw [Group.loadFrom_turns, load_eq, loadFrom]
  simp only [turn_eq]

/-- How a look-up goes on once its peer has answered. -/
def settle (i : Nat) (m : Member) (key : String) (ticket : Nat)
    (answer : Except CacheError Value) : StateM Cluster (Option (Except CacheError Value)) := do
  match ← atMember i m.group.name m (onGroup fun g =>
    (g.afterFetch ticket answer : Group.Stage PeerRoute × Group Picker)) with
  | .done outcome => pure (some outcome)
  | _ => loadFrom i m key ticket

/-- **A look-up is a row of turns** at one member, with what its peer does between them. -/
theorem lookUp_eq (look : Look) (i : Nat) (m : Member) (key : String)
    (pick : Picker → String → Option PeerRoute) :
    Group.lookUp (surroundings look i m key) pick key = (do
      match ← atMember i m.group.name m (onGroup fun g => g.start pick key) with
      | .done outcome => pure (some outcome)
      | .waiting _ => pure none
      | .loading ticket => loadFrom i m key ticket
      | .fetching ticket route =>
        let answer ← fetchFrom look i m key route
        settle i m key ticket answer) := by
  rw [Group.lookUp_turns, turn_eq]
  congr 1
  funext stage
  cases stage with
  | done outcome | waiting ticket => rfl
  | loading ticket => exact loadFrom_eq look i m key ticket
  | fetching ticket route =>
    simp only [fetch_eq, turn_eq, settle]
    congr 1
    funext answer
    congr 1
    funext stage
    cases stage with
    | done outcome => rfl
    | waiting t | loading t | fetching t route => exact loadFrom_eq look i m key ticket

theorem bind_apply {α β : Type} (x : StateM Cluster α) (f : α → StateM Cluster β) (c : Cluster) :
    (x >>= f) c = f (x c).1 (x c).2 := rfl

/-! ### Look-ups in a member that is there -/

section Present

variable {look : Look} {m : Member} {key : String} {pick : Picker → String → Option PeerRoute}
  {g : Group Picker} {ticket : Nat}

theorem lookUp_of_done (hm : c.member? i m.group.name = some m) {outcome : Except CacheError Value}
    (hstart : m.group.start pick key = (.done outcome, g)) :
    Group.lookUp (surroundings look i m key) pick key c =
      (some outcome, c.modify i m.group.name fun _ => { m with group := g }) := by
  rw [lookUp_eq, bind_apply, atMember_of_some hm]
  simp only [onGroup, hstart]
  rfl

theorem lookUp_of_loading (hm : c.member? i m.group.name = some m)
    (hstart : m.group.start pick key = (.loading ticket, g)) :
    Group.lookUp (surroundings look i m key) pick key c =
      loadFrom i m key ticket (c.modify i m.group.name fun _ => { m with group := g }) := by
  rw [lookUp_eq, bind_apply, atMember_of_some hm]
  simp only [onGroup, hstart]

theorem lookUp_of_fetching (hm : c.member? i m.group.name = some m) {route : PeerRoute}
    (hstart : m.group.start pick key = (.fetching ticket route, g)) :
    Group.lookUp (surroundings look i m key) pick key c =
      (fetchFrom look i m key route >>= settle i m key ticket)
        (c.modify i m.group.name fun _ => { m with group := g }) := by
  rw [lookUp_eq, bind_apply, atMember_of_some hm]
  simp only [onGroup, hstart]

/-- The origin answers a member that may have changed since the look-up began. -/
theorem loadFrom_of_some {m' : Member} (hm : c.member? i m.group.name = some m') :
    loadFrom i m key ticket c =
      (some (m'.origin.call key).1, c.modify i m.group.name fun _ => m'.loaded key ticket) := by
  rw [loadFrom, bind_apply, atMember_of_some hm, bind_apply, atMember_of_some (member?_put hm _),
    modify_modify]
  rfl

/-- So does the peer. -/
theorem settle_of_some {m' : Member} (hm : c.member? i m.group.name = some m')
    (answer : Except CacheError Value) :
    (settle i m key ticket answer c).2 =
      c.modify i m.group.name fun _ => m'.settled key ticket answer := by
  rw [settle, bind_apply, atMember_of_some hm]
  cases answer with
  | ok value => rfl
  | error e =>
    show (loadFrom i m key ticket _).2 = _
    rw [loadFrom_of_some (member?_put hm _), modify_modify]
    rfl

theorem loadFrom_isSome (i : Nat) (m : Member) (key : String) (ticket : Nat) (c : Cluster) :
    (loadFrom i m key ticket c).1.isSome := rfl

theorem settle_isSome (i : Nat) (m : Member) (key : String) (ticket : Nat)
    (answer : Except CacheError Value) (c : Cluster) :
    (settle i m key ticket answer c).1.isSome := by
  cases answer with
  | ok value => rfl
  | error e => exact loadFrom_isSome i m key ticket _

end Present

end Cluster

end RingCache

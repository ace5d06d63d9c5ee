import Mathlib.Tactic.Common
import RingCache.Proofs.Cluster.Members
import RingCache.Proofs.Peer.Path

/-!
# A served request is a look-up that is counted

A fetch is an answer without any request, or what a pool serves (`fetchBy_eq`), and what it serves is
a look-up that is counted (`serveBy_value`). No step of a look-up reads how many requests were served,
so that a request which is counted before a look-up might as well be counted after it
(`look_countServed`).
-/

namespace RingCache

/-! ### Counting a served request -/

namespace Group

variable {π ρ : Type}

/-- The counter of served requests moves with a turn. -/
def Indifferent (f : Group π → Stage ρ × Group π) : Prop :=
  ∀ g, f g.countServed = ((f g).1, (f g).2.countServed)

theorem indifferent_await (ticket : Nat) :
    Indifferent fun g : Group π => (g.await ticket : Stage ρ × Group π) := by
  intro g
  simp only [await, countServed]
  cases g.flights.outcome? ticket <;> rfl

theorem indifferent_load (pick : π → String → Option ρ) (key : String) :
    Indifferent fun g : Group π => g.load pick key := by
  intro g
  simp only [load, countServed]
  rcases g.flights.join key with ⟨ticket | ticket, flights⟩
  · cases g.peers.bind fun peers => pick peers key <;> rfl
  · exact indifferent_await ticket { g with
      flights := flights, counters := { g.counters with loads := g.counters.loads + 1 } }

theorem indifferent_start (pick : π → String → Option ρ) (key : String) :
    Indifferent fun g : Group π => g.start pick key := by
  intro g
  simp only [start, countServed]
  by_cases hkey : key.isEmpty = true
  · rw [if_pos hkey, if_pos hkey]
  · rw [if_neg hkey, if_neg hkey]
    rcases g.cache.get key with ⟨value | value, cache⟩
    · exact indifferent_load pick key { g with
        cache := cache, counters := { g.counters with gets := g.counters.gets + 1 } }
    · rfl

theorem indifferent_afterFetch (ticket : Nat) (answer : Except CacheError Value) :
    Indifferent fun g : Group π => (g.afterFetch ticket answer : Stage ρ × Group π) := by
  intro g
  cases answer <;> rfl

theorem indifferent_afterLoad (key : String) (ticket : Nat) (answer : Except CacheError Value) :
    Indifferent fun g : Group π => (g.afterLoad key ticket answer : Stage ρ × Group π) := by
  intro g
  cases answer <;> rfl

/-- Whoever finds no flight of its key does not wait for one. -/
theorem start_ne_waiting {g : Group π} (pick : π → String → Option ρ) {key : String}
    (hfree : g.flights.live.lookup key = none) (ticket : Nat) :
    (g.start pick key).1 ≠ .waiting ticket := by
  simp only [start]
  by_cases hkey : key.isEmpty = true
  · rw [if_pos hkey]
    nofun
  · rw [if_neg hkey]
    rcases g.cache.get key with ⟨_ | value, cache⟩
    · simp only [load, Flights.join, hfree]
      cases g.peers.bind fun peers => pick peers key <;> nofun
    · nofun

end Group

/-- A member with one more served request. -/
def Member.countServed (m : Member) : Member := { m with group := m.group.countServed }

namespace Cluster

/-- One more request was served by a member. -/
def countServed (c : Cluster) (i : Nat) (name : String) : Cluster :=
  c.modify i name Member.countServed

theorem countServed_comm (c : Cluster) (i j : Nat) (name other : String) :
    (c.countServed i name).countServed j other = (c.countServed j other).countServed i name := by
  by_cases hsame : i = j ∧ name = other
  · obtain ⟨rfl, rfl⟩ := hsame
    rfl
  · exact modify_comm hsame c _ _

/-! ### Computations that do not read the count -/

section Alike

variable {α β : Type} {i j : Nat} {name other : String}

/-- After one more served request the second computation answers what the first does without it, and
leaves the same but for that request. -/
def Alike (i : Nat) (name : String) (x y : StateM Cluster α) : Prop :=
  ∀ c, y (c.countServed i name) = ((x c).1, (x c).2.countServed i name)

theorem alike_pure (a : α) : Alike i name (pure a) (pure a) := fun _ => rfl

theorem Alike.bind {x y : StateM Cluster α} {f g : α → StateM Cluster β} (h : Alike i name x y)
    (hnext : ∀ a, Alike i name (f a) (g a)) : Alike i name (x >>= f) (y >>= g) := by
  intro c
  show g (y _).1 (y _).2 = _
  rw [h c]
  exact hnext _ _

/-- The same member, before a request was counted or after it. -/
def Counted (m m' : Member) : Prop := m' = m ∨ m' = m.countServed

theorem alike_atMember {f : Member → α × Member} {m m' : Member} (hm : Counted m m')
    (hf : ∀ m, f m.countServed = ((f m).1, (f m).2.countServed)) :
    Alike i name (atMember j other m f) (atMember j other m' f) := by
  have hanswer : (f m').1 = (f m).1 := by
    rcases hm with rfl | rfl
    · rfl
    · rw [hf]
  intro c
  by_cases hsame : j = i ∧ other = name
  · obtain ⟨rfl, rfl⟩ := hsame
    cases hc : c.member? j other with
    | none =>
      have hstays : ∀ g, c.modify j other g = c := modify_of_none hc
      simp only [atMember, countServed, hstays, hc, Option.getD_none, hanswer]
    | some m₁ =>
      have hc' : (c.countServed j other).member? j other = some m₁.countServed := by
        rw [countServed, member?_modify_self, hc]
        rfl
      rw [atMember_of_some hc, atMember_of_some hc', hf]
      simp only [countServed, modify_modify]
  · have hc' : (c.countServed i name).member? j other = c.member? j other :=
      member?_modify_of_ne hsame _
    have hcomm : ∀ g, (c.countServed i name).modify j other g =
        (c.modify j other g).countServed i name := fun g =>
      modify_comm (fun h => hsame ⟨h.1.symm, h.2.symm⟩) c _ g
    cases hc : c.member? j other with
    | none =>
      have hstays : ∀ g, c.modify j other g = c := modify_of_none hc
      simp only [atMember, hc', hc, Option.getD_none, hanswer, hcomm, hstays]
    | some m₁ => simp only [atMember, hc', hc, Option.getD_some, hcomm]

theorem alike_onGroup {m m' : Member} (hm : Counted m m')
    {f : Group Picker → Group.Stage PeerRoute × Group Picker} (hf : Group.Indifferent f) :
    Alike i name (atMember j other m (onGroup f)) (atMember j other m' (onGroup f)) := by
  refine alike_atMember hm fun m => ?_
  have hm := hf m.group
  simp only [onGroup, Member.countServed, hm]

theorem alike_loadFrom {m m' : Member} (hm : Counted m m') (key : String) (ticket : Nat) :
    Alike i name (loadFrom j m key ticket) (loadFrom j m' key ticket) := by
  have hname : m'.group.name = m.group.name := by rcases hm with rfl | rfl <;> rfl
  rw [loadFrom, loadFrom, hname]
  refine .bind (alike_atMember hm fun _ => rfl) fun answer => ?_
  refine .bind (alike_onGroup hm (Group.indifferent_afterLoad key ticket answer)) fun _ => ?_
  exact alike_pure _

end Alike

/-! ### Requests between nodes -/

section Requests

variable {look : Look} {i : Nat} {pool : Peer.Pool} {client : Peer.Client} {group key : String}

/-- A request for a key is a look-up, once it is counted. -/
theorem serveBy_value {r : Http.Request} (hroute : pool.route r = .value group key) (c : Cluster) :
    serveBy look i pool r c =
      match c.member? i group with
      | none => (some (.text 404 s!"no such group: {group}"), c)
      | some _ =>
        (((look i group key (c.countServed i group)).1.map FrontEnd.answer),
          (look i group key (c.countServed i group)).2) := by
  simp only [serveBy, hroute, member?]
  show (match (c.node i).registry.find? group with | none => _ | some _ => _ : StateM _ _) c = _
  cases (c.node i).registry.find? group <;> rfl

/-- What a client makes of a request that may have no answer. -/
def carried (client : Peer.Client) : Option Http.Response → Except CacheError Value
  | none => .error (unreachable client "no answer")
  | some response => received client response

/-- What a client comes to: an answer without any request, or a pool of a node. -/
def reach (c : Cluster) (client : Peer.Client) : Except CacheError Value ⊕ Nat × Peer.Pool :=
  if c.link = .down then .inl (.error (unreachable client "network unreachable"))
  else
    match c.endpoints.lookup client.peer with
    | none => .inl (.error (unreachable client "connection refused"))
    | some .silent => .inl (.error (unreachable client "no answer"))
    | some (.fixed status body) => .inl (received client ⟨status, none, body⟩)
    | some (.pool i index) =>
      match (c.node i).pools[index]? with
      | none => .inl (.error (unreachable client "connection refused"))
      | some pool => .inr (i, pool)

@[simp] theorem reach_modify (c : Cluster) (i : Nat) (name : String) (f : Member → Member)
    (client : Peer.Client) : (c.modify i name f).reach client = c.reach client := by
  simp only [reach, link_modify, endpoints_modify, pools_modify]

/-- **A fetch** is an answer without any request, or what a pool serves. -/
theorem fetchBy_eq (look : Look) (client : Peer.Client) (group key : String) (c : Cluster) :
    fetchBy look client group key c =
      match c.reach client with
      | .inl answer => (answer, c)
      | .inr (i, pool) =>
        (carried client (serveBy look i pool ⟨"GET", client.target group key⟩ c).1,
          (serveBy look i pool ⟨"GET", client.target group key⟩ c).2) := by
  rw [reach]
  by_cases hlink : c.link = .down
  · show (if c.link = .down then _ else _ : StateM Cluster _) c = _
    rw [if_pos hlink, if_pos hlink]
    rfl
  · show (if c.link = .down then _ else _ : StateM Cluster _) c = _
    rw [if_neg hlink, if_neg hlink]
    rcases c.endpoints.lookup client.peer with _ | ⟨i, index⟩ | ⟨status, body⟩ | _
    · rfl
    · show (match (c.node i).pools[index]? with | none => _ | some _ => _ : StateM Cluster _) c = _
      cases hpool : (c.node i).pools[index]? with
      | none =>
        simp only [hpool]
        rfl
      | some pool =>
        simp only [hpool]
        show (match (serveBy look i pool ⟨"GET", client.target group key⟩ c).1 with
          | none => _ | some _ => _ : StateM Cluster _) (serveBy look i pool _ c).2 = _
        rcases serveBy look i pool ⟨"GET", client.target group key⟩ c with ⟨_ | response, c'⟩ <;> rfl
    · rfl
    · rfl

theorem reach_pool {c : Cluster} {index : Nat} (hlink : c.link = .up)
    (hlistens : c.endpoints.lookup client.peer = some (.pool i index))
    (hpool : (c.node i).pools[index]? = some pool) : c.reach client = .inr (i, pool) := by
  have hup : ¬ c.link = .down := by
    rw [hlink]
    decide
  simp only [reach, if_neg hup, hlistens, hpool]

end Requests

/-! ### Look-ups do not read the count -/

section Blind

variable {look : Look} {i j : Nat} {name : String}

theorem Counted.name_eq {m m' : Member} (h : Counted m m') : m'.group.name = m.group.name := by
  rcases h with rfl | rfl <;> rfl

/-- Counting a request leaves the members that there are. -/
theorem member?_countServed (c : Cluster) (i j : Nat) (name group : String) :
    c.member? j group = none ∧ (c.countServed i name).member? j group = none ∨
      ∃ m m', Counted m m' ∧ c.member? j group = some m ∧
        (c.countServed i name).member? j group = some m' := by
  rw [countServed, member?_modify]
  cases hc : c.member? j group with
  | none => exact .inl ⟨rfl, ite_self _⟩
  | some m =>
    refine .inr ⟨m, if j = i ∧ group = name then m.countServed else m, ?_, rfl, ?_⟩
    · split
      · exact .inr rfl
      · exact .inl rfl
    · split <;> rfl

theorem alike_serveBy (hlook : ∀ j group key, Alike i name (look j group key) (look j group key))
    (j : Nat) (pool : Peer.Pool) (r : Http.Request) :
    Alike i name (serveBy look j pool r) (serveBy look j pool r) := by
  intro c
  cases hroute : pool.route r with
  | elsewhere | methodNotAllowed | bad fault =>
    simp only [serveBy, hroute]
    rfl
  | value group key =>
    rw [serveBy_value hroute, serveBy_value hroute]
    rcases member?_countServed c i j name group with ⟨hc, hc'⟩ | ⟨m, m', -, hc, hc'⟩
    · rw [hc, hc']
    · rw [hc, hc', countServed_comm]
      simp only [hlook j group key (c.countServed j group)]

theorem alike_fetchBy (hlook : ∀ j group key, Alike i name (look j group key) (look j group key))
    (client : Peer.Client) (group key : String) :
    Alike i name (fetchBy look client group key) (fetchBy look client group key) := by
  intro c
  have hreach : (c.countServed i name).reach client = c.reach client := reach_modify c i name _ _
  rw [fetchBy_eq, fetchBy_eq, hreach]
  rcases c.reach client with answer | ⟨j, pool⟩
  · rfl
  · simp only [alike_serveBy hlook j pool _ c]

theorem alike_fetchFrom
    (hlook : ∀ j group key, Alike i name (look j group key) (look j group key)) {m m' : Member}
    (hm : Counted m m') (key : String) (route : PeerRoute) :
    Alike i name (fetchFrom look j m key route) (fetchFrom look j m' key route) := by
  cases route with
  | remote client =>
    rw [fetchFrom, fetchFrom, hm.name_eq]
    exact alike_fetchBy hlook client m.group.name key
  | standIn =>
    rw [fetchFrom, fetchFrom, hm.name_eq]
    exact alike_atMember hm fun _ => rfl

theorem alike_lookUp (hlook : ∀ j group key, Alike i name (look j group key) (look j group key))
    {m m' : Member} (hm : Counted m m') (key : String)
    (pick : Picker → String → Option PeerRoute) :
    Alike i name (Group.lookUp (surroundings look j m key) pick key)
      (Group.lookUp (surroundings look j m' key) pick key) := by
  rw [lookUp_eq, lookUp_eq, hm.name_eq]
  refine .bind (alike_onGroup hm (Group.indifferent_start pick key)) fun stage => ?_
  cases stage with
  | done outcome | waiting ticket => exact alike_pure _
  | loading ticket => exact alike_loadFrom hm key ticket
  | fetching ticket route =>
    refine .bind (alike_fetchFrom hlook hm key route) fun answer => ?_
    rw [settle, settle, hm.name_eq]
    refine .bind (alike_onGroup hm (Group.indifferent_afterFetch ticket answer)) fun stage => ?_
    cases stage with
    | done outcome => exact alike_pure _
    | waiting t | loading t | fetching t route => exact alike_loadFrom hm key ticket

/-- A look-up within some hops, once the group is found. -/
theorem lookWithin_succ (hops i : Nat) (group key : String) (c : Cluster) :
    lookWithin (hops + 1) i group key c =
      match c.member? i group with
      | none => (some (.error (.groupNotFound group)), c)
      | some m => Group.lookUp (surroundings (lookWithin hops) i m key) (c.node i).pick key c := by
  show (match (c.node i).registry.find? group with
    | none => _ | some _ => _ : StateM Cluster _) c = _
  rw [member?]
  cases (c.node i).registry.find? group <;> rfl

theorem alike_lookWithin (hops j : Nat) (group key : String) :
    Alike i name (lookWithin hops j group key) (lookWithin hops j group key) := by
  induction hops generalizing j group key with
  | zero => exact alike_pure _
  | succ hops ih =>
    intro c
    rw [lookWithin_succ, lookWithin_succ]
    rcases member?_countServed c i j name group with ⟨hc, hc'⟩ | ⟨m, m', hm, hc, hc'⟩
    · rw [hc, hc']
    · have hpick : ((c.countServed i name).node j).pick = (c.node j).pick :=
        pick_modify c i name _ j
      rw [hc, hc', hpick]
      exact alike_lookUp ih hm key (c.node j).pick c

end Blind

/-! ### Whole look-ups -/

theorem get_state (c : Cluster) (i : Nat) (group key : String) :
    (c.get i group key).2 = (look i group key c).2 := rfl

theorem look_eq (c : Cluster) (i : Nat) (group key : String) :
    look i group key c = lookWithin (c.nodes.size + 1) i group key c := by
  simp only [look]
  rfl

/-- **A request might as well be counted after a look-up as before it.** -/
theorem look_countServed (c : Cluster) (i j : Nat) (name group key : String) :
    look j group key (c.countServed i name) =
      ((look j group key c).1, (look j group key c).2.countServed i name) := by
  have hsize : (c.countServed i name).nodes.size = c.nodes.size := size_modify c i name _
  rw [look_eq, look_eq, hsize]
  exact alike_lookWithin _ j group key c

/-- A look-up has an outcome, unless another one leads the flight of its key. -/
theorem look_isSome {c : Cluster} {i : Nat} {group key : String} {m : Member}
    (hm : c.member? i group = some m) (hname : m.group.name = group)
    (hfree : m.group.flights.live.lookup key = none) : (look i group key c).1.isSome := by
  subst hname
  rw [look_eq, lookWithin_succ, hm]
  rcases hstart : m.group.start (c.node i).pick key with ⟨stage, g⟩
  cases stage with
  | done outcome =>
    simp only [lookUp_of_done hm hstart]
    rfl
  | waiting ticket =>
    exact absurd (congrArg Prod.fst hstart) (Group.start_ne_waiting _ hfree ticket)
  | loading ticket =>
    simp only [lookUp_of_loading hm hstart]
    exact loadFrom_isSome ..
  | fetching ticket route =>
    simp only [lookUp_of_fetching hm hstart]
    exact settle_isSome ..

/-- What a client makes of a look-up at its peer. -/
def relayed (client : Peer.Client) : Option (Except CacheError Value) → Except CacheError Value
  | some (.ok value) => .ok value
  | some (.error _) => .error (.peerStatus client.peer 500)
  | none => .error (unreachable client "no answer")

theorem carried_answer (client : Peer.Client) (outcome : Option (Except CacheError Value)) :
    carried client (outcome.map FrontEnd.answer) = relayed client outcome := by
  rcases outcome with _ | e | value <;> rfl

end Cluster

end RingCache

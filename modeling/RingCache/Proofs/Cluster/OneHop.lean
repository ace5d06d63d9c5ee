import Mathlib.Data.List.Induction
import Mathlib.Tactic.Common
import RingCache.Proofs.Cluster.Visits
import RingCache.Proofs.Peer.Picks

/-!
# Nodes that agree on the owners

Nodes have joined a group (`Cluster.Joined`) if they listen at addresses of their own, without a path,
and all have pools of the same peers, just these addresses. They agree on the owner of every key then.
A look-up on the owner asks no peer (`Joined.get_stays`), so that any other look-up comes to its end
after one request, at the owner (`Joined.get_hops`).

As the values of peers are not kept, only owners keep and load a key, unless some origin fails
(`one_hop`).
-/

namespace RingCache

namespace Cluster

open Peer (Sendable)
open Peer.Pool (owner)

/-! ### Nodes that have joined a group -/

/-- Member `m` of node `i` asks the peers, and a pool of its node listens at the address for them,
behind which the paths of requests begin. -/
structure Seated (name : String) (replicas : Nat) (peers : List String) (address : String)
    (c : Cluster) (i : Nat) (m : Member) (index : Nat) (pool : Peer.Pool) : Prop where
  member : c.member? i name = some m
  picker : m.group.peers = some (.pool index)
  holds : (c.node i).pools[index]? = some (pool.setPeers peers)
  self : pool.self = address
  places : pool.config.replicas = replicas
  basePath : pool.config.basePath = Peer.defaultBasePath
  origin : Peer.IsOrigin address
  listens : c.endpoints.lookup address = some (.pool i index)

/-- All nodes have a member of the group, and their pools have the same peers: the addresses at
which they listen. No pool is made for nodes without any position. -/
structure Joined (name : String) (replicas : Nat) (peers : List String) (address : Nat → String)
    (c : Cluster) : Prop where
  link : c.link = .up
  positive : 0 < replicas
  apart : ∀ i j, i < c.nodes.size → j < c.nodes.size → address i = address j → i = j
  listed : ∀ a, a ∈ peers ↔ ∃ i < c.nodes.size, address i = a
  seats : ∀ i < c.nodes.size, ∃ m index pool,
    Seated name replicas peers (address i) c i m index pool

/-- Nobody loads anything in the group. -/
def AtRest (name : String) (c : Cluster) : Prop :=
  ∀ i m, c.member? i name = some m → m.Rests name

variable {name key : String} {replicas : Nat} {peers : List String} {address : Nat → String}
  {c : Cluster} {i o : Nat} {m m' mo : Member}

/-- A member picks the owner of a key, unless that is its own node. -/
theorem Seated.pick {index : Nat} {pool : Peer.Pool} {self : String}
    (h : Seated name replicas peers self c i m index pool) (key : String) :
    (m.group.peers.bind fun peers => (c.node i).pick peers key) =
      (owner replicas peers key).bind fun node =>
        if node = self then none else some (.remote ⟨node, Peer.defaultBasePath⟩) := by
  rw [h.picker, Option.bind_some]
  show ((c.node i).pools[index]?.bind _).map PeerRoute.remote = _
  rw [h.holds, Option.bind_some, Peer.Pool.pick_setPeers, h.self, h.places, h.basePath]
  cases owner replicas peers key with
  | none => rfl
  | some node =>
    rw [Option.bind_some, Option.bind_some]
    split <;> rfl

/-- What happens to a member of another node is no matter. -/
theorem Seated.modify_of_other {index : Nat} {pool : Peer.Pool} {a : String}
    (h : Seated name replicas peers a c o mo index pool) (hne : o ≠ i) (f : Member → Member) :
    Seated name replicas peers a (c.modify i name f) o mo index pool where
  member := by rw [member?_modify_of_other hne, h.member]
  picker := h.picker
  holds := by rw [pools_modify, h.holds]
  self := h.self
  places := h.places
  basePath := h.basePath
  origin := h.origin
  listens := h.listens

theorem Joined.seat (h : Joined name replicas peers address c) (hi : i < c.nodes.size)
    (hm : c.member? i name = some m) :
    ∃ index pool, Seated name replicas peers (address i) c i m index pool := by
  obtain ⟨m₁, index, pool, hseat⟩ := h.seats i hi
  obtain rfl : m = m₁ := Option.some_inj.mp (hm.symm.trans hseat.member)
  exact ⟨index, pool, hseat⟩

/-- Every member but that of the owner picks the owner. -/
theorem Joined.pick_owner (h : Joined name replicas peers address c) (hi : i < c.nodes.size)
    (ho : o < c.nodes.size) (hne : o ≠ i) (hm : c.member? i name = some m)
    (howner : owner replicas peers key = some (address o)) :
    (m.group.peers.bind fun peers => (c.node i).pick peers key) =
      some (.remote ⟨address o, Peer.defaultBasePath⟩) := by
  obtain ⟨index, pool, hseat⟩ := h.seat hi hm
  have haddress : address o ≠ address i := fun heq => hne (h.apart o i ho hi heq)
  rw [hseat.pick, howner, Option.bind_some, if_neg haddress]

/-- A member that keeps the key, or whose node owns it, asks no peer. -/
theorem Joined.get_stays (h : Joined name replicas peers address c) (hrest : AtRest name c)
    (hi : i < c.nodes.size) (hkey : key ≠ "") (hm : c.member? i name = some m)
    (hstays : key ∈ m.kept ∨ owner replicas peers key = some (address i)) :
    ∃ outcome m', m.Stays key outcome m' ∧
      (∀ c' hops, c'.member? i name = some m → (c'.node i).pick = (c.node i).pick →
        lookWithin (hops + 1) i name key c' = (some outcome, c'.modify i name fun _ => m')) ∧
      look i name key c = (some outcome, c.modify i name fun _ => m') := by
  obtain ⟨outcome, m', houtcome⟩ := Member.stays_exists key m
  have hlook : ∀ c' hops, c'.member? i name = some m → (c'.node i).pick = (c.node i).pick →
      lookWithin (hops + 1) i name key c' = (some outcome, c'.modify i name fun _ => m') := by
    intro c' hops hm' hpick
    refine lookWithin_stays hm' (hrest i m hm) hkey houtcome ?_ hops
    intro hmissed
    have hnot := (Cache.get_eq_none_iff (hrest i m hm).carried key).mp hmissed
    obtain ⟨index, pool, hseat⟩ := h.seat hi hm
    rw [hpick, hseat.pick, hstays.resolve_left hnot, Option.bind_some, if_pos rfl]
  refine ⟨outcome, m', houtcome, hlook, ?_⟩
  rw [look_eq, hlook c c.nodes.size hm rfl]

/-- A request for a key that stays on the node which is asked. -/
theorem Seated.fetchBy_served {index : Nat} {pool : Peer.Pool} {a : String}
    {outcome : Except CacheError Value} (h : Seated name replicas peers a c o mo index pool)
    (hname : Sendable name) (hkey : Sendable key) (hlink : c.link = .up) {hops : Nat}
    (hlook : lookWithin hops o name key c = (some outcome, c.modify o name fun _ => m')) :
    fetchBy (lookWithin hops) ⟨a, Peer.defaultBasePath⟩ name key c =
      (relayed ⟨a, Peer.defaultBasePath⟩ (some outcome),
        c.modify o name fun _ => m'.countServed) := by
  have hroute : (pool.setPeers peers).route
      ⟨"GET", Peer.Client.target ⟨a, Peer.defaultBasePath⟩ name key⟩ = .value name key :=
    Peer.Pool.route_target h.basePath h.origin rfl hname hkey
  have hserved : lookWithin hops o name key (c.countServed o name) = _ :=
    alike_lookWithin hops o name key c
  rw [hlook] at hserved
  rw [fetchBy_eq, reach_pool hlink h.listens h.holds]
  simp only [serveBy_value hroute, h.member, hserved, carried_answer]
  rw [countServed, modify_modify]

/-- **A look-up that misses on another node than the owner** is one request to the owner. -/
theorem Joined.get_hops (h : Joined name replicas peers address c) (hrest : AtRest name c)
    (hname : Sendable name) (hkey : Sendable key) (hi : i < c.nodes.size) (ho : o < c.nodes.size)
    (hne : o ≠ i) (hm : c.member? i name = some m) (hmo : c.member? o name = some mo)
    (hmissed : key ∉ m.kept) (howner : owner replicas peers key = some (address o)) :
    ∃ outcome mo' cache, mo.Stays key outcome mo' ∧
      look o name key c = (some outcome, c.modify o name fun _ => mo') ∧
      m.group.cache.get key = (none, cache) ∧
      (c.get i name key).2 = (c.modify o name fun _ => mo'.countServed).modify i name fun _ =>
        (m.departed cache key).settled key m.ticket
          (relayed ⟨address o, Peer.defaultBasePath⟩ (some outcome)) := by
  obtain ⟨cache, hcache⟩ : ∃ cache, m.group.cache.get key = (none, cache) :=
    ⟨_, Prod.ext ((Cache.get_eq_none_iff (hrest i m hm).carried key).mpr hmissed) rfl⟩
  obtain ⟨outcome, mo', hstays, hwithin, hlook⟩ :=
    h.get_stays hrest ho hkey.ne_empty hmo (.inr howner)
  refine ⟨outcome, mo', cache, hstays, hlook, hcache, ?_⟩
  obtain ⟨index, pool, hseat⟩ := h.seat ho hmo
  obtain ⟨hops, hsize⟩ : ∃ hops, c.nodes.size = hops + 1 :=
    ⟨c.nodes.size - 1, (Nat.succ_pred_eq_of_pos (Nat.zero_lt_of_lt hi)).symm⟩
  have hget' := lookWithin_fetches hm (hrest i m hm) hkey.ne_empty hcache
    (h.pick_owner hi ho hne hm howner) c.nodes.size
  -- at the owner nothing is seen of the turn that the other member has taken
  obtain ⟨c₁, hc₁⟩ : ∃ c₁, c₁ = c.modify i name fun _ => m.departed cache key := ⟨_, rfl⟩
  have hlink : c₁.link = .up := by rw [hc₁, link_modify, h.link]
  have hseat₁ : Seated name replicas peers (address o) c₁ o mo index pool := by
    rw [hc₁]
    exact hseat.modify_of_other hne _
  have hpick₁ : (c₁.node o).pick = (c.node o).pick := by rw [hc₁, pick_modify]
  have hfetch := hseat₁.fetchBy_served hname hkey hlink (hwithin c₁ hops hseat₁.member hpick₁)
  have hm₁ : (c₁.modify o name fun _ => mo'.countServed).member? i name =
      some (m.departed cache key) := by
    rw [member?_modify_of_other hne.symm, hc₁, member?_put hm]
  rw [← hc₁, bind_apply, hsize, hfetch] at hget'
  rw [get_state, look_eq, hsize, hget']
  obtain rfl := (hrest i m hm).name
  refine (settle_of_some hm₁ _).trans ?_
  rw [hc₁, modify_comm (fun hsame => hne hsame.1.symm), modify_modify]

/-! ### What a look-up may change -/

/-- A look-up changes a member, which stays in its group with its pool. -/
theorem Joined.modify (h : Joined name replicas peers address c) (hm : c.member? i name = some m)
    (htended : Member.Tended key m m') :
    Joined name replicas peers address (c.modify i name fun _ => m') := by
  refine ⟨h.link, h.positive, ?_, ?_, ?_⟩
  · rw [size_modify]
    exact h.apart
  · rw [size_modify]
    exact h.listed
  · intro j hj
    rw [size_modify] at hj
    by_cases hij : j = i
    · subst hij
      obtain ⟨index, pool, hseat⟩ := h.seat hj hm
      exact ⟨m', index, pool, member?_put hm m', htended.peers.trans hseat.picker,
        by rw [pools_modify, hseat.holds], hseat.self, hseat.places, hseat.basePath, hseat.origin,
        hseat.listens⟩
    · obtain ⟨mj, index, pool, hseat⟩ := h.seats j hj
      exact ⟨mj, index, pool, hseat.modify_of_other hij _⟩

theorem AtRest.modify (h : AtRest name c) (hm : c.member? i name = some m)
    (htended : Member.Tended key m m') : AtRest name (c.modify i name fun _ => m') := by
  intro j mj hj
  rcases member?_put_cases hm hj with ⟨rfl, rfl⟩ | ⟨-, hj⟩
  · exact (h j m hm).tended htended
  · exact h j mj hj

/-- No call of an origin has failed so far. -/
def Unfailing (name : String) (c : Cluster) : Prop :=
  ∀ i m, c.member? i name = some m → ∀ (n : Nat) key, m.origin.calls[n]? = some key →
    ∃ value, m.origin.source (n + 1) key = .ok value

/-- Calls that had not failed in the end had not failed before. -/
theorem Unfailing.of_modify (h : Unfailing name (c.modify i name fun _ => m'))
    (hm : c.member? i name = some m) (htended : Member.Tended key m m') : Unfailing name c := by
  intro j mj hj n k hn
  by_cases hij : j = i
  · subst hij
    rw [hm] at hj
    cases hj
    have hcalls : m'.origin.calls[n]? = some k := by
      rcases htended.calls with ⟨hsame, -⟩ | ⟨hcall, -⟩
      · rw [hsame, hn]
      · rw [hcall, List.getElem?_append_left (List.getElem?_eq_some_iff.mp hn).1, hn]
    have hvalue := h j m' (member?_put hm m') n k hcalls
    rwa [htended.source] at hvalue
  · exact h j mj (by rw [member?_modify_of_other hij, hj]) n k hn

/-- Only owners keep a key, and only owners have called their origin for it. -/
def Placed (name : String) (replicas : Nat) (peers : List String) (address : Nat → String)
    (c : Cluster) : Prop :=
  ∀ i m, c.member? i name = some m →
    (∀ k ∈ m.kept, owner replicas peers k = some (address i)) ∧
      ∀ k ∈ m.origin.calls, owner replicas peers k = some (address i)

/-- A look-up that calls the origin on the owner alone keeps all keys in their places. -/
theorem Placed.modify (h : Placed name replicas peers address c) (hm : c.member? i name = some m)
    (htended : Member.Tended key m m')
    (hcalls : m'.origin.calls = m.origin.calls ∨
      owner replicas peers key = some (address i)) :
    Placed name replicas peers address (c.modify i name fun _ => m') := by
  intro j mj hj
  rcases member?_put_cases hm hj with ⟨rfl, rfl⟩ | ⟨-, hj⟩
  · obtain ⟨hkept, hcalled⟩ := h j m hm
    rcases hcalls with hsame | howner
    · rw [hsame]
      exact ⟨fun k hk => hkept k (htended.kept_subset hsame hk), hcalled⟩
    · rcases htended.calls with ⟨hsame, hsub⟩ | ⟨hcall, hsub⟩
      · rw [hsame]
        exact ⟨fun k hk => hkept k (hsub hk), hcalled⟩
      · rw [hcall]
        refine ⟨?_, ?_⟩
        · intro k hk
          rcases List.mem_cons.mp (hsub hk) with rfl | hk
          · exact howner
          · exact hkept k hk
        · intro k hk
          rcases List.mem_append.mp hk with hk | hk
          · exact hcalled k hk
          · rw [List.mem_singleton.mp hk, howner]
  · exact h j mj hj

/-! ### One look-up -/

/-- The keys that a member keeps. -/
def kept (c : Cluster) (i : Nat) (name : String) : List String :=
  ((c.member? i name).map Member.kept).getD []

/-- The keys for which a member has called its origin. -/
def called (c : Cluster) (i : Nat) (name : String) : List String :=
  ((c.member? i name).map fun m => m.origin.calls).getD []

/-- **One hop**: node `i` asks node `o`, which answers by a look-up of its own that changes no other
node; so it asks nobody. Node `i` calls its origin only if that look-up failed. -/
structure Hop (name key : String) (i o : Nat) (c c' : Cluster) : Prop where
  others : ∀ j, j ≠ i → j ≠ o → c'.node j = c.node j
  asked : c'.node o = ((c.get o name key).2.countServed o name).node o
  alone : ∀ j, j ≠ o → (c.get o name key).2.node j = c.node j
  counters : ∃ m m', c.member? o name = some m ∧ c'.member? o name = some m' ∧
    m'.group.counters.serverRequests = m.group.counters.serverRequests + 1 ∧
    m'.group.counters.peerLoads = m.group.counters.peerLoads ∧
    m'.group.counters.peerErrors = m.group.counters.peerErrors
  origin : c'.called i name = c.called i name ∨ ∃ e, (look o name key c).1 = some (.error e)

/-- What a look-up of `key` on node `i` makes of a cluster. -/
structure OneHop (name : String) (replicas : Nat) (peers : List String) (address : Nat → String)
    (key : String) (i : Nat) (c c' : Cluster) : Prop where
  stays : key ∈ c.kept i name ∨ owner replicas peers key = some (address i) →
    ∀ j, j ≠ i → c'.node j = c.node j
  hops : key ∉ c.kept i name → owner replicas peers key ≠ some (address i) →
    ∃ o < c.nodes.size, o ≠ i ∧ owner replicas peers key = some (address o) ∧
      Hop name key i o c c'

theorem kept_eq (hm : c.member? i name = some m) : c.kept i name = m.kept := by
  rw [kept, hm, Option.map_some, Option.getD_some]

theorem called_eq (hm : c.member? i name = some m) : c.called i name = m.origin.calls := by
  rw [called, hm, Option.map_some, Option.getD_some]

/-- The two ways a look-up of `key` on node `i` may go. -/
inductive Goes (name : String) (replicas : Nat) (peers : List String) (address : Nat → String)
    (key : String) (i : Nat) (c : Cluster) : Cluster → Prop where
  | stays {m m' : Member} {outcome : Except CacheError Value} (hm : c.member? i name = some m)
      (hstays : m.Stays key outcome m')
      (hwhy : key ∈ m.kept ∨ owner replicas peers key = some (address i)) :
      Goes name replicas peers address key i c (c.modify i name fun _ => m')
  | hops {o : Nat} {m mo mo' : Member} {outcome : Except CacheError Value} {cache : Cache}
      (ho : o < c.nodes.size) (hne : o ≠ i) (hm : c.member? i name = some m)
      (hmo : c.member? o name = some mo) (hmissed : key ∉ m.kept)
      (howner : owner replicas peers key = some (address o)) (hstays : mo.Stays key outcome mo')
      (hlook : look o name key c = (some outcome, c.modify o name fun _ => mo'))
      (hcache : m.group.cache.get key = (none, cache)) :
      Goes name replicas peers address key i c
        ((c.modify o name fun _ => mo'.countServed).modify i name fun _ =>
          (m.departed cache key).settled key m.ticket
            (relayed ⟨address o, Peer.defaultBasePath⟩ (some outcome)))

theorem Joined.get_goes (h : Joined name replicas peers address c) (hrest : AtRest name c)
    (hname : Sendable name) (hkey : Sendable key) (hi : i < c.nodes.size) :
    Goes name replicas peers address key i c (c.get i name key).2 := by
  obtain ⟨m, index, pool, hseat⟩ := h.seats i hi
  have hm := hseat.member
  by_cases hwhy : key ∈ m.kept ∨ owner replicas peers key = some (address i)
  · obtain ⟨outcome, m', hstays, -, hlook⟩ := h.get_stays hrest hi hkey.ne_empty hm hwhy
    rw [get_state, hlook]
    exact .stays hm hstays hwhy
  · obtain ⟨hmissed, hother⟩ := not_or.mp hwhy
    obtain ⟨a, howner⟩ := Ring.owner?_exists Ring.Hash.crc32 h.positive
      ((h.listed (address i)).mpr ⟨i, hi, rfl⟩) key
    -- the owner is one of the peers, and so the address of a node
    obtain ⟨o, ho, rfl⟩ := (h.listed a).mp (Ring.owner?_mem howner)
    obtain ⟨mo, index', pool', hseat'⟩ := h.seats o ho
    have hne : o ≠ i := by
      rintro rfl
      exact hother howner
    obtain ⟨outcome, mo', cache, hstays, hlook, hcache, hget'⟩ :=
      h.get_hops hrest hname hkey hi ho hne hm hseat'.member hmissed howner
    rw [hget']
    exact .hops ho hne hm hseat'.member hmissed howner hstays hlook hcache

namespace Goes

variable {c' : Cluster}

theorem size_eq (h : Goes name replicas peers address key i c c') :
    c'.nodes.size = c.nodes.size := by
  cases h with
  | stays hm hstays hwhy => rw [size_modify]
  | hops ho hne hm hmo hmissed howner hstays hlook hcache => rw [size_modify, size_modify]

theorem oneHop (h : Goes name replicas peers address key i c c')
    (hjoined : Joined name replicas peers address c) (hi : i < c.nodes.size) :
    OneHop name replicas peers address key i c c' := by
  cases h with
  | stays hm hstays hwhy =>
    refine ⟨fun _ j hj => node_modify_of_ne hj _ _, ?_⟩
    intro hmissed hother
    rw [kept_eq hm] at hmissed
    exact absurd hwhy (not_or.mpr ⟨hmissed, hother⟩)
  | @hops o m mo mo' outcome cache ho hne hm hmo hmissed howner hstays hlook hcache =>
    refine ⟨?_, fun _ _ => ⟨o, ho, hne, howner, ?_, ?_, ?_, ?_, ?_⟩⟩
    · rw [kept_eq hm, howner]
      rintro (hkept | hown)
      · exact absurd hkept hmissed
      · exact absurd (hjoined.apart o i ho hi (Option.some_inj.mp hown)) hne
    · intro j hji hjo
      rw [node_modify_of_ne hji, node_modify_of_ne hjo]
    · rw [node_modify_of_ne hne, get_state, hlook, countServed, modify_modify]
    · intro j hjo
      rw [get_state, hlook, node_modify_of_ne hjo]
    · obtain ⟨hserved, hloads, herrors⟩ := hstays.counters
      refine ⟨mo, mo'.countServed, hmo, ?_, ?_, hloads, herrors⟩
      · rw [member?_modify_of_other hne, member?_put hmo]
      · rw [← hserved]
        rfl
    · have hm' : (c.modify o name fun _ => mo'.countServed).member? i name = some m := by
        rw [member?_modify_of_other hne.symm, hm]
      rw [hlook, called_eq (member?_put hm' _), called_eq hm]
      cases outcome with
      | ok value => exact .inl rfl
      | error e => exact .inr ⟨e, rfl⟩

/-- What stays while members are tended stays in a look-up: it tends its own member and, if it asks
the owner, that of the owner before. -/
theorem keeps {P : Cluster → Prop} (h : Goes name replicas peers address key i c c')
    (hrest : AtRest name c) (hc : P c)
    (hmodify : ∀ {d j m m'}, P d → d.member? j name = some m → Member.Tended key m m' →
      P (d.modify j name fun _ => m')) : P c' := by
  cases h with
  | stays hm hstays hwhy => exact hmodify hc hm (hstays.tended (hrest _ _ hm))
  | @hops o m mo mo' outcome cache ho hne hm hmo hmissed howner hstays hlook hcache =>
    have hm' : (c.modify o name fun _ => mo'.countServed).member? i name = some m := by
      rw [member?_modify_of_other hne.symm, hm]
    exact hmodify (hmodify hc hmo (hstays.tended (hrest o mo hmo)).countServed) hm'
      ((hrest i m hm).tended_fetched hcache _)

theorem unfailing (h : Goes name replicas peers address key i c c') (hrest : AtRest name c) :
    Unfailing name c' → Unfailing name c :=
  h.keeps (P := fun d => Unfailing name d → Unfailing name c) hrest id
    fun hd hm htended hafter => hd (hafter.of_modify hm htended)

/-- **No key leaves its place**, as long as no origin fails. -/
theorem placed (h : Goes name replicas peers address key i c c') (hrest : AtRest name c)
    (hunfailing : Unfailing name c') (hplaced : Placed name replicas peers address c) :
    Placed name replicas peers address c' := by
  cases h with
  | stays hm hstays hwhy =>
    refine hplaced.modify hm (hstays.tended (hrest _ _ hm)) (.inr ?_)
    exact hwhy.elim ((hplaced _ _ hm).1 key) id
  | @hops o m mo mo' outcome cache ho hne hm hmo hmissed howner hstays hlook hcache =>
    have hm' : (c.modify o name fun _ => mo'.countServed).member? i name = some m := by
      rw [member?_modify_of_other hne.symm, hm]
    have htended := (hrest i m hm).tended_fetched hcache
      (relayed ⟨address o, Peer.defaultBasePath⟩ (some outcome))
    have howned := hplaced.modify hmo (hstays.tended (hrest o mo hmo)).countServed (.inr howner)
    refine howned.modify hm' htended (.inl ?_)
    cases outcome with
    | ok value => rfl
    | error e =>
      -- the owner answers with a failure only if its origin has failed in this very look-up
      obtain ⟨hcalls, hfailed⟩ := hstays.failed
      have hmo' := (hunfailing.of_modify hm' htended) o mo'.countServed (member?_put hmo _)
      have hlast : mo'.origin.calls[mo.origin.calls.length]? = some key := by
        rw [hcalls, List.getElem?_concat_length]
      obtain ⟨value, hvalue⟩ := hmo' _ key hlast
      have hsource := (hstays.tended (hrest o mo hmo)).source
      rw [show mo'.countServed.origin.source = mo.origin.source from hsource, hfailed] at hvalue
      cases hvalue

end Goes

/-! ### Runs -/

/-- Look-ups on these nodes, one after another. -/
def visits (name : String) (c : Cluster) (gets : List (Nat × String)) : Cluster :=
  gets.foldl (fun c e => (c.get e.1 name e.2).2) c

/-- A member that has answered nothing yet. -/
def Fresh (name : String) (m : Member) : Prop :=
  ∃ budget source peers standIn,
    m = ⟨{ (Group.fresh name budget : Group Picker) with peers := peers }, .fresh source, standIn⟩

/-- What holds of nodes that have joined a group, whatever look-ups they have answered. -/
structure Serving (name : String) (replicas : Nat) (peers : List String) (address : Nat → String)
    (c : Cluster) : Prop where
  joined : Joined name replicas peers address c
  rests : AtRest name c
  placed : Unfailing name c → Placed name replicas peers address c

theorem Joined.serving (h : Joined name replicas peers address c)
    (hfresh : ∀ i m, c.member? i name = some m → Fresh name m) :
    Serving name replicas peers address c := by
  refine ⟨h, ?_, fun _ => ?_⟩
  · intro i m hm
    obtain ⟨budget, source, peers, standIn, rfl⟩ := hfresh i m hm
    exact ⟨rfl, rfl, [], Lru.carries_empty budget⟩
  · intro i m hm
    obtain ⟨budget, source, peers, standIn, rfl⟩ := hfresh i m hm
    have hkept : Lru.Store.keys (Lru.Store.empty budget : Lru.Store Value) = [] := by
      rw [Lru.Store.keys, (Lru.carries_empty budget).toList_eq, List.map_nil]
    refine ⟨?_, fun k hk => absurd hk List.not_mem_nil⟩
    show ∀ k ∈ Lru.Store.keys (Lru.Store.empty budget : Lru.Store Value), _
    rw [hkept]
    exact fun k hk => absurd hk List.not_mem_nil

theorem Serving.get (h : Serving name replicas peers address c) (hname : Sendable name)
    (hkey : Sendable key) (hi : i < c.nodes.size) :
    Serving name replicas peers address (c.get i name key).2 := by
  have hgoes := h.joined.get_goes h.rests hname hkey hi
  refine ⟨hgoes.keeps h.rests h.joined .modify, hgoes.keeps h.rests h.rests .modify, ?_⟩
  intro hunfailing
  exact hgoes.placed h.rests hunfailing (h.placed (hgoes.unfailing h.rests hunfailing))

theorem serving_visits (h : Serving name replicas peers address c) (hname : Sendable name)
    {gets : List (Nat × String)} (hgets : ∀ e ∈ gets, e.1 < c.nodes.size ∧ Sendable e.2) :
    Serving name replicas peers address (visits name c gets) ∧
      (visits name c gets).nodes.size = c.nodes.size := by
  induction gets generalizing c with
  | nil => exact ⟨h, rfl⟩
  | cons e gets ih =>
    obtain ⟨hi, hkey⟩ := hgets e List.mem_cons_self
    have hsize := (h.joined.get_goes h.rests hname hkey hi).size_eq
    obtain ⟨hserving, hsize'⟩ := ih (h.get hname hkey hi) (by
      rw [hsize]
      exact fun e' he' => hgets e' (List.mem_cons_of_mem _ he'))
    exact ⟨hserving, hsize'.trans hsize⟩

/-- **Only the owner keeps a key, and it is one hop away.** Let nodes join a group, any number of
them, with any budgets and origins, each at an address of its own that is a scheme and an authority
alone, and let any look-ups be made on them, one after another. Then a look-up that the cache answers,
or that is made on the owner of its key, changes no other node, and every other one asks the owner
once, which asks nobody. The keys that a node keeps, and those for which it has called its origin, are
its own, as long as no origin has failed. -/
theorem one_hop (name : String) (replicas : Nat) (peers : List String) (address : Nat → String)
    (c₀ : Cluster) (hname : Sendable name) (hjoined : Joined name replicas peers address c₀)
    (hfresh : ∀ i m, c₀.member? i name = some m → Fresh name m) (gets : List (Nat × String))
    (hgets : ∀ e ∈ gets, e.1 < c₀.nodes.size ∧ Sendable e.2) :
    let c := visits name c₀ gets
    (∀ i key, i < c₀.nodes.size → Sendable key →
        OneHop name replicas peers address key i c (c.get i name key).2) ∧
      (Unfailing name c → ∀ i < c₀.nodes.size,
        (∀ key ∈ c.kept i name, owner replicas peers key = some (address i)) ∧
          ∀ key ∈ c.called i name, owner replicas peers key = some (address i)) := by
  intro c
  obtain ⟨hserving, hsize⟩ := serving_visits (hjoined.serving hfresh) hname hgets
  refine ⟨?_, ?_⟩
  · intro i key hi hkey
    rw [← hsize] at hi
    exact (hserving.joined.get_goes hserving.rests hname hkey hi).oneHop hserving.joined hi
  · intro hunfailing i hi
    rw [← hsize] at hi
    obtain ⟨m, index, pool, hseat⟩ := hserving.joined.seats i hi
    have hplaced := hserving.placed hunfailing i m hseat.member
    rw [kept_eq hseat.member, called_eq hseat.member]
    exact hplaced

/-- A node of two that have joined the group `scores`, with the keys as their values. -/
def sample (self : String) : Node where
  registry := ⟨[("scores", ⟨{ (Group.fresh "scores" 0 : Group Picker) with
    peers := some (.pool 0) }, .fresh .echo, .fresh .echo⟩)]⟩
  pools := #[Peer.Pool.setPeers ⟨self, .standard, .empty Ring.Hash.crc32 50, ∅⟩
    ["http://a", "http://b"]]

/-- Two nodes, after each has been asked for a key. -/
theorem one_hop_pair :
    let c₀ : Cluster := ⟨.up, #[sample "http://a", sample "http://b"],
      [("http://a", .pool 0 0), ("http://b", .pool 1 0)]⟩
    let address := fun i => if i = 0 then "http://a" else "http://b"
    let c := visits "scores" c₀ [(0, "Tom"), (1, "Tom")]
    Sendable "scores" ∧ Joined "scores" 50 ["http://a", "http://b"] address c₀ ∧
      (∀ i m, c₀.member? i "scores" = some m → Fresh "scores" m) ∧
      (∀ e ∈ [(0, "Tom"), (1, "Tom")], e.1 < c₀.nodes.size ∧ Sendable e.2) ∧
      OneHop "scores" 50 ["http://a", "http://b"] address "Jack" 0 c
        (c.get 0 "scores" "Jack").2 := by
  intro c₀ address c
  have hname : Sendable "scores" := ⟨by decide, by decide, by decide⟩
  have hTom : Sendable "Tom" := ⟨by decide, by decide, by decide⟩
  have hJack : Sendable "Jack" := ⟨by decide, by decide, by decide⟩
  have hmember : ∀ i m, c₀.member? i "scores" = some m → Fresh "scores" m := by
    rintro (_ | _ | i) m hm
    · cases hm
      exact ⟨0, .echo, _, _, rfl⟩
    · cases hm
      exact ⟨0, .echo, _, _, rfl⟩
    · rw [member?, node_of_size_le (Nat.le_add_left 2 i)] at hm
      cases hm
  have hjoined : Joined "scores" 50 ["http://a", "http://b"] address c₀ := by
    refine ⟨rfl, by decide, ?_, ?_, ?_⟩
    · intro i j (hi : i < 2) (hj : j < 2) heq
      have hfirst : ∀ n, address n = "http://a" ↔ n = 0 := by simp [address]
      have hsame := hfirst i
      rw [heq, hfirst j] at hsame
      omega
    · intro a
      simp only [List.mem_cons, List.not_mem_nil, or_false]
      constructor
      · rintro (rfl | rfl)
        · exact ⟨0, by decide, rfl⟩
        · exact ⟨1, by decide, rfl⟩
      · rintro ⟨i, -, rfl⟩
        by_cases hi : i = 0
        · exact .inl (if_pos hi)
        · exact .inr (if_neg hi)
    · rintro (_ | _ | i) hi
      · exact ⟨_, 0, _, rfl, rfl, rfl, rfl, rfl, rfl,
          @Peer.IsOrigin.parts _ "http" "a" rfl (.inl rfl) (by decide) (by simp [Peer.endsAuthority]),
          by simp [c₀, address]⟩
      · exact ⟨_, 0, _, rfl, rfl, rfl, rfl, rfl, rfl,
          @Peer.IsOrigin.parts _ "http" "b" rfl (.inl rfl) (by decide) (by simp [Peer.endsAuthority]),
          by simp [c₀, address, List.lookup_cons]⟩
      · exact absurd hi (by simp [c₀])
  have hgets : ∀ e ∈ [(0, "Tom"), (1, "Tom")], e.1 < c₀.nodes.size ∧ Sendable e.2 := by
    simp [c₀, hTom]
  exact ⟨hname, hjoined, hmember, hgets,
    (one_hop "scores" 50 _ address c₀ hname hjoined hmember _ hgets).1 0 "Jack" (by decide) hJack⟩

end Cluster

end RingCache

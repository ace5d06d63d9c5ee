import Mathlib.Tactic.Common
import RingCache.Proofs.Peer.Picks

/-!
# Every key has one owner

A pool that is set up knows no peers, and then knows those that it was told last (`Pool.Told`): its
ring and its clients are theirs, whatever it was told before (`Told.setPeers_self`). As both are made
of one list, there is a client for every node on the ring, so that nobody is picked only where the
pool owns the key itself or has no peers (`Told.pick_eq_none_iff`).

Pools that were all told one list, and are its nodes, make a *circle*. They agree on the owner of a
key, which is one of them: that one picks nobody, and all others pick it (`one_owner`).
-/

namespace RingCache.Peer.Pool

variable {p : Pool} {peers : List String} {key node : String} {self : String} {config : Config}

/-- A pool that was set up and then told its peers any number of times; these are the last ones. -/
inductive Told : List String → Pool → Prop where
  | created {self : String} {config : Config} {p : Pool} (hcreate : create self config = .ok p) :
      Told [] p
  | told {old : List String} {p : Pool} (h : Told old p) (peers : List String) :
      Told peers (p.setPeers peers)

/-- A pool is set up only if each node can take a position. -/
theorem create_eq_ok (h : create self config = .ok p) :
    0 < config.replicas ∧ p = ⟨self, config, .empty Ring.Hash.crc32 config.replicas, ∅⟩ := by
  rw [create] at h
  split at h
  · cases h
  · split at h
    · cases h
    · next hreplicas =>
      cases h
      exact ⟨Nat.pos_of_ne_zero hreplicas, rfl⟩

namespace Told

/-- **Only the last list matters**: to be told it again changes nothing. -/
theorem setPeers_self (h : Told peers p) : p.setPeers peers = p := by
  cases h with
  | created hcreate =>
    obtain ⟨-, rfl⟩ := create_eq_ok hcreate
    simp [setPeers, Ring.add, Ring.empty]
  | told h peers => rfl

theorem positive (h : Told peers p) : 0 < p.config.replicas := by
  induction h with
  | created hcreate =>
    obtain ⟨hpos, rfl⟩ := create_eq_ok hcreate
    exact hpos
  | told h peers ih => exact ih

theorem owner?_eq (h : Told peers p) (key : String) :
    p.ring.owner? key = owner p.config.replicas peers key := by
  rw [← h.setPeers_self]
  rfl

/-- **Who owns a key has a client.** -/
theorem client (h : Told peers p) (howner : p.ring.owner? key = some node) :
    p.clients[node]? = some ⟨node, p.config.basePath⟩ := by
  rw [h.owner?_eq] at howner
  rw [← h.setPeers_self, clients_setPeers, if_pos (Ring.owner?_mem howner)]
  rfl

/-- A pool picks the owner of a key, unless that is itself. -/
theorem pick_eq (h : Told peers p) (key : String) :
    p.pick key = (owner p.config.replicas peers key).bind fun node =>
      if node = p.self then none else some ⟨node, p.config.basePath⟩ := by
  have hpick := pick_setPeers p peers key
  rwa [h.setPeers_self] at hpick

/-- **Nobody is picked** just where there are no peers or the key is the pool's own. -/
theorem pick_eq_none_iff (h : Told peers p) (key : String) :
    p.pick key = none ↔ peers = [] ∨ p.ring.owner? key = some p.self := by
  rw [h.pick_eq, h.owner?_eq]
  cases howner : owner p.config.replicas peers key with
  | none =>
    have hnil : peers = [] := by
      rw [List.eq_nil_iff_forall_not_mem]
      intro node hnode
      obtain ⟨a, ha⟩ := Ring.owner?_exists Ring.Hash.crc32 h.positive hnode key
      rw [← owner, howner] at ha
      cases ha
    exact iff_of_true rfl (.inl hnil)
  | some node =>
    have hne : peers ≠ [] := List.ne_nil_of_mem (Ring.owner?_mem howner)
    by_cases hself : node = p.self
    · simp [hself]
    · simp [hself, hne]

end Told

/-! ### Pools that are the peers of one another -/

/-- Pools that were all told the same peers last, each of them as one of these. -/
structure Circle {ι : Type} (replicas : Nat) (peers : List String) (pool : ι → Pool) : Prop where
  told : ∀ i, Told peers (pool i)
  replicas : ∀ i, (pool i).config.replicas = replicas
  apart : ∀ i j, (pool i).self = (pool j).self → i = j
  listed : ∀ a, a ∈ peers ↔ ∃ i, (pool i).self = a

variable {ι : Type} {replicas : Nat} {pool : ι → Pool}

/-- The owner of a key is one of them, and they agree on it. -/
theorem Circle.owner_exists (h : Circle replicas peers pool) (hpeers : peers ≠ []) (key : String) :
    ∃ o, owner replicas peers key = some (pool o).self := by
  obtain ⟨node, hnode⟩ := List.exists_mem_of_ne_nil peers hpeers
  obtain ⟨i, -⟩ := (h.listed node).mp hnode
  have hpos : 0 < replicas := h.replicas i ▸ (h.told i).positive
  obtain ⟨a, ha⟩ := Ring.owner?_exists Ring.Hash.crc32 hpos hnode key
  obtain ⟨o, rfl⟩ := (h.listed a).mp (Ring.owner?_mem ha)
  exact ⟨o, ha⟩

/-- **Every key has exactly one owner.** Among pools that were all told the same peers last, and are
just these, one picks nobody for the key, and every other one picks that one. And in every pool,
whatever it was told, all nodes to which the ring leads have their client: nobody is picked just if
there are no peers, or if the pool owns the key. -/
theorem one_owner {ι : Type} (replicas : Nat) (peers : List String) (pool : ι → Pool)
    (h : Circle replicas peers pool) (hpeers : peers ≠ []) (key : String) :
    (∃ o, (pool o).pick key = none ∧
        ∀ i, i ≠ o → (pool i).pick key = some ⟨(pool o).self, (pool i).config.basePath⟩) ∧
      ∀ (told : List String) (p : Pool), Told told p →
        (∀ k node, p.ring.owner? k = some node →
          p.clients[node]? = some ⟨node, p.config.basePath⟩) ∧
        ∀ k, p.pick k = none ↔ told = [] ∨ p.ring.owner? k = some p.self := by
  refine ⟨?_, fun told p htold => ⟨fun k node => htold.client, htold.pick_eq_none_iff⟩⟩
  obtain ⟨o, howner⟩ := h.owner_exists hpeers key
  refine ⟨o, ?_, ?_⟩
  · rw [(h.told o).pick_eq, h.replicas, howner, Option.bind_some, if_pos rfl]
  · intro i hi
    have hne : (pool o).self ≠ (pool i).self := fun hsame => hi (h.apart i o hsame.symm)
    rw [(h.told i).pick_eq, h.replicas, howner, Option.bind_some, if_neg hne]

/-- A pool that has just been set up. -/
theorem told_started (self : String) :
    Told [] ⟨self, .standard, .empty Ring.Hash.crc32 50, ∅⟩ := by
  have hrooted : Config.standard.isRooted = true := by decide +kernel
  have hcreate : create self .standard = .ok ⟨self, .standard, .empty Ring.Hash.crc32 50, ∅⟩ := by
    rw [create, hrooted]
    rfl
  exact .created hcreate

/-- Two pools, of which one had another peer before. -/
theorem one_owner_pair :
    let started (self : String) : Pool := ⟨self, .standard, .empty Ring.Hash.crc32 50, ∅⟩
    let peers := ["http://a", "http://b"]
    let pool (first : Bool) : Pool :=
      if first then ((started "http://a").setPeers ["http://c"]).setPeers peers
      else (started "http://b").setPeers peers
    Circle 50 peers pool ∧ peers ≠ [] ∧
      ∃ o, (pool o).pick "Tom" = none ∧
        ∀ i, i ≠ o → (pool i).pick "Tom" = some ⟨(pool o).self, (pool i).config.basePath⟩ := by
  intro started peers pool
  have hcircle : Circle 50 peers pool := by
    refine ⟨?_, ?_, ?_, ?_⟩
    · rintro (_ | _)
      · exact (told_started "http://b").told peers
      · exact ((told_started "http://a").told ["http://c"]).told peers
    · rintro (_ | _) <;> rfl
    · have hne : "http://a" ≠ "http://b" := by decide
      rintro (_ | _) (_ | _) hself
      · rfl
      · exact absurd hself.symm hne
      · exact absurd hself hne
      · rfl
    · intro a
      simp [peers, pool, started, setPeers, eq_comm, or_comm]
  have hpeers : peers ≠ [] := by simp [peers]
  exact ⟨hcircle, hpeers, (one_owner 50 peers pool hcircle hpeers "Tom").1⟩

end RingCache.Peer.Pool

import Mathlib.Tactic.Common
import RingCache.Peer.Pool
import RingCache.Proofs.Ring.Entries

/-!
# Whom a pool picks

A pool has a client for each of its peers, and its ring knows no other nodes. So it picks the owner
of a key, unless that is itself (`Pool.pick_setPeers`); and there is an owner as soon as there is a
peer (`Ring.owner?_exists`).
-/

namespace RingCache

namespace Ring

variable {hash : Hash} {replicas : Nat} {nodes : List String} {key node : String}

theorem owner?_mem (h : (built hash replicas [nodes]).owner? key = some node) : node ∈ nodes := by
  have hstands := stands_built hash replicas [nodes]
  rw [List.flatten_singleton] at hstands
  by_cases hes : entries hash replicas nodes = []
  · rw [hes] at hstands
    rw [hstands.owner?_nil] at h
    cases h
  · obtain ⟨p, hp⟩ := hstands.next_exists hes (hash key.toUTF8)
    rw [hstands.owner?_next (by rwa [hash_built])] at h
    exact (mem_entries.mp (mem_of_lastAt h)).1

/-- **Every key has an owner**, as soon as some node has a position. -/
theorem owner?_exists (hash : Hash) (hreplicas : 0 < replicas) (hnode : node ∈ nodes)
    (key : String) : ∃ owner, (built hash replicas [nodes]).owner? key = some owner := by
  have hstands := stands_built hash replicas [nodes]
  rw [List.flatten_singleton] at hstands
  have hentry : (position hash node 0, node) ∈ entries hash replicas nodes :=
    mem_entries.mpr ⟨hnode, 0, hreplicas, rfl⟩
  obtain ⟨p, hp⟩ := hstands.next_exists (List.ne_nil_of_mem hentry) (hash key.toUTF8)
  obtain ⟨owner, howner⟩ := lastAt_isSome hp.mem
  exact ⟨owner, by rw [hstands.owner?_next (by rwa [hash_built]), howner]⟩

end Ring

namespace Peer.Pool

variable {p : Pool} {peers : List String}

/-- The owner of a key among peers, each with so many positions. -/
def owner (replicas : Nat) (peers : List String) (key : String) : Option String :=
  (Ring.built Ring.Hash.crc32 replicas [peers]).owner? key

theorem getElem?_foldl_clients (basePath : String) (peers : List String)
    (m : Std.HashMap String Client) (peer : String) :
    (peers.foldl (fun m peer => m.insert peer ⟨peer, basePath⟩) m)[peer]? =
      if peer ∈ peers then some ⟨peer, basePath⟩ else m[peer]? := by
  induction peers generalizing m with
  | nil => simp
  | cons first peers ih =>
    rw [List.foldl_cons, ih, Std.HashMap.getElem?_insert]
    by_cases hmem : peer ∈ peers
    · rw [if_pos hmem, if_pos (List.mem_cons_of_mem _ hmem)]
    · by_cases hfirst : first = peer
      · subst hfirst
        simp [hmem]
      · have hne : peer ≠ first := Ne.symm hfirst
        simp [hmem, hfirst, hne]

/-- There is a client for each peer, and for nobody else. -/
theorem clients_setPeers (p : Pool) (peers : List String) (peer : String) :
    (p.setPeers peers).clients[peer]? =
      if peer ∈ peers then some ⟨peer, p.config.basePath⟩ else none := by
  show (peers.foldl _ _)[peer]? = _
  rw [getElem?_foldl_clients, Std.HashMap.getElem?_empty]

/-- **A pool picks the owner of a key**, unless that is itself. -/
theorem pick_setPeers (p : Pool) (peers : List String) (key : String) :
    (p.setPeers peers).pick key = (owner p.config.replicas peers key).bind fun node =>
      if node = p.self then none else some ⟨node, p.config.basePath⟩ := by
  show (owner p.config.replicas peers key).bind _ = _
  cases howner : owner p.config.replicas peers key with
  | none => rfl
  | some node =>
    have hclient := clients_setPeers p peers node
    rw [if_pos (Ring.owner?_mem howner)] at hclient
    rw [Option.bind_some, Option.bind_some, hclient]
    rfl

end Peer.Pool

end RingCache

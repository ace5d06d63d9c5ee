import Mathlib.Tactic.Common
import RingCache.Proofs.Cluster.Rest

/-!
# A fetch is a look-up at the peer

A client that asks a pool for a key of a group comes out with what a look-up of the key on that node
gives, and leaves the node as this look-up leaves it, with one served request more (`fetch_is_get`).
The path of the request leads to the group and the key again; the pool counts the request and looks
the key up; the answer carries the value, or says that there was a failure.

A look-up whose flight somebody else leads has no outcome before that flight has ended, and until then
there is no answer to bring it. So `fetch_is_get` says of any look-up, with an outcome or without one,
what becomes of it on the way. In a cluster that comes about nobody leads a flight between requests,
and so each look-up has an outcome, which the client can tell from its answer.
-/

namespace RingCache.Cluster

/-- An outcome is a value for the client just where it is one at the peer. -/
theorem relayed_eq_ok (client : Peer.Client) (outcome : Option (Except CacheError Value))
    (value : Value) : relayed client outcome = .ok value ↔ outcome = some (.ok value) := by
  rcases outcome with _ | e | v
  · simp [relayed]
  · simp [relayed]
  · simp [relayed]

/-- A failure at the peer is the status 500 for the client, and nothing else is. -/
theorem relayed_eq_failed (client : Peer.Client) (outcome : Option (Except CacheError Value)) :
    relayed client outcome = .error (.peerStatus client.peer 500) ↔
      ∃ e, outcome = some (.error e) := by
  rcases outcome with _ | e | v
  · simp [relayed, unreachable]
  · simp [relayed]
  · simp [relayed]

/-- A look-up on the spot has a value just where the look-up has it. -/
theorem get_eq_ok (c : Cluster) (i : Nat) (group key : String) (value : Value) :
    (c.get i group key).1 = .ok value ↔ (look i group key c).1 = some (.ok value) := by
  rw [get]
  rcases look i group key c with ⟨_ | e | v, c'⟩
  · simp
  · simp
  · simp

/-- **A fetch over HTTP is a look-up** on the node that is asked, and one more served request. Let the
address of a peer be a scheme and an authority alone, and a pool of a node listen there. Without the
group the client gets the status 404, and nothing changes. With it, whatever answers look-ups is asked
once, and the client gets what becomes of its outcome; the node is left as by the look-up, but for one
more served request. The client gets a value exactly if the look-up does, the same one, and the status
500 exactly if the look-up fails; in a cluster that comes about, between requests, there is nothing
else that it can get. -/
theorem fetch_is_get (c : Cluster) (client : Peer.Client) (i index : Nat) (pool : Peer.Pool)
    (group key : String) (hlink : c.link = .up) (horigin : Peer.IsOrigin client.peer)
    (hlistens : c.endpoints.lookup client.peer = some (.pool i index))
    (hpool : (c.node i).pools[index]? = some pool)
    (hclient : client.basePath = Peer.defaultBasePath)
    (hserver : pool.config.basePath = Peer.defaultBasePath)
    (hgroup : Peer.Sendable group) (hkey : Peer.Sendable key) :
    (c.member? i group = none →
        c.fetch client group key = (.error (.peerStatus client.peer 404), c)) ∧
      ∀ m, c.member? i group = some m →
        (∀ look : Look, fetchBy look client group key c =
          (relayed client (look i group key (c.countServed i group)).1,
            (look i group key (c.countServed i group)).2)) ∧
        c.fetch client group key =
          (relayed client (look i group key c).1, (c.get i group key).2.countServed i group) ∧
        (∀ value, (c.fetch client group key).1 = .ok value ↔ (c.get i group key).1 = .ok value) ∧
        ((c.fetch client group key).1 = .error (.peerStatus client.peer 500) ↔
          ∃ e, (look i group key c).1 = some (.error e)) ∧
        (c.Reached → ((c.fetch client group key).1 = .error (.peerStatus client.peer 500) ↔
          ∃ e, (c.get i group key).1 = .error e)) := by
  have hroute : pool.route ⟨"GET", client.target group key⟩ = .value group key :=
    Peer.Pool.route_target hserver horigin hclient hgroup hkey
  have hfetch : ∀ look : Look, fetchBy look client group key c =
      (carried client (serveBy look i pool ⟨"GET", client.target group key⟩ c).1,
        (serveBy look i pool ⟨"GET", client.target group key⟩ c).2) := by
    intro look
    rw [fetchBy_eq, reach_pool hlink hlistens hpool]
  simp only [serveBy_value hroute] at hfetch
  refine ⟨?_, ?_⟩
  · intro hnone
    rw [fetch, hfetch, hnone]
    rfl
  · intro m hm
    simp only [hm, carried_answer] at hfetch
    have hget : c.fetch client group key =
        (relayed client (look i group key c).1, (c.get i group key).2.countServed i group) := by
      rw [fetch, hfetch look, look_countServed, get_state]
    have hfailed : (c.fetch client group key).1 = .error (.peerStatus client.peer 500) ↔
        ∃ e, (look i group key c).1 = some (.error e) := by
      rw [hget, relayed_eq_failed]
    refine ⟨hfetch, hget, fun value => ?_, hfailed, fun hreached => ?_⟩
    · rw [hget, relayed_eq_ok, get_eq_ok]
    · rw [hfailed, hreached.look_eq]
      simp only [Option.some_inj]

/-- A node without peers is asked for a key with a slash in it, once it is set up and listens. -/
theorem fetch_is_get_slash :
    let pool : Peer.Pool := ⟨"http://b:1", .standard, .empty Ring.Hash.crc32 50, ∅⟩
    let member : Member := ⟨.fresh "scores" 0, .fresh .echo, .fresh .echo⟩
    let c : Cluster :=
      ⟨.up, #[.fresh, ⟨⟨[("scores", member)]⟩, #[pool]⟩], [("http://b:1", .pool 1 0)]⟩
    let client : Peer.Client := ⟨"http://b:1", Peer.defaultBasePath⟩
    c.link = .up ∧ Peer.IsOrigin client.peer ∧
      c.endpoints.lookup client.peer = some (.pool 1 0) ∧
      (c.node 1).pools[0]? = some pool ∧ pool.config.basePath = Peer.defaultBasePath ∧
      Peer.Sendable "scores" ∧ Peer.Sendable "Tom/1" ∧ c.member? 1 "scores" = some member ∧
      c.Reached ∧
      (c.fetch client "scores" "Tom/1").2 =
        (c.get 1 "scores" "Tom/1").2.countServed 1 "scores" ∧
      ((c.fetch client "scores" "Tom/1").1 = .error (.peerStatus client.peer 500) ↔
        ∃ e, (c.get 1 "scores" "Tom/1").1 = .error e) := by
  intro pool member c client
  have horigin : Peer.IsOrigin client.peer :=
    @Peer.IsOrigin.parts _ "http" "b:1" rfl (.inl rfl) (by decide) (by simp [Peer.endsAuthority])
  have hlistens : c.endpoints.lookup client.peer = some (.pool 1 0) := by
    simp [c, client]
  have hgroup : Peer.Sendable "scores" := ⟨by decide, by decide, by decide⟩
  have hkey : Peer.Sendable "Tom/1" := ⟨by decide, by decide, by decide⟩
  have hmember : c.member? 1 "scores" = some member := by
    simp [member?, node, c, Registry.find?]
  have hok : (fresh .up 2).update 1 (·.newGroup "scores" 0 .echo) =
      .ok ⟨.up, #[.fresh, ⟨⟨[("scores", member)]⟩, #[]⟩], []⟩ := rfl
  have hreached : c.Reached :=
    ((Reached.newGroup (.fresh .up 2) hok).join 1 pool).listen "http://b:1" (.pool 1 0)
  obtain ⟨-, hfetch, -, -, hfailed⟩ :=
    (fetch_is_get c client 1 0 pool "scores" "Tom/1" rfl horigin hlistens rfl rfl rfl hgroup hkey).2
      member hmember
  exact ⟨rfl, horigin, hlistens, rfl, rfl, hgroup, hkey, hmember, hreached, by rw [hfetch],
    hfailed hreached⟩

end RingCache.Cluster

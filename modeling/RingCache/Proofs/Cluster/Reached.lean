import Mathlib.Tactic.Common
import RingCache.Proofs.Cluster.Turns
import RingCache.Proofs.Stages

/-!
# What comes about

Clusters come about from fresh nodes: nodes are set up, one after the other, and requests are answered
in between (`Cluster.Reached`). A property of a node that it keeps while it is set up (`Node.Lasting`)
and in every look-up is one of all nodes, whatever is done (`Reached.each`).
-/

namespace RingCache

/-- A property of nodes that is kept in all that sets a node up. -/
structure Node.Lasting (P : Node → Prop) : Prop where
  fresh : P .fresh
  join : ∀ {n} pool, P n → P (n.join pool)
  newGroup : ∀ {n n' name budget source}, P n → n.newGroup name budget source = .ok n' → P n'
  registerPeers : ∀ {n n' name picker standIn}, P n →
    n.registerPeers name picker standIn = .ok n' → P n'
  setPeers : ∀ {n n' peers}, P n → n.setPeers peers = .ok n' → P n'

namespace Cluster

variable {c c' : Cluster} {P : Node → Prop} {i : Nat}

theorem node_fresh (link : Net.Link) (count i : Nat) : (fresh link count).node i = .fresh := by
  rw [node, fresh, Array.getD_eq_getD_getElem?, Array.getElem?_replicate]
  split
  · rfl
  · rfl

theorem each_setNode (h : ∀ j, P (c.node j)) {n : Node} (hn : P n) (j : Nat) :
    P ((c.setNode i n).node j) := by
  rw [node_setNode]
  split
  · exact hn
  · exact h j

theorem each_update (h : ∀ j, P (c.node j)) {f : Node → Except CacheError Node}
    (hf : ∀ n, f (c.node i) = .ok n → P n) (hok : c.update i f = .ok c') (j : Nat) :
    P (c'.node j) := by
  obtain ⟨n, hn, hok⟩ := ok_of_bind hok
  cases hok
  exact each_setNode h (hf n hn) j

/-- Clusters that come about from fresh nodes by what can be done to them. -/
inductive Reached : Cluster → Prop where
  | fresh (link : Net.Link) (count : Nat) : Reached (fresh link count)
  | listen {c : Cluster} (h : Reached c) (address : String) (e : Endpoint) :
    Reached (c.listen address e)
  | join {c : Cluster} (h : Reached c) (i : Nat) (pool : Peer.Pool) :
    Reached (c.setNode i ((c.node i).join pool))
  | newGroup {c c' : Cluster} {i : Nat} {name : String} {budget : UInt64} {source : Source}
    (h : Reached c) (hok : c.update i (·.newGroup name budget source) = .ok c') : Reached c'
  | registerPeers {c c' : Cluster} {i : Nat} {name : String} {picker : Picker} {standIn : Source}
    (h : Reached c) (hok : c.update i (·.registerPeers name picker standIn) = .ok c') : Reached c'
  | registerPool {c c' : Cluster} {i : Nat} {name : String} (h : Reached c)
    (hok : c.update i (·.registerPool name) = .ok c') : Reached c'
  | setPeers {c c' : Cluster} {i : Nat} {peers : List String} (h : Reached c)
    (hok : c.update i (·.setPeers peers) = .ok c') : Reached c'
  | get {c : Cluster} (h : Reached c) (i : Nat) (group key : String) : Reached (c.get i group key).2
  | fetch {c : Cluster} (h : Reached c) (client : Peer.Client) (group key : String) :
    Reached (c.fetch client group key).2
  | serve {c : Cluster} (h : Reached c) (i : Nat) (pool : Peer.Pool) (r : Http.Request) :
    Reached (c.serve i pool r).2
  | frontEnd {c : Cluster} (h : Reached c) (i : Nat) (group : String) (r : Http.Request) :
    Reached (c.frontEnd i group r).2

/-- **What lasts on a node and in every look-up** is there on all nodes of a cluster that comes
about. -/
theorem Reached.each {R : Cluster → Cluster → Prop} (h : c.Reached) (hP : Node.Lasting P)
    (hR : Steady R) (hlook : ∀ i group key, Keeps R (look i group key))
    (hkept : ∀ {c c'}, R c c' → (∀ i, P (c.node i)) → ∀ i, P (c'.node i)) (i : Nat) :
    P (c.node i) := by
  induction h generalizing i with
  | fresh link count => exact node_fresh link count i ▸ hP.fresh
  | listen h address e ih => exact ih i
  | join h j pool ih => exact each_setNode ih (hP.join pool (ih j)) i
  | newGroup h hok ih => exact each_update ih (fun n hn => hP.newGroup (ih _) hn) hok i
  | registerPeers h hok ih => exact each_update ih (fun n hn => hP.registerPeers (ih _) hn) hok i
  | registerPool h hok ih =>
    refine each_update ih (fun n hn => ?_) hok i
    obtain ⟨index, -, hn⟩ := ok_of_bind hn
    exact hP.registerPeers (ih _) hn
  | setPeers h hok ih => exact each_update ih (fun n hn => hP.setPeers (ih _) hn) hok i
  | get h j group key ih => exact hkept (hlook j group key _) ih i
  | fetch h client group key ih => exact hkept (hR.fetch hlook _ client group key) ih i
  | serve h j pool r ih => exact hkept (hR.serve hlook _ j pool r) ih i
  | frontEnd h j group r ih => exact hkept (hR.frontEnd hlook _ j group r) ih i

end Cluster

end RingCache

import Mathlib.Tactic.Common
import RingCache.Proofs.Cluster.Reached
import RingCache.Proofs.Registry

/-!
# Groups keep their names

Groups are registered under their own names, each name once, and no change of a group gives it another
name (`Node.Named`). What is done to nodes keeps it so, and what a look-up does, on whichever nodes it
comes to; so it is the case in every cluster that comes about from fresh nodes (`Reached.named`).
-/

namespace RingCache

namespace Node

/-- Every group is registered under its own name, and the names are in increasing order. -/
structure Named (n : Node) : Prop where
  names : n.registry.names.Pairwise (· < ·)
  groups : ∀ e ∈ n.registry.entries, e.2.group.name = e.1

variable {n n' : Node} {name : String} {f : Member → Member}

theorem Named.name_eq (h : n.Named) {m : Member} (hm : n.registry.find? name = some m) :
    m.group.name = name :=
  h.groups _ (Registry.mem_of_find? hm)

theorem Named.newGroup (h : n.Named) {budget : UInt64} {source : Source}
    (hok : n.newGroup name budget source = .ok n') : n'.Named := by
  obtain ⟨r, hr, hok⟩ := ok_of_bind hok
  cases hok
  refine ⟨Registry.pairwise_register h.names hr, fun e he => ?_⟩
  replace he : e ∈ r.entries := he
  rw [(Registry.register_eq_ok hr).2, (Registry.insertSorted_perm _ _ _).mem_iff] at he
  rcases List.mem_cons.mp he with rfl | he
  · rfl
  · exact h.groups e he

/-- **A group stays under its name**, whatever else becomes of its member. -/
theorem Named.modifyMember (h : n.Named)
    (hf : ∀ m, n.registry.find? name = some m → (f m).group.name = name) :
    (n.modifyMember name f).Named := by
  rw [Node.modifyMember]
  split
  · next m hm =>
    refine ⟨?_, fun e he => ?_⟩
    · show (n.registry.replace name (f m)).names.Pairwise (· < ·)
      rw [Registry.names_replace]
      exact h.names
    · rcases Registry.mem_replace he with rfl | he
      · exact hf m hm
      · exact h.groups e he
  · exact h

theorem Named.registerPeers (h : n.Named) {picker : Picker} {standIn : Source}
    (hok : n.registerPeers name picker standIn = .ok n') : n'.Named := by
  obtain ⟨m, hm, hok⟩ := ok_of_bind hok
  obtain ⟨group, hgroup, hok⟩ := ok_of_bind hok
  cases hok
  have hname : group.name = name :=
    (Group.name_registerPeers hgroup).trans (h.name_eq (Registry.find?_of_require hm))
  exact h.modifyMember fun _ _ => hname

theorem Named.setPeers (h : n.Named) {peers : List String} (hok : n.setPeers peers = .ok n') :
    n'.Named := by
  obtain ⟨pool, -, hok⟩ := ok_of_bind hok
  cases hok
  exact ⟨h.names, h.groups⟩

theorem lasting_named : Lasting Named where
  fresh := ⟨.nil, nofun⟩
  join _ h := ⟨h.names, h.groups⟩
  newGroup h := h.newGroup
  registerPeers h := h.registerPeers
  setPeers h := h.setPeers

end Node

namespace Cluster

/-- On all nodes every group is registered under its own name. -/
def Named (c : Cluster) : Prop := ∀ i, (c.node i).Named

theorem respected_named : Respected fun c c' => c.Named → c'.Named where
  refl _ := id
  trans h h' := h' ∘ h
  put hm hname h :=
    each_setNode h ((h _).modifyMember fun _ _ => hname.trans ((h _).name_eq hm))

/-- **Whatever is done**, every group stays under its own name. -/
theorem Reached.named {c : Cluster} (h : c.Reached) : c.Named :=
  h.each Node.lasting_named respected_named.steady respected_named.look id

end Cluster

end RingCache

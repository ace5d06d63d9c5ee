import Mathlib.Tactic.Common
import RingCache.Proofs.Cluster.Turns
import RingCache.Proofs.Peer.Address
import RingCache.Proofs.Text.Form

/-!
# What a node answers

A request from a peer is either refused at once, and then leaves everything as it was (`Refused`), or
it is one look-up that is counted as a served request (`LookedUp`); no look-up takes a group away
(`isSome_member?_get`), so that there is one to count it. Which of them it is, and with which status,
is decided by the path, the method, the two segments and the groups of the node, in this order
(`serve_answers`).

The front end has another way to write a key, as a field of a query. Both ways lead to the same
look-up, and so to the same answer (`doors_agree`).
-/

namespace RingCache.Cluster

open Peer Text.Percent

/-! ### Members stay -/

theorem isSome_member?_modify (c : Cluster) (i : Nat) (name : String) (f : Member → Member)
    (j : Nat) (other : String) :
    ((c.modify i name f).member? j other).isSome = (c.member? j other).isSome := by
  rw [member?_modify]
  split
  · exact Option.isSome_map
  · rfl

theorem respected_isSome_member? (j : Nat) (name : String) :
    Respected fun c c' => (c'.member? j name).isSome = (c.member? j name).isSome where
  refl _ := rfl
  trans h h' := h'.trans h
  put _ _ := isSome_member?_modify _ _ _ _ j name

/-- **No look-up takes a member away.** -/
theorem isSome_member?_get (c : Cluster) (i : Nat) (group key : String) (j : Nat) (name : String) :
    ((c.get i group key).2.member? j name).isSome = (c.member? j name).isSome :=
  (respected_isSome_member? j name).look i group key c

variable {c : Cluster} {i : Nat} {pool : Pool} {r : Http.Request} {group key : String}

/-! ### Refusals and look-ups -/

/-- A request is refused: no look-up is made for it, whatever would answer one, and nothing
changes. -/
structure Refused (c : Cluster) (i : Nat) (pool : Pool) (r : Http.Request)
    (response : Http.Response) : Prop where
  unasked : ∀ look, serveBy look i pool r c = (some response, c)
  answer : c.serve i pool r = (response, c)

/-- A request is answered by one look-up: it is counted, and the key is looked up in the group, once
and by whatever answers look-ups. The look-up goes as one that is made on the spot; the answer is its
value, or its failure in words, and what it leaves differs by one served request alone. -/
structure LookedUp (c : Cluster) (i : Nat) (pool : Pool) (r : Http.Request) (group key : String) :
    Prop where
  once : ∀ look : Look, serveBy look i pool r c =
    ((look i group key (c.countServed i group)).1.map FrontEnd.answer,
      (look i group key (c.countServed i group)).2)
  found : ∀ value, (c.get i group key).1 = .ok value →
    (c.serve i pool r).1 = ⟨200, some "application/octet-stream", value⟩
  failed : ∀ e, (c.get i group key).1 = .error e → (c.serve i pool r).1 = .text 500 e.message
  counted : ∃ m, (c.get i group key).2.member? i group = some m ∧
    (c.serve i pool r).2 = (c.get i group key).2.modify i group fun _ =>
      { m with group.counters.serverRequests := m.group.counters.serverRequests + 1 }

theorem refused_of_unasked {response : Http.Response}
    (h : ∀ look, serveBy look i pool r c = (some response, c)) : Refused c i pool r response where
  unasked := h
  answer := by rw [serve, h]; rfl

/-- A request that asks for no value is refused. -/
theorem refused_elsewhere (hroute : pool.route r = .elsewhere) :
    Refused c i pool r (.text 404 s!"unexpected path: {r.target.path}") :=
  refused_of_unasked fun look => by simp only [serveBy, hroute]; rfl

theorem refused_other_method (hroute : pool.route r = .methodNotAllowed) :
    Refused c i pool r (.text 405 "method not allowed") :=
  refused_of_unasked fun look => by simp only [serveBy, hroute]; rfl

theorem refused_bad {fault : Pool.BadRequest} (hroute : pool.route r = .bad fault) :
    Refused c i pool r (.text 400 fault.message) :=
  refused_of_unasked fun look => by simp only [serveBy, hroute]; rfl

/-- A request for a key of a group that the node has not is refused. -/
theorem refused_unknown (hroute : pool.route r = .value group key)
    (hm : c.member? i group = none) :
    Refused c i pool r (.text 404 s!"no such group: {group}") := by
  refine refused_of_unasked fun look => ?_
  rw [serveBy_value hroute, hm]

/-- **A served request is one look-up**, with its outcome as the answer. -/
theorem serve_eq {m : Member} (hroute : pool.route r = .value group key)
    (hm : c.member? i group = some m) :
    c.serve i pool r =
      (FrontEnd.answer (c.get i group key).1, (c.get i group key).2.countServed i group) := by
  rw [serve, serveBy_value hroute, hm]
  simp only [look_countServed, get]
  rcases look i group key c with ⟨_ | outcome, c'⟩ <;> rfl

theorem lookedUp_of_route {m : Member} (hroute : pool.route r = .value group key)
    (hm : c.member? i group = some m) : LookedUp c i pool r group key where
  once := fun look => by rw [serveBy_value hroute, hm]
  found := fun value hvalue => by rw [serve_eq hroute hm, hvalue]; rfl
  failed := fun e he => by rw [serve_eq hroute hm, he]; rfl
  counted := by
    have hkept := isSome_member?_get c i group key i group
    rw [hm] at hkept
    obtain ⟨m', hm'⟩ := Option.isSome_iff_exists.mp hkept
    refine ⟨m', hm', ?_⟩
    rw [serve_eq hroute hm]
    refine modify_congr fun m₁ hm₁ => ?_
    cases hm'.symm.trans hm₁
    rfl

/-- **What a pool answers to a request**, whatever the cluster is like. Of several faults the first
one counts.

* A path that does not begin with the base path has the status 404.
* Any method but `GET` has the status 405.
* Two segments that name a group and a key have to follow, else the status is 400.
* A group that the node has not has the status 404.
* Otherwise the key, which is not empty, is looked up in the group. -/
theorem serve_answers (c : Cluster) (i : Nat) (pool : Pool) (r : Http.Request) :
    ((∀ rest, r.target.path ≠ pool.config.basePath ++ rest) →
        Refused c i pool r (.text 404 s!"unexpected path: {r.target.path}")) ∧
      ∀ rest, r.target.path = pool.config.basePath ++ rest →
        (r.method ≠ "GET" → Refused c i pool r (.text 405 "method not allowed")) ∧
        (r.method = "GET" →
          ((∀ group key, ¬ Names rest group key) →
            ∃ fault : Pool.BadRequest, Refused c i pool r (.text 400 fault.message)) ∧
          ∀ group key, Names rest group key → key ≠ "" ∧
            (c.member? i group = none →
              Refused c i pool r (.text 404 s!"no such group: {group}")) ∧
            ∀ m, c.member? i group = some m → LookedUp c i pool r group key) := by
  refine ⟨fun houtside => refused_elsewhere (Pool.route_elsewhere houtside), ?_⟩
  intro rest hpath
  refine ⟨fun hmethod => refused_other_method (Pool.route_other_method hpath hmethod), ?_⟩
  intro hget
  refine ⟨?_, ?_⟩
  · intro hnone
    obtain ⟨fault, hroute⟩ := Pool.route_unnamed hpath hget hnone
    exact ⟨fault, refused_bad hroute⟩
  · intro group key hnames
    have hroute := Pool.route_named hpath hget hnames
    exact ⟨hnames.ne_empty.2, refused_unknown hroute, fun m hm => lookedUp_of_route hroute hm⟩

/-- A request with an escaped slash, and with a percent sign that begins no escape. -/
theorem serve_answers_lenient :
    let pool : Pool := ⟨"http://b", .standard, .empty Ring.Hash.crc32 50, ∅⟩
    let member : Member := ⟨.fresh "scores" 0, .fresh .echo, .fresh .echo⟩
    let c : Cluster := ⟨.up, #[⟨⟨[("scores", member)]⟩, #[pool]⟩], []⟩
    let r : Http.Request := ⟨"GET", ⟨"/_geecache/scores/Tom%2F1%", none⟩⟩
    r.target.path = pool.config.basePath ++ "scores/Tom%2F1%" ∧ r.method = "GET" ∧
      Names "scores/Tom%2F1%" "scores" "Tom/1%" ∧ c.member? 0 "scores" = some member ∧
      LookedUp c 0 pool r "scores" "Tom/1%" := by
  intro pool member c r
  have hpath : r.target.path = pool.config.basePath ++ "scores/Tom%2F1%" := by decide +kernel
  have hnames : Names "scores/Tom%2F1%" "scores" "Tom/1%" :=
    Pool.split_eq_ok_iff.mp (by decide +kernel)
  have hmember : c.member? 0 "scores" = some member := by
    simp [member?, node, c, Registry.find?]
  refine ⟨hpath, rfl, hnames, hmember, ?_⟩
  exact ((((serve_answers c 0 pool r).2 _ hpath).2 rfl).2 _ _ hnames).2.2 member hmember

/-! ### Two ways to ask for a key -/

/-- A query with a field for a key asks the front end for this key. -/
theorem route_query {value : String} (hvalue : Text.Form.Writes key value) {before : List String}
    (hbefore : ∀ field ∈ before, '&' ∉ field.toList ∧ ¬ Text.Form.Named "key" field)
    (after : List String) :
    FrontEnd.route ⟨"GET", ⟨"/api", some ("&".intercalate (before ++ ("key=" ++ value) :: after))⟩⟩ =
      .value key := by
  have hname : "key=" = "key" ++ "=" := by decide +kernel
  have hfield : Text.Form.field? "key" ("&".intercalate (before ++ ("key=" ++ value) :: after)) =
      some key := by
    rw [hname]
    exact Text.Form.field?_first (by decide) (by decide) hbefore hvalue after
  simp only [FrontEnd.route, Http.Request.isGet, Option.bind_some, hfield]
  rfl

/-- **The two doors of a node agree.** A client asks the front end for a key of its group, the key
written as a field of a query in any way and behind any fields of other names; a peer asks a pool of
the node for the same key of this group. From the same state both get the same answer, of one
look-up, and leave the same state, but that the request of the peer is counted. -/
theorem doors_agree (c : Cluster) (i : Nat) (pool : Pool) {m : Member}
    (hm : c.member? i group = some m) (hgroup : group ≠ "") (hkey : key ≠ "") {value : String}
    (hvalue : Text.Form.Writes key value) {before : List String}
    (hbefore : ∀ field ∈ before, '&' ∉ field.toList ∧ ¬ Text.Form.Named "key" field)
    (after : List String) (query : Option String) :
    let front : Http.Request :=
      ⟨"GET", ⟨"/api", some ("&".intercalate (before ++ ("key=" ++ value) :: after))⟩⟩
    let back : Http.Request :=
      ⟨"GET", ⟨pool.config.basePath ++ (encode group ++ "/" ++ encode key), query⟩⟩
    (c.serve i pool back).1 = (c.frontEnd i group front).1 ∧
      (c.serve i pool back).2 = (c.frontEnd i group front).2.countServed i group ∧
      FrontEnd.route front = .value key ∧ LookedUp c i pool back group key := by
  intro front back
  have hfront : FrontEnd.route front = .value key := route_query hvalue hbefore after
  have hback : pool.route back = .value group key :=
    Pool.route_named rfl rfl (names_encode hgroup hkey)
  have hopened : c.frontEnd i group front =
      (FrontEnd.answer (c.get i group key).1, (c.get i group key).2) := by
    simp only [frontEnd, hfront]
  rw [serve_eq hback hm, hopened]
  exact ⟨rfl, rfl, hfront, lookedUp_of_route hback hm⟩

/-- A blank written as a plus sign, behind a field with a longer name and before one of the same. -/
theorem doors_agree_plus :
    let pool : Pool := ⟨"http://b", .standard, .empty Ring.Hash.crc32 50, ∅⟩
    let member : Member := ⟨.fresh "scores" 0, .fresh .echo, .fresh .echo⟩
    let c : Cluster := ⟨.up, #[⟨⟨[("scores", member)]⟩, #[pool]⟩], []⟩
    c.member? 0 "scores" = some member ∧ "scores" ≠ "" ∧ "a b" ≠ "" ∧
      Text.Form.Writes "a b" "a+b" ∧
      (∀ field ∈ ["keys=1"], '&' ∉ field.toList ∧ ¬ Text.Form.Named "key" field) ∧
      (c.serve 0 pool ⟨"GET", ⟨"/_geecache/scores/a%20b", none⟩⟩).1 =
        (c.frontEnd 0 "scores" ⟨"GET", ⟨"/api", some "keys=1&key=a+b&key=no"⟩⟩).1 := by
  intro pool member c
  have hmember : c.member? 0 "scores" = some member := by
    simp [member?, node, c, Registry.find?]
  have hgroup : "scores" ≠ "" := by decide
  have hkey : "a b" ≠ "" := by decide
  have hvalue : Text.Form.Writes "a b" "a+b" := by
    refine ⟨[97, 43, 98], ?_, by decide +kernel⟩
    rw [show "a b".toUTF8.data.toList = [97, 32, 98] by decide +kernel]
    exact .byte 97 (.plus (.byte 98 .nil))
  have hbefore : ∀ field ∈ ["keys=1"], '&' ∉ field.toList ∧ ¬ Text.Form.Named "key" field := by
    intro field hfield
    obtain rfl := List.mem_singleton.mp hfield
    refine ⟨by decide, ?_⟩
    rintro (heq | ⟨value, heq⟩)
    · exact absurd heq (by decide)
    · have hlist := congrArg String.toList heq
      simp at hlist
  have hpath : pool.config.basePath ++ (encode "scores" ++ "/" ++ encode "a b") =
      "/_geecache/scores/a%20b" := by decide +kernel
  have hquery : "&".intercalate (["keys=1"] ++ ("key=" ++ "a+b") :: ["key=no"]) =
      "keys=1&key=a+b&key=no" := by decide +kernel
  have hagree := (doors_agree c 0 pool hmember hgroup hkey hvalue hbefore ["key=no"] none).1
  rw [hpath, hquery] at hagree
  exact ⟨hmember, hgroup, hkey, hvalue, hbefore, hagree⟩

end RingCache.Cluster

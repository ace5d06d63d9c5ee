import Mathlib.Tactic.Common
import RingCache.Proofs.Peer.Path

/-!
# Keys that are dots go astray

A dot stands for itself in an encoded text, so that the segment of a key which is `.` or `..` is the
key itself; and a path that is put in order has no such segment. Therefore a request for such a key,
or in a group of such a name, is sent with other segments than those that were written: with too few,
or with an empty one at their end (`follow_astray`). No pool takes it for a request for a value
(`reached_unless_dots`).
-/

namespace RingCache.Peer

open Text Percent

variable {group key s : String} {p : Pool} {query : Option String} {segments : List String}

/-- A text that is no segment of a path in order. -/
def IsDots (s : String) : Prop := s = "." ∨ s = ".."

theorem encode_dot : encode "." = "." := by decide +kernel

theorem encode_dots : encode ".." = ".." := by decide +kernel

/-! ### The segments that are left -/

theorem follow_plain (h : ¬ IsDots s) (kept rest : List String) :
    follow kept (s :: rest) = follow (s :: kept) rest :=
  follow.eq_4 _ _ _ (fun hdots => h (.inr hdots)) (fun hdot => h (.inl hdot))

theorem not_isDots_encode (h : ¬ IsDots s) : ¬ IsDots (encode s) := by
  rintro (hdot | hdots)
  · exact h (.inl (encode_inj (hdot.trans encode_dot.symm)))
  · exact h (.inr (encode_inj (hdots.trans encode_dots.symm)))

/-- The last segment stays, or dots leave an empty one in its place and may take another one away. -/
theorem follow_last (kept : List String) (key : String) :
    ∃ s, '/' ∉ s.toList ∧ (IsDots key → s = "") ∧
      (follow kept [encode key] = kept.reverse ++ [s] ∨
        follow kept [encode key] = (kept.drop 1).reverse ++ [s]) := by
  by_cases hkey : IsDots key
  · refine ⟨"", List.not_mem_nil, fun _ => rfl, ?_⟩
    rcases hkey with rfl | rfl
    · rw [encode_dot]
      exact .inl List.reverse_cons
    · rw [encode_dots]
      exact .inr List.reverse_cons
  · refine ⟨encode key, slash_not_mem key, fun h => absurd h hkey, .inl ?_⟩
    rw [follow_plain (not_isDots_encode hkey)]
    exact List.reverse_cons

/-- The segments of a path that asks for no value: one outside of the base path, one alone within
it, or one with an empty segment after it. -/
inductive Astray : List String → Prop where
  | outside {s : String} (hs : '/' ∉ s.toList) : Astray [s]
  | alone {s : String} (hs : '/' ∉ s.toList) : Astray ["_geecache", s]
  | keyless {s : String} (hs : '/' ∉ s.toList) : Astray ["_geecache", s, ""]

/-- **Dots lead astray**, in the place of the group as well as in that of the key. -/
theorem follow_astray (h : IsDots group ∨ IsDots key) :
    Astray (follow [] ["_geecache", encode group, encode key]) := by
  have hbase : ¬ IsDots "_geecache" := by simp [IsDots]
  rw [follow_plain hbase]
  by_cases hgroup : IsDots group
  · rcases hgroup with rfl | rfl
    · rw [encode_dot]
      show Astray (follow ["_geecache"] [encode key])
      obtain ⟨s, hs, -, heq | heq⟩ := follow_last ["_geecache"] key
      · exact heq ▸ .alone hs
      · exact heq ▸ .outside hs
    · rw [encode_dots]
      show Astray (follow [] [encode key])
      obtain ⟨s, hs, -, heq | heq⟩ := follow_last [] key
      · exact heq ▸ .outside hs
      · exact heq ▸ .outside hs
  · rw [follow_plain (not_isDots_encode hgroup)]
    obtain ⟨s, hs, hempty, heq | heq⟩ := follow_last [encode group, "_geecache"] key
    · obtain rfl := hempty (h.resolve_left hgroup)
      exact heq ▸ .keyless (slash_not_mem group)
    · exact heq ▸ .alone hs

/-! ### What a pool makes of them -/

/-- Within the base path a pool looks at the rest of the path. -/
theorem Pool.route_within (hp : p.config.basePath = defaultBasePath) (rest : String)
    {fault : BadRequest} (hrest : split rest = .error fault) :
    p.route ⟨"GET", ⟨defaultBasePath ++ rest, query⟩⟩ = .bad fault := by
  have hroute := route_of_split (r := ⟨"GET", ⟨defaultBasePath ++ rest, query⟩⟩)
    (congrArg (· ++ rest) hp.symm) rfl
  rwa [hrest] at hroute

/-- A path of one segment is outside of the base path. -/
theorem Pool.route_outside (hp : p.config.basePath = defaultBasePath) (hs : '/' ∉ s.toList) :
    p.route ⟨"GET", ⟨"/" ++ s, query⟩⟩ = .elsewhere := by
  refine route_elsewhere fun rest hpath => hs ?_
  have hbase : defaultBasePath = "/" ++ ("_geecache" ++ "/") := by decide +kernel
  have hpath' : "/" ++ s = "/" ++ ("_geecache" ++ "/" ++ rest) := by
    rw [← String.append_assoc, ← hbase, ← hp]
    exact hpath
  rw [(String.append_right_inj "/").mp hpath']
  simp

theorem Pool.route_astray (hp : p.config.basePath = defaultBasePath) (h : Astray segments) :
    p.route ⟨"GET", ⟨"/".intercalate ("" :: segments), query⟩⟩ = .elsewhere ∨
      p.route ⟨"GET", ⟨"/".intercalate ("" :: segments), query⟩⟩ = .bad .shape := by
  have hbase : "" ++ "/" ++ "_geecache" ++ "/" = defaultBasePath := by decide +kernel
  cases h with
  | outside hs => exact .inl (route_outside hp hs)
  | @alone s hs =>
    have hpath : "/".intercalate ["", "_geecache", s] = defaultBasePath ++ s :=
      congrArg (· ++ s) hbase
    rw [hpath]
    refine .inr (route_within hp s ?_)
    rw [split, split_of_not_mem hs]
  | @keyless s hs =>
    have hpath : "/".intercalate ["", "_geecache", s, ""] = defaultBasePath ++ (s ++ "/") := by
      show "" ++ "/" ++ "_geecache" ++ "/" ++ s ++ "/" ++ "" = _
      rw [hbase, String.append_empty, String.append_assoc]
    have hsegments : Text.split '/' (s ++ "/") = [s, ""] := by
      have hsplit := split_append hs ""
      rwa [String.append_empty] at hsplit
    rw [hpath]
    refine .inr (route_within hp _ ?_)
    simp only [split, hsegments]
    simp

/-! ### Requests -/

/-- **A pool is asked for the group and the key unless one of them is dots.** Let a client ask a peer
whose address is an origin, with nothing of a path in it. Any other group and key that are not empty
come to the pool as they were asked for, whatever characters they are made of. A request with dots
comes as one that asks for no value: its path is outside of the base path, or does not consist of two
segments that are not empty. -/
theorem reached_unless_dots (p : Pool) (c : Client) (hp : p.config.basePath = defaultBasePath)
    (horigin : IsOrigin c.peer) (hc : c.basePath = defaultBasePath) (group key : String)
    (hgroup : group ≠ "") (hkey : key ≠ "") :
    (p.route ⟨"GET", c.target group key⟩ = .value group key ↔ ¬ IsDots group ∧ ¬ IsDots key) ∧
      (IsDots group ∨ IsDots key →
        p.route ⟨"GET", c.target group key⟩ = .elsewhere ∨
          p.route ⟨"GET", c.target group key⟩ = .bad .shape) := by
  have hastray : IsDots group ∨ IsDots key →
      p.route ⟨"GET", c.target group key⟩ = .elsewhere ∨
        p.route ⟨"GET", c.target group key⟩ = .bad .shape := by
    intro hdots
    rw [target_orderly horigin hc, orderly, split_path c hc]
    exact Pool.route_astray hp (follow_astray hdots)
  refine ⟨⟨?_, ?_⟩, hastray⟩
  · intro hvalue
    rw [← not_or]
    intro hdots
    rcases hastray hdots with hroute | hroute
    · rw [hroute] at hvalue
      cases hvalue
    · rw [hroute] at hvalue
      cases hvalue
  · rintro ⟨hplain, hplain'⟩
    exact Pool.route_target hp horigin hc
      ⟨hgroup, fun hdot => hplain (.inl hdot), fun hdots => hplain (.inr hdots)⟩
      ⟨hkey, fun hdot => hplain' (.inl hdot), fun hdots => hplain' (.inr hdots)⟩

/-- Three dots are a key like any other, even with a slash behind them. -/
theorem reached_unless_dots_slash :
    let pool : Pool := ⟨"http://b:1", .standard, .empty Ring.Hash.crc32 50, ∅⟩
    let client : Client := ⟨"http://b:1", defaultBasePath⟩
    pool.config.basePath = defaultBasePath ∧ IsOrigin client.peer ∧
      client.basePath = defaultBasePath ∧ "scores" ≠ "" ∧ ".../" ≠ "" ∧
      (pool.route ⟨"GET", client.target "scores" ".../"⟩ = .value "scores" ".../" ↔
        ¬ IsDots "scores" ∧ ¬ IsDots ".../") := by
  intro pool client
  have hgroup : "scores" ≠ "" := by decide
  have hkey : ".../" ≠ "" := by decide
  have horigin : IsOrigin client.peer :=
    @IsOrigin.parts _ "http" "b:1" rfl (.inl rfl) (by decide) (by simp [endsAuthority])
  exact ⟨rfl, horigin, rfl, hgroup, hkey,
    (reached_unless_dots pool client rfl horigin rfl "scores" ".../" hgroup hkey).1⟩

/-- **The key `..` is lost**: the request for it asks for the base path alone. -/
theorem two_dots_lost :
    let pool : Pool := ⟨"http://b", .standard, .empty Ring.Hash.crc32 50, ∅⟩
    let client : Client := ⟨"http://b", defaultBasePath⟩
    "scores" ≠ "" ∧ ".." ≠ "" ∧ client.target "scores" ".." = ⟨"/_geecache/", none⟩ ∧
      pool.route ⟨"GET", client.target "scores" ".."⟩ = .bad .shape ∧
      pool.route ⟨"GET", client.target "scores" ".."⟩ ≠ .value "scores" ".." := by
  decide +kernel

end RingCache.Peer

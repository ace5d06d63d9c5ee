import Mathlib.Tactic.Common
import RingCache.Peer.Pool
import RingCache.Proofs.Text.Parts
import RingCache.Proofs.Text.Percent

/-!
# The path of a request leads to its group and its key

An encoded segment holds no slash, so that the segments of a path are the encoded ones, and holds
neither a question mark nor a hash, so that the path is the whole target. Where the peer is an origin
(`IsOrigin`), the path of the address is the one that the client writes behind it. A path without
segments of dots is in order as it is written. So a pool that is asked for a key of a group is asked
for just these (`Pool.route_target`), as long as neither is empty or made of one or two dots.
-/

namespace RingCache.Peer

open Text Percent

variable {group key : String}

/-- A text that a path can hold as one of its segments. -/
structure Sendable (s : String) : Prop where
  ne_empty : s ≠ ""
  ne_dot : s ≠ "."
  ne_dots : s ≠ ".."

/-! ### Segments -/

theorem slash_not_mem (s : String) : '/' ∉ (encode s).toList :=
  not_mem_encode (b := 47) (by decide) (by decide) s

theorem question_not_mem (s : String) : '?' ∉ (encode s).toList :=
  not_mem_encode (b := 63) (by decide) (by decide) s

theorem hash_not_mem (s : String) : '#' ∉ (encode s).toList :=
  not_mem_encode (b := 35) (by decide) (by decide) s

/-- A text is encoded as empty or as dots only if it is that itself. -/
theorem Sendable.encode {s : String} (h : Sendable s) : Sendable (encode s) where
  ne_empty := by
    intro heq
    exact h.ne_empty (encode_inj (heq.trans (by decide +kernel)))
  ne_dot := by
    intro heq
    exact h.ne_dot (encode_inj (heq.trans (by decide +kernel)))
  ne_dots := by
    intro heq
    exact h.ne_dots (encode_inj (heq.trans (by decide +kernel)))

theorem isEmpty_eq_false {s : String} (h : s ≠ "") : s.isEmpty = false := by
  rw [Bool.eq_false_iff]
  exact fun hs => h (String.isEmpty_iff.mp hs)

theorem split_segments (group key : String) :
    Text.split '/' (encode group ++ "/" ++ encode key) = [encode group, encode key] := by
  show Text.split '/' (_ ++ String.singleton '/' ++ _) = _
  rw [split_append (slash_not_mem group), split_of_not_mem (slash_not_mem key)]

/-- **Two encoded segments are read back**, if neither is empty. -/
theorem Pool.split_encode (hgroup : group ≠ "") (hkey : key ≠ "") :
    Pool.split (encode group ++ "/" ++ encode key) = .ok (group, key) := by
  have hempty : ∀ {s : String}, s ≠ "" → (encode s).isEmpty = false := fun hs =>
    isEmpty_eq_false fun heq => hs (encode_inj (heq.trans (by decide +kernel)))
  simp only [Pool.split, split_segments, hempty hgroup, hempty hkey, decodeSegment, decode_encode]
  rfl

/-! ### Paths in order -/

theorem follow_of_plain {segments : List String} (h : ∀ s ∈ segments, s ≠ "." ∧ s ≠ "..")
    (kept : List String) : follow kept segments = kept.reverse ++ segments := by
  induction segments generalizing kept with
  | nil => rw [follow, List.append_nil]
  | cons s segments ih =>
    obtain ⟨hdot, hdots⟩ := h s List.mem_cons_self
    rw [follow.eq_4 _ _ _ hdots hdot, ih fun t ht => h t (List.mem_cons_of_mem _ ht)]
    simp

/-- A path without segments of dots is in order. -/
theorem orderly_of_plain {path : String}
    (h : ∀ s ∈ (Text.split '/' path).tail, s ≠ "." ∧ s ≠ "..") : orderly path = path := by
  have hjoin : "/".intercalate (Text.split '/' path) = path := intercalate_split '/' path
  rw [orderly]
  cases hsplit : Text.split '/' path with
  | nil => rfl
  | cons first rest =>
    rw [hsplit] at h hjoin
    rw [List.tail_cons] at h
    show "/".intercalate (first :: follow [] rest) = path
    rw [follow_of_plain h, List.reverse_nil, List.nil_append, hjoin]

/-! ### Origins -/

/-- A character that ends the authority of an address: from there on it is the path, the query or the
fragment. A backslash counts as a slash. -/
def endsAuthority (c : Char) : Bool := c = '/' || c = '?' || c = '#' || c = '\\'

/-- The address of a server, and of nothing that it has: a scheme and an authority, without a path, a
query or a fragment. -/
inductive IsOrigin (address : String) : Prop where
  | parts {scheme authority : String} (haddress : address = scheme ++ "://" ++ authority)
      (hscheme : scheme = "http" ∨ scheme = "https") (hne : authority ≠ "")
      (hplain : ∀ c ∈ authority.toList, endsAuthority c = false)

/-- The target of an address begins where its authority ends. -/
theorem parse_scheme {scheme : String} (h : scheme = "http" ∨ scheme = "https") (rest : String) :
    Http.Target.parse (scheme ++ "://" ++ rest) =
      .ofLocal (rest.toList.dropWhile fun c => c ≠ '/' && c ≠ '?' && c ≠ '#') := by
  rcases h with rfl | rfl
  · have hlist : ("http" ++ "://" ++ rest).toList =
        'h' :: 't' :: 't' :: 'p' :: ':' :: '/' :: '/' :: rest.toList := by simp
    rw [Http.Target.parse, hlist]
    rfl
  · have hlist : ("https" ++ "://" ++ rest).toList =
        'h' :: 't' :: 't' :: 'p' :: 's' :: ':' :: '/' :: '/' :: rest.toList := by simp
    rw [Http.Target.parse, hlist]
    rfl

/-- **A path behind an origin** is the path of the whole address. -/
theorem parse_append {address path : String} (h : IsOrigin address)
    (hpath : path.toList.head? = some '/') :
    Http.Target.parse (address ++ path) = .ofLocal path.toList := by
  cases h with
  | @parts scheme authority haddress hscheme hne hplain =>
    obtain ⟨rest, hrest⟩ := List.head?_eq_some_iff.mp hpath
    rw [haddress, String.append_assoc, parse_scheme hscheme, String.toList_append,
      List.dropWhile_append_of_pos, hrest]
    · rfl
    · intro c hc
      have hc := hplain c hc
      simp only [endsAuthority, Bool.or_eq_false_iff, decide_eq_false_iff_not] at hc
      simp [hc]

/-! ### Requests -/

/-- The segments of a path under the base path of nodes that are not told another one. -/
theorem split_path (c : Client) (hbase : c.basePath = defaultBasePath) (group key : String) :
    Text.split '/' (c.path group key) = ["", "_geecache", encode group, encode key] := by
  have hpath : c.path group key = "" ++ String.singleton '/' ++
      ("_geecache" ++ String.singleton '/' ++
        (encode group ++ String.singleton '/' ++ encode key)) := by
    have hrooted : defaultBasePath = "" ++ String.singleton '/' ++
        ("_geecache" ++ String.singleton '/') := by decide +kernel
    simp only [Client.path, hbase, hrooted, String.append_assoc]
    rfl
  rw [hpath, split_append (by decide +kernel), split_append (by decide +kernel),
    split_append (slash_not_mem group), split_of_not_mem (slash_not_mem key)]

theorem not_mem_path {c : Client} (hbase : c.basePath = defaultBasePath) {b : Char}
    (hnone : b ∉ defaultBasePath.toList ∧ b ≠ '/') (hplain : ∀ s, b ∉ (encode s).toList) :
    b ∉ (c.path group key).toList := by
  have hslash : b ∉ "/".toList := by
    rw [show "/".toList = ['/'] from rfl, List.mem_singleton]
    exact hnone.2
  simp only [Client.path, hbase, String.toList_append, List.mem_append, not_or]
  exact ⟨⟨⟨hnone.1, hplain group⟩, hslash⟩, hplain key⟩

/-- Where the peer is an origin, a target is the path that is written behind it, put in order: it has
no query and no fragment. -/
theorem target_orderly {c : Client} (horigin : IsOrigin c.peer)
    (hbase : c.basePath = defaultBasePath) (group key : String) :
    c.target group key = ⟨orderly (c.path group key), none⟩ := by
  have hhash : '#' ∉ (c.path group key).toList :=
    not_mem_path hbase (by decide +kernel) hash_not_mem
  have hquestion : '?' ∉ (c.path group key).toList :=
    not_mem_path hbase (by decide +kernel) question_not_mem
  have hne : (c.path group key).toList.isEmpty = false := by
    simp [Client.path, hbase, defaultBasePath]
  have hlocal : Http.Target.ofLocal (c.path group key).toList = ⟨c.path group key, none⟩ := by
    simp only [Http.Target.ofLocal, cut_of_not_mem hhash, cut_of_not_mem hquestion, hne,
      String.ofList_toList]
    rfl
  have hhead : (c.path group key).toList.head? = some '/' := by
    simp [Client.path, hbase, defaultBasePath]
  rw [Client.target, Client.url, parse_append horigin hhead, hlocal]

/-- **What is sent is what is written**, as long as no segment is made of dots. -/
theorem target_eq {c : Client} (horigin : IsOrigin c.peer) (hbase : c.basePath = defaultBasePath)
    (hgroup : Sendable group) (hkey : Sendable key) : c.target group key = ⟨c.path group key, none⟩ := by
  have horderly : orderly (c.path group key) = c.path group key := by
    apply orderly_of_plain
    rw [split_path c hbase]
    simp only [List.tail_cons, List.mem_cons, List.not_mem_nil, or_false]
    rintro s (rfl | rfl | rfl)
    · exact ⟨by decide +kernel, by decide +kernel⟩
    · exact ⟨hgroup.encode.ne_dot, hgroup.encode.ne_dots⟩
    · exact ⟨hkey.encode.ne_dot, hkey.encode.ne_dots⟩
  rw [target_orderly horigin hbase, horderly]

/-- Where a path begins with the base path, a pool looks at the rest of it. -/
theorem Pool.cut_rest {p : Pool} {path rest : String} (hpath : path = p.config.basePath ++ rest) :
    p.config.basePath.toList.isPrefixOf? path.toList = some rest.toList := by
  rw [List.isPrefixOf?_eq_some_iff_append_eq, hpath, String.toList_append]

theorem Pool.route_elsewhere {p : Pool} {r : Http.Request}
    (h : ∀ rest, r.target.path ≠ p.config.basePath ++ rest) : p.route r = .elsewhere := by
  have hcut : p.config.basePath.toList.isPrefixOf? r.target.path.toList = none := by
    cases hrest : p.config.basePath.toList.isPrefixOf? r.target.path.toList with
    | none => rfl
    | some rest =>
      rw [List.isPrefixOf?_eq_some_iff_append_eq] at hrest
      refine absurd (String.toList_injective ?_) (h (String.ofList rest))
      rw [String.toList_append, String.toList_ofList, hrest]
  simp only [route, hcut]

/-- What is asked for is what the rest of the path is split into. -/
theorem Pool.route_of_split {p : Pool} {r : Http.Request} {rest : String}
    (hpath : r.target.path = p.config.basePath ++ rest) (hget : r.method = "GET") :
    p.route r = match split rest with
      | .error fault => .bad fault
      | .ok (group, key) => .value group key := by
  simp only [route, cut_rest hpath, Http.Request.isGet, hget, String.ofList_toList]
  rfl

/-- **A pool is asked for the group and the key** that a client sends. -/
theorem Pool.route_target {p : Pool} {c : Client} (hp : p.config.basePath = defaultBasePath)
    (horigin : IsOrigin c.peer) (hc : c.basePath = defaultBasePath) (hgroup : Sendable group) (hkey : Sendable key) :
    p.route ⟨"GET", c.target group key⟩ = .value group key := by
  have hpath : (c.target group key).path =
      p.config.basePath ++ (encode group ++ "/" ++ encode key) := by
    rw [target_eq horigin hc hgroup hkey]
    simp only [Client.path, hp, hc, String.append_assoc]
  have hroute := route_of_split (r := ⟨"GET", c.target group key⟩) hpath rfl
  rwa [split_encode hgroup.ne_empty hkey.ne_empty] at hroute

end RingCache.Peer

import Mathlib.Tactic.Common
import RingCache.Proofs.Peer.Path
import RingCache.Proofs.Text.Spelling

/-!
# An address leads back to its group and its key

What follows the base path names a group and a key if it is two segments that stand for them
(`Names`), and a pool reads just this out of it (`Pool.split_eq_ok_iff`). The address that a client
writes goes on with such a rest, whatever the peer and the base path are; so an address says which
group and which key are meant (`address_leads_back`).
-/

namespace RingCache.Peer

open Text Percent

variable {group key rest : String}

/-! ### What names a group and a key -/

/-- The rest of a path names a group and a key: it is two segments, neither of them empty or with a
slash in it, and they stand for the group and for the key. -/
inductive Names : String → String → String → Prop where
  | segments {a b group key : String} (ha : a ≠ "") (hb : b ≠ "") (hslash : '/' ∉ a.toList)
      (hslash' : '/' ∉ b.toList) (hgroup : Means a group) (hkey : Means b key) :
      Names (a ++ "/" ++ b) group key

theorem Names.ne_empty (h : Names rest group key) : group ≠ "" ∧ key ≠ "" := by
  cases h with
  | segments ha hb _ _ hgroup hkey => exact ⟨hgroup.ne_empty ha, hkey.ne_empty hb⟩

theorem Pool.decodeSegment_eq_ok_iff {segment s : String} :
    Pool.decodeSegment segment = .ok s ↔ Means segment s := by
  rw [← decode_eq_ok_iff, Pool.decodeSegment]
  cases Percent.decode segment <;> simp [Except.mapError]

/-- Two segments are read one after the other. -/
theorem Pool.split_two {a b : String} (ha : a ≠ "") (hb : b ≠ "")
    (hsegments : Text.split '/' rest = [a, b]) :
    Pool.split rest = .ok (group, key) ↔ Means a group ∧ Means b key := by
  simp only [Pool.split, hsegments, isEmpty_eq_false ha, isEmpty_eq_false hb]
  rw [← decodeSegment_eq_ok_iff, ← decodeSegment_eq_ok_iff]
  cases Pool.decodeSegment a with
  | error fault => simp [bind, Except.bind]
  | ok g =>
    cases Pool.decodeSegment b with
    | error fault => simp [bind, Except.bind]
    | ok k => simp [bind, Except.bind, pure, Except.pure]

/-- **A pool reads a group and a key** just where the rest of a path names them. -/
theorem Pool.split_eq_ok_iff : Pool.split rest = .ok (group, key) ↔ Names rest group key := by
  constructor
  · intro h
    obtain ⟨a, b, hsegments, ha, hb⟩ :
        ∃ a b, Text.split '/' rest = [a, b] ∧ a ≠ "" ∧ b ≠ "" := by
      rw [Pool.split] at h
      split at h
      · next a b hsegments =>
        split at h
        · cases h
        · next hempty =>
          refine ⟨a, b, hsegments, ?_, ?_⟩
          · rintro rfl
            exact hempty rfl
          · rintro rfl
            exact hempty (Bool.or_true _)
      · cases h
    obtain ⟨hgroup, hkey⟩ := (split_two ha hb hsegments).mp h
    have hrest : a ++ "/" ++ b = rest := by
      have hjoin := intercalate_split '/' rest
      rwa [hsegments] at hjoin
    have hslash : ∀ s ∈ [a, b], '/' ∉ s.toList := fun s hs =>
      not_mem_of_mem_split (hsegments.symm ▸ hs)
    rw [← hrest]
    exact .segments ha hb (hslash a (by simp)) (hslash b (by simp)) hgroup hkey
  · rintro ⟨ha, hb, hslash, hslash', hgroup, hkey⟩
    refine (split_two ha hb ?_).mpr ⟨hgroup, hkey⟩
    show Text.split '/' (_ ++ String.singleton '/' ++ _) = _
    rw [split_append hslash, split_of_not_mem hslash']

theorem names_encode (hgroup : group ≠ "") (hkey : key ≠ "") :
    Names (encode group ++ "/" ++ encode key) group key :=
  Pool.split_eq_ok_iff.mp (Pool.split_encode hgroup hkey)

/-! ### What a pool is asked for -/

namespace Pool

variable {p : Pool} {r : Http.Request}

theorem route_other_method (hpath : r.target.path = p.config.basePath ++ rest)
    (hmethod : r.method ≠ "GET") : p.route r = .methodNotAllowed := by
  have hget : r.isGet = false := beq_eq_false_iff_ne.mpr hmethod
  simp only [route, cut_rest hpath, hget]
  rfl

theorem route_named (hpath : r.target.path = p.config.basePath ++ rest) (hget : r.method = "GET")
    (hnames : Names rest group key) : p.route r = .value group key := by
  rw [route_of_split hpath hget, split_eq_ok_iff.mpr hnames]

/-- What names no group and key is a bad request. -/
theorem route_unnamed (hpath : r.target.path = p.config.basePath ++ rest) (hget : r.method = "GET")
    (hnone : ∀ group key, ¬ Names rest group key) : ∃ fault, p.route r = .bad fault := by
  rw [route_of_split hpath hget]
  cases hsplit : split rest with
  | error fault => exact ⟨fault, rfl⟩
  | ok named => exact absurd (split_eq_ok_iff.mp hsplit) (hnone named.1 named.2)

end Pool

/-! ### Addresses -/

/-- An address is the peer, the base path and the two encoded segments. -/
theorem url_eq (c : Client) (group key : String) :
    c.url group key = c.peer ++ c.basePath ++ (encode group ++ "/" ++ encode key) := by
  simp only [Client.url, Client.path, String.append_assoc]

/-- **An address leads back to its group and its key.** For any peer and any base path the address
begins with these, and what follows is read as just the group and the key that were written, if
neither is empty. So no other group and key have this address, not even empty ones. -/
theorem address_leads_back (c : Client) (hgroup : group ≠ "") (hkey : key ≠ "") :
    (c.peer ++ c.basePath).toList <+: (c.url group key).toList ∧
      (∀ rest, c.url group key = c.peer ++ c.basePath ++ rest →
        Pool.split rest = .ok (group, key)) ∧
      ∀ group' key', c.url group' key' = c.url group key → group' = group ∧ key' = key := by
  refine ⟨?_, ?_, ?_⟩
  · exact ⟨_, by rw [← String.toList_append, ← url_eq]⟩
  · intro rest hrest
    rw [url_eq, String.append_right_inj] at hrest
    rw [← hrest]
    exact Pool.split_encode hgroup hkey
  · intro group' key' hsame
    rw [url_eq, url_eq, String.append_right_inj] at hsame
    have hsegments : [encode group', encode key'] = [encode group, encode key] := by
      rw [← split_segments, ← split_segments, hsame]
    obtain ⟨hgroup', hkeys⟩ := List.cons.inj hsegments
    exact ⟨encode_inj hgroup', encode_inj (List.singleton_inj.mp hkeys)⟩

/-- A key that looks encoded already, with a slash and a blank beside it. -/
theorem address_leads_back_twice :
    let client : Client := ⟨"http://b:1", "/_geecache/"⟩
    "my group" ≠ "" ∧ "a/b%2F c" ≠ "" ∧
      client.url "my group" "a/b%2F c" = "http://b:1/_geecache/my%20group/a%2Fb%252F%20c" ∧
      Pool.split "my%20group/a%2Fb%252F%20c" = .ok ("my group", "a/b%2F c") := by
  intro client
  have hgroup : "my group" ≠ "" := by decide
  have hkey : "a/b%2F c" ≠ "" := by decide
  have hurl : client.url "my group" "a/b%2F c" =
      "http://b:1/_geecache/my%20group/a%2Fb%252F%20c" := by decide +kernel
  refine ⟨hgroup, hkey, hurl, ?_⟩
  exact (address_leads_back client hgroup hkey).2.1 _ (hurl.trans (by decide +kernel))

end RingCache.Peer

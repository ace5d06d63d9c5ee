import Mathlib.Algebra.BigOperators.Group.Finset.Basic
import Mathlib.Data.List.Induction
import RingCache.Proofs.Lru.Recency

/-!
# Which requests find their entry

Let keys be requested one after another, and let every entry that can be loaded be put in on its
request, or moved to the front. Without a limit the list of entries is then the list of all loadable
keys in the order of their latest requests (`latest`). With a limit it is always the longest prefix of
this list that fits: to move an entry to the front, or to put one in, comes to the same with the
prefix as with the whole list (`fitting_renewed`).

In front of a key stand just the loadable keys that were requested since (`latest_append`). So a key
is kept if and only if these, together with itself, fit the limit (`mem_fitting_latest`): a request
finds its entry according to how much was asked for since the last one (`Recent`).

The list is what a store carries as long as its count of the bytes is exact (`Countable`).
-/

namespace RingCache.Lru.Recency

/-! ### The latest requests -/

section Latest

variable {α : Type} {l m : Recency α} {key : String} {value : α}

/-- The entries of all keys that were requested and can be loaded, latest request first. -/
def latest (load : String → Option α) (requests : List String) : Recency α :=
  requests.foldl (fun l key =>
    match load key with
    | none => l
    | some value => (key, value) :: without l key) []

variable {load : String → Option α} {requests : List String}

theorem without_append (l m : Recency α) (key : String) :
    without (l ++ m) key = without l key ++ without m key := List.filter_append l m

theorem mem_without {e : String × α} : e ∈ without l key ↔ e ∈ l ∧ e.1 ≠ key := by
  simp [without]

/-- A key stands at one place only. -/
theorem not_mem_front {front back : Recency α}
    (hkeys : (front ++ (key, value) :: back).keys.Nodup) : key ∉ front.keys := by
  intro hmem
  rw [keys, List.map_append, List.map_cons] at hkeys
  exact List.disjoint_of_nodup_append hkeys hmem List.mem_cons_self

theorem latest_concat (requests : List String) (key : String) :
    latest load (requests ++ [key]) =
      match load key with
      | none => latest load requests
      | some value => (key, value) :: without (latest load requests) key := by
  rw [latest, List.foldl_append]
  rfl

/-- An entry was requested and has the value that was loaded. -/
theorem mem_latest : (key, value) ∈ latest load requests ↔ key ∈ requests ∧ load key = some value := by
  induction requests using List.reverseRecOn with
  | nil => simp [latest]
  | append_singleton requests k ih =>
    rw [latest_concat, List.mem_append, List.mem_singleton]
    cases hk : load k with
    | none =>
      rw [ih]
      constructor
      · rintro ⟨hmem, hvalue⟩
        exact ⟨.inl hmem, hvalue⟩
      · rintro ⟨hmem | rfl, hvalue⟩
        · exact ⟨hmem, hvalue⟩
        · rw [hk] at hvalue
          cases hvalue
    | some v =>
      rw [List.mem_cons, mem_without, ih, Prod.mk.injEq]
      constructor
      · rintro (⟨rfl, rfl⟩ | ⟨⟨hmem, hvalue⟩, -⟩)
        · exact ⟨.inr rfl, hk⟩
        · exact ⟨.inl hmem, hvalue⟩
      · rintro ⟨hmem, hvalue⟩
        by_cases hkey : key = k
        · subst hkey
          rw [hk] at hvalue
          cases hvalue
          exact .inl ⟨rfl, rfl⟩
        · exact .inr ⟨⟨hmem.resolve_right hkey, hvalue⟩, hkey⟩

theorem nodup_keys_latest (requests : List String) : (latest load requests).keys.Nodup := by
  induction requests using List.reverseRecOn with
  | nil => exact List.nodup_nil
  | append_singleton requests k ih =>
    rw [latest_concat]
    cases load k with
    | none => exact ih
    | some v =>
      refine List.nodup_cons.mpr ⟨?_, ih.sublist (List.filter_sublist.map Prod.fst)⟩
      intro hmem
      obtain ⟨e, he, hkey⟩ := List.mem_map.mp hmem
      exact (mem_without.mp he).2 hkey

/-- The latest requests of a list are those of its end, and then those of its beginning. -/
theorem latest_append (earlier since : List String) :
    latest load (earlier ++ since) =
      latest load since ++ (latest load earlier).filter fun e => e.1 ∉ since := by
  induction since using List.reverseRecOn with
  | nil => simp [latest]
  | append_singleton since k ih =>
    rw [← List.append_assoc, latest_concat, latest_concat, ih]
    cases hk : load k with
    | none =>
      refine congrArg (_ ++ ·) (List.filter_congr ?_)
      rintro ⟨j, v⟩ he
      have hne : j ≠ k := by
        rintro rfl
        rw [(mem_latest.mp he).2] at hk
        cases hk
      simp [hne]
    | some v =>
      rw [without_append, List.cons_append]
      simp [without, List.filter_filter, and_comm]

end Latest

section Bytes

variable {α : Type} [ByteSize α] {limit : Nat} {l : Recency α} {key : String} {value : α}

/-! ### The longest prefix of a changed list -/

/-- What stands behind a prefix that does not fit is no matter. -/
theorem fitting_append_of_lt (h : limit < bytes l) (m : Recency α) :
    fitting limit (l ++ m) = fitting limit l := by
  induction m using List.reverseRecOn with
  | nil => rw [List.append_nil]
  | append_singleton m e ih =>
    have hlt : limit < bytes (l ++ (m ++ [e])) := by
      rw [bytes_append]
      omega
    rw [fitting_dropLast hlt, ← List.append_assoc, List.dropLast_concat, ih]

/-- The longest prefix that fits is the whole list, or one more entry does not fit. -/
theorem fitting_cases (limit : Nat) (l : Recency α) :
    fitting limit l = l ∨ ∃ e rest, l = fitting limit l ++ e :: rest ∧
      limit < bytes (fitting limit l ++ [e]) := by
  obtain ⟨rest, hrest⟩ := fitting_isPrefix limit l
  cases rest with
  | nil => exact .inl (by rwa [List.append_nil] at hrest)
  | cons e rest =>
    refine .inr ⟨e, rest, hrest.symm, ?_⟩
    by_contra hle
    have hpre : fitting limit l ++ [e] <+: l := ⟨rest, by rw [List.append_assoc]; exact hrest⟩
    have hlength := (prefix_fitting hpre (Nat.le_of_not_lt hle)).length_le
    rw [List.length_append, List.length_singleton] at hlength
    omega

/-- Moving an entry to the front changes no bytes. -/
theorem bytes_renewed (hkeys : l.keys.Nodup) (hmem : (key, value) ∈ l) :
    bytes ((key, value) :: without l key) = bytes l := by
  obtain ⟨n, hn⟩ := List.getElem?_of_mem hmem
  rw [bytes_cons, without_eq_eraseIdx hkeys hn, bytes_eraseIdx hn]

theorem bytes_le_renewed (hkeys : l.keys.Nodup) (hvalue : ∀ v, (key, v) ∈ l → v = value) :
    bytes l ≤ bytes ((key, value) :: without l key) := by
  by_cases hmem : key ∈ l.keys
  · obtain ⟨⟨k, v⟩, he, rfl⟩ := List.mem_map.mp hmem
    obtain rfl := hvalue v he
    rw [bytes_renewed hkeys he]
  · rw [bytes_cons, without_of_not_mem hmem]
    omega

/-- **An entry in front of the longest prefix that fits**, and no other one of its key: what fits of
this is what fits with the whole list behind the entry. -/
theorem fitting_renewed (hkeys : l.keys.Nodup) (hvalue : ∀ v, (key, v) ∈ l → v = value) :
    fitting limit ((key, value) :: without (fitting limit l) key) =
      fitting limit ((key, value) :: without l key) := by
  rcases fitting_cases limit l with hall | ⟨e, rest, hl, hlt⟩
  · rw [hall]
  · obtain ⟨front, hfront⟩ : ∃ front, front = fitting limit l := ⟨_, rfl⟩
    rw [← hfront] at hl hlt ⊢
    subst hl
    have hkeys' : front.keys.Nodup := hkeys.sublist ((List.sublist_append_left _ _).map _)
    have hvalue' : ∀ v, (key, v) ∈ front → v = value := fun v hv =>
      hvalue v (List.mem_append_left _ hv)
    have hbytes := bytes_le_renewed hkeys' hvalue'
    rw [bytes_append, bytes_cons, bytes_nil] at hlt
    rw [without_append, ← List.cons_append]
    by_cases hkey : e.1 = key
    · -- the first entry that did not fit is the one that goes to the front
      obtain ⟨k, v⟩ := e
      obtain rfl : k = key := hkey
      obtain rfl := hvalue v (List.mem_append_right _ List.mem_cons_self)
      refine (fitting_append_of_lt ?_ _).symm
      rw [bytes_cons, without_of_not_mem (not_mem_front hkeys)]
      omega
    · have hrest : without (e :: rest) key = [e] ++ without rest key :=
        List.filter_cons_of_pos (by simpa using hkey)
      have hover : limit < bytes ((key, value) :: without front key ++ [e]) := by
        rw [bytes_append, bytes_cons e, bytes_nil]
        omega
      rw [hrest, ← List.append_assoc, fitting_append_of_lt hover, fitting_dropLast hover,
        List.dropLast_concat]

/-- An entry fits if the bytes up to it do. -/
theorem mem_keys_fitting {front back : Recency α} (h : l = front ++ (key, value) :: back)
    (hkeys : l.keys.Nodup) :
    key ∈ (fitting limit l).keys ↔ bytes front + entryBytes (key, value) ≤ limit := by
  subst h
  have hbytes : bytes (front ++ [(key, value)]) = bytes front + entryBytes (key, value) := by
    rw [bytes_append, bytes_cons, bytes_nil, Nat.add_zero]
  have hpre : front ++ [(key, value)] <+: front ++ (key, value) :: back :=
    ⟨back, by rw [List.append_assoc, List.singleton_append]⟩
  constructor
  · intro hmem
    have hfitting := fitting_isPrefix limit (front ++ (key, value) :: back)
    have hle := bytes_fitting_le limit (front ++ (key, value) :: back)
    rw [← hbytes]
    rcases List.prefix_or_prefix_of_prefix hpre hfitting with hlong | hshort
    · exact (bytes_le_of_sublist hlong.sublist).trans hle
    · rcases List.prefix_concat_iff.mp hshort with hall | hfront
      · rwa [← hall]
      · exact absurd ((hfront.sublist.map Prod.fst).subset hmem) (not_mem_front hkeys)
  · intro hle
    have hfits := prefix_fitting hpre (hbytes.trans_le hle)
    exact List.mem_map_of_mem (f := Prod.fst)
      (hfits.subset (List.mem_append_right _ (List.mem_singleton_self _)))

/-! ### Bytes of the latest requests -/

/-- The bytes of the entry of a key; none if it cannot be loaded. -/
def weight (load : String → Option α) (key : String) : Nat :=
  match load key with
  | none => 0
  | some value => entryBytes (key, value)

variable {load : String → Option α} {requests since : List String}

theorem weight_eq (hvalue : load key = some value) :
    weight load key = entryBytes (key, value) := by
  rw [weight, hvalue]

/-- **The bytes of the latest requests** are those of all keys that were requested, each once. -/
theorem bytes_latest (requests : List String) :
    bytes (latest load requests) = ∑ k ∈ requests.toFinset, weight load k := by
  have hweights : bytes (latest load requests) = ((latest load requests).keys.map (weight load)).sum := by
    rw [bytes, keys, List.map_map]
    refine congrArg List.sum (List.map_congr_left ?_)
    rintro ⟨k, v⟩ he
    exact (weight_eq (mem_latest.mp he).2).symm
  rw [hweights, ← List.sum_toFinset _ (nodup_keys_latest requests)]
  refine Finset.sum_subset ?_ ?_
  · intro k hk
    obtain ⟨⟨j, v⟩, he, rfl⟩ := List.mem_map.mp (List.mem_toFinset.mp hk)
    exact List.mem_toFinset.mpr (mem_latest.mp he).1
  · intro k hk hnot
    -- a key that has no entry cannot be loaded
    cases hload : load k with
    | none => simp [weight, hload]
    | some v =>
      have he := mem_latest.mpr ⟨List.mem_toFinset.mp hk, hload⟩
      exact absurd (List.mem_toFinset.mpr (List.mem_map_of_mem (f := Prod.fst) he)) hnot

/-! ### Requests that find their entry -/

/-- A request for `key` finds its entry: the key can be loaded, it was requested before, and all that
was requested since then fits the limit, together with the key itself. -/
def Recent (load : String → Option α) (limit : Nat) (requests : List String) (key : String) :
    Prop :=
  (load key).isSome ∧ ∃ earlier since, requests = earlier ++ key :: since ∧ key ∉ since ∧
    ∑ k ∈ (key :: since).toFinset, weight load k ≤ limit

theorem requested_of_kept (h : (key, value) ∈ fitting limit (latest load requests)) :
    key ∈ requests ∧ load key = some value :=
  mem_latest.mp ((fitting_isPrefix _ _).subset h)

/-- What stands up to a key are the requests since then, and the key. -/
theorem mem_fitting_since (hvalue : load key = some value) (hsince : key ∉ since)
    (limit : Nat) (earlier : List String) :
    key ∈ (fitting limit (latest load (earlier ++ key :: since))).keys ↔
      ∑ k ∈ (key :: since).toFinset, weight load k ≤ limit := by
  have hlatest : latest load (earlier ++ key :: since) = latest load since ++ (key, value) ::
      (without (latest load earlier) key).filter fun e => e.1 ∉ since := by
    rw [List.append_cons, latest_append, latest_concat, hvalue]
    exact congrArg _ (List.filter_cons_of_pos (by simpa using hsince))
  rw [mem_keys_fitting hlatest (nodup_keys_latest _), bytes_latest, List.toFinset_cons,
    Finset.sum_insert (by simpa using hsince), weight_eq hvalue, Nat.add_comm]

/-- **Just the keys that were requested recently are kept.** -/
theorem mem_fitting_latest (limit : Nat) (requests : List String) (key : String) :
    key ∈ (fitting limit (latest load requests)).keys ↔ Recent load limit requests key := by
  constructor
  · intro hmem
    obtain ⟨⟨k, v⟩, he, rfl⟩ := List.mem_map.mp hmem
    obtain ⟨hrequest, hvalue⟩ := requested_of_kept he
    obtain ⟨since, earlier, hreverse, hsince⟩ :=
      List.eq_append_cons_of_mem (List.mem_reverse.mpr hrequest)
    have hrequests : requests = earlier.reverse ++ k :: since.reverse := by
      rw [← List.reverse_reverse requests, hreverse]
      simp
    have hsince' : k ∉ since.reverse := mt List.mem_reverse.mp hsince
    refine ⟨by rw [hvalue]; rfl, _, _, hrequests, hsince', ?_⟩
    rw [hrequests] at hmem
    exact (mem_fitting_since hvalue hsince' limit _).mp hmem
  · rintro ⟨hload, earlier, since, rfl, hsince, hle⟩
    obtain ⟨value, hvalue⟩ := Option.isSome_iff_exists.mp hload
    exact (mem_fitting_since hvalue hsince limit earlier).mpr hle

/-! ### One request more -/

/-- **A request that can be loaded** moves its entry to the front of those that are kept, or puts it
there, and then keeps what fits. -/
theorem fitting_latest_concat (limit : Nat) (requests : List String)
    (hvalue : load key = some value) :
    fitting limit (latest load (requests ++ [key])) =
      fitting limit ((key, value) :: without (fitting limit (latest load requests)) key) := by
  have hsame : ∀ v, (key, v) ∈ latest load requests → v = value := by
    intro v hv
    rw [(mem_latest.mp hv).2] at hvalue
    exact Option.some_inj.mp hvalue
  rw [latest_concat, hvalue, fitting_renewed (nodup_keys_latest requests) hsame]

theorem nodup_keys_fitting (hkeys : l.keys.Nodup) (limit : Nat) : (fitting limit l).keys.Nodup :=
  hkeys.sublist ((fitting_isPrefix limit l).sublist.map Prod.fst)

/-- A request that finds its entry only moves it. -/
theorem fitting_latest_found (hmem : (key, value) ∈ fitting limit (latest load requests)) :
    fitting limit (latest load (requests ++ [key])) =
      (key, value) :: without (fitting limit (latest load requests)) key := by
  have hvalue := (requested_of_kept hmem).2
  have hbytes := bytes_renewed (nodup_keys_fitting (nodup_keys_latest requests) limit) hmem
  rw [fitting_latest_concat limit requests hvalue, fitting_of_le]
  rw [hbytes]
  exact bytes_fitting_le _ _

/-- A count of 64 bits never wraps around: at any time it has to hold the entry that comes in and
those that are kept beside it, which together exceed the limit by no more than the new one, and take
no more than all that was requested. -/
def Countable (load : String → Option α) (limit : Nat) (requests : List String) : Prop :=
  ∀ before key after, requests = before ++ key :: after →
    min (limit + weight load key) (∑ k ∈ (before ++ [key]).toFinset, weight load k) < UInt64.size

theorem Countable.of_concat (h : Countable load limit (requests ++ [key])) :
    Countable load limit requests := by
  rintro before k after rfl
  exact h before k (after ++ [key]) (by rw [List.append_assoc, List.cons_append])

/-- A limit that leaves room for any one entry, as when it and all entries are below `2 ^ 63` bytes,
is enough: the requests may then be as many as they like. -/
theorem countable_of_weights (h : ∀ k ∈ requests, limit + weight load k < UInt64.size) :
    Countable load limit requests := by
  rintro before k after rfl
  have hk := h k (List.mem_append_right before List.mem_cons_self)
  exact (Nat.min_le_left _ _).trans_lt hk

/-- What is kept can be counted together with an entry that comes in. -/
theorem Countable.fits (h : Countable load limit (requests ++ [key])) (hvalue : load key = some value)
    (hmissed : key ∉ (fitting limit (latest load requests)).keys) :
    bytes (fitting limit (latest load requests)) + entryBytes (key, value) < UInt64.size := by
  refine Nat.lt_of_le_of_lt ?_ (h requests key [] rfl)
  have hlimit := bytes_fitting_le limit (latest load requests)
  have htotal : bytes (fitting limit (latest load requests)) ≤
      bytes (without (latest load requests) key) := by
    conv_lhs => rw [← without_of_not_mem hmissed]
    exact bytes_le_of_sublist ((fitting_isPrefix _ _).sublist.filter _)
  rw [← bytes_latest, latest_concat, hvalue, weight_eq hvalue, bytes_cons]
  omega

end Bytes

end RingCache.Lru.Recency

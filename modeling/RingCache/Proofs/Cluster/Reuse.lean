import Mathlib.Data.List.Induction
import RingCache.Proofs.Cluster.OneHop
import RingCache.Proofs.Lru.Reuse

/-!
# Which look-ups the cache answers

A member without peers is asked for keys, one after another, and its origin always answers a key in
the same way. Its cache then keeps the longest prefix that fits the budget of the latest requests
(`Member.Asked`): a hit moves its entry, a load puts one in, and a failure changes nothing. So the
cache answers a look-up just if its key was requested recently, by the bytes of what was requested
since then (`hit_iff_recent`).
-/

namespace RingCache

open Lru Recency

namespace Member

variable {m m' : Member} {name key : String} {budget : UInt64} {requests : List String}
  {answers : String → Except CacheError Value} {outcome : Except CacheError Value}

/-- The cache answered: a hit is counted, and the origin was not called. -/
structure Hits (m m' : Member) : Prop where
  counted : m'.group.counters.cacheHits = m.group.counters.cacheHits + 1
  calls : m'.origin.calls = m.origin.calls

/-- The origin answered: no hit is counted, and it was called for the key. -/
structure Misses (key : String) (m m' : Member) : Prop where
  counted : m'.group.counters.cacheHits = m.group.counters.cacheHits
  calls : m'.origin.calls = m.origin.calls ++ [key]

theorem Hits.not_misses (h : Hits m m') : ¬ Misses key m m' := by
  intro hmisses
  have hcalls := congrArg List.length (h.calls.symm.trans hmisses.calls)
  rw [List.length_append, List.length_singleton] at hcalls
  omega

/-- What an origin loads that always answers a key in the same way. -/
def loaded? (answers : String → Except CacheError Value) (key : String) : Option Value :=
  (answers key).toOption

theorem loaded?_eq_some {value : Value} :
    loaded? answers key = some value ↔ answers key = .ok value := by
  rw [loaded?]
  cases answers key <;> simp [Except.toOption]

theorem loaded?_eq_none {e : CacheError} (h : answers key = .error e) :
    loaded? answers key = none := by
  rw [loaded?, h]
  rfl

/-- A member without peers that was asked for these keys, in order. -/
structure Asked (name : String) (budget : UInt64) (answers : String → Except CacheError Value)
    (requests : List String) (m : Member) : Prop where
  rests : m.Rests name
  peers : m.group.peers = none
  source : m.origin.source = fun _ => answers
  limit : m.group.cache.store.budget = budget
  carries : Carries m.group.cache.store
    (fitting budget.toNat (latest (loaded? answers) requests))

theorem asked_fresh (name : String) (budget : UInt64) (answers : String → Except CacheError Value)
    (standIn : Origin) :
    Asked name budget answers [] ⟨.fresh name budget, .fresh fun _ => answers, standIn⟩ where
  rests := ⟨rfl, rfl, [], carries_empty budget⟩
  peers := rfl
  source := rfl
  limit := rfl
  carries := carries_empty budget

/-- The cache of a member after its origin has answered. -/
theorem cache_loaded (m : Member) (key : String) (ticket : Nat) :
    (m.loaded key ticket).group.cache =
      match (m.origin.call key).1 with
      | .ok value => m.group.cache.add key value
      | .error _ => m.group.cache := by
  rw [loaded]
  cases (m.origin.call key).1 <;> rfl

theorem cacheHits_loaded (m : Member) (key : String) (ticket : Nat) :
    (m.loaded key ticket).group.counters.cacheHits = m.group.counters.cacheHits := by
  rw [loaded]
  cases (m.origin.call key).1 <;> rfl

namespace Asked

theorem call_eq (h : Asked name budget answers requests m) (key : String) :
    (m.origin.call key).1 = answers key := by
  rw [Origin.call, h.source]

/-- **One look-up** answers what the origin answers. It is a hit if the key was requested recently,
and else a miss. -/
theorem answered (h : Asked name budget answers requests m) (hstays : m.Stays key outcome m') :
    outcome = answers key ∧
      (m.Hits m' ∧ Recent (loaded? answers) budget.toNat requests key ∨
        m.Misses key m' ∧ ¬ Recent (loaded? answers) budget.toNat requests key) := by
  rw [← mem_fitting_latest]
  cases hstays with
  | @found value cache hcache =>
    obtain ⟨hmem, -, -⟩ := Cache.get_found h.carries hcache
    have hvalue := (requested_of_kept hmem).2
    exact ⟨(loaded?_eq_some.mp hvalue).symm,
      .inl ⟨⟨rfl, rfl⟩, List.mem_map_of_mem (f := Prod.fst) hmem⟩⟩
  | @loaded cache hcache =>
    exact ⟨h.call_eq key, .inr ⟨⟨cacheHits_loaded _ _ _, rfl⟩,
      (Cache.get_missed h.carries hcache).1⟩⟩

/-- What the cache carries after one look-up more. -/
theorem carries_concat (h : Asked name budget answers requests m) (hbudget : budget ≠ 0)
    (hcount : Countable (loaded? answers) budget.toNat (requests ++ [key]))
    (hstays : m.Stays key outcome m') :
    m'.group.cache.store.budget = budget ∧ Carries m'.group.cache.store
      (fitting budget.toNat (latest (loaded? answers) (requests ++ [key]))) := by
  cases hstays with
  | @found value cache hcache =>
    obtain ⟨hmem, hlimit, hcarries⟩ := Cache.get_found h.carries hcache
    rw [fitting_latest_found hmem]
    exact ⟨hlimit.trans h.limit, hcarries⟩
  | @loaded cache hcache =>
    obtain ⟨hmissed, hlimit, hcarries⟩ := Cache.get_missed h.carries hcache
    rw [h.limit] at hlimit
    have hcall : ((m.departed cache key).origin.call key).1 = answers key := h.call_eq key
    rw [cache_loaded, hcall]
    cases hanswer : answers key with
    | ok value =>
      have hvalue := loaded?_eq_some.mpr hanswer
      obtain ⟨hlimit', hadd⟩ := Cache.add_kept hcarries key value (hcount.fits hvalue hmissed)
      rw [hlimit, Recency.kept, if_neg hbudget] at hadd
      rw [fitting_latest_concat _ _ hvalue]
      exact ⟨hlimit'.trans hlimit, hadd⟩
    | error e =>
      rw [latest_concat, loaded?_eq_none hanswer]
      exact ⟨hlimit, hcarries⟩

/-- **One look-up more**: the cache keeps what fits of the latest requests. -/
theorem asked_concat (h : Asked name budget answers requests m) (hbudget : budget ≠ 0)
    (hcount : Countable (loaded? answers) budget.toNat (requests ++ [key]))
    (hstays : m.Stays key outcome m') : Asked name budget answers (requests ++ [key]) m' where
  rests := h.rests.tended (hstays.tended h.rests)
  peers := (hstays.tended h.rests).peers.trans h.peers
  source := (hstays.tended h.rests).source.trans h.source
  limit := (h.carries_concat hbudget hcount hstays).1
  carries := (h.carries_concat hbudget hcount hstays).2

end Asked

end Member

namespace Cluster

variable {c : Cluster} {i : Nat} {m : Member} {name key : String} {budget : UInt64}
  {requests : List String} {answers : String → Except CacheError Value}

/-- A look-up in a member without peers stays there. -/
theorem get_asked (hm : c.member? i name = some m) (h : m.Asked name budget answers requests)
    (hkey : key ≠ "") :
    ∃ outcome m', m.Stays key outcome m' ∧
      c.get i name key = (outcome, c.modify i name fun _ => m') := by
  obtain ⟨outcome, m', hstays⟩ := Member.stays_exists key m
  refine ⟨outcome, m', hstays, ?_⟩
  have hpick : m.group.peers.bind (fun peers => (c.node i).pick peers key) = none := by
    rw [h.peers]
    rfl
  rw [get, look_eq, lookWithin_stays hm h.rests hkey hstays fun _ => hpick]
  rfl

theorem visits_concat (name : String) (c : Cluster) (gets : List (Nat × String)) (i : Nat)
    (key : String) : visits name c (gets ++ [(i, key)]) = ((visits name c gets).get i name key).2 :=
  List.foldl_concat _ _ _ _

/-- **A row of look-ups** leaves the member as one that was asked for just these keys. -/
theorem asked_visits (hm : c.member? i name = some m) (h : m.Asked name budget answers [])
    (hbudget : budget ≠ 0) (hkeys : ∀ k ∈ requests, k ≠ "")
    (hcount : Countable (Member.loaded? answers) budget.toNat requests) :
    ∃ m', (visits name c (requests.map (i, ·))).member? i name = some m' ∧
      m'.Asked name budget answers requests := by
  induction requests using List.reverseRecOn with
  | nil => exact ⟨m, hm, h⟩
  | append_singleton requests key ih =>
    obtain ⟨m₁, hm₁, h₁⟩ := ih (fun k hk => hkeys k (List.mem_append_left _ hk)) hcount.of_concat
    have hkey : key ≠ "" := hkeys key (List.mem_append_right _ (List.mem_singleton_self key))
    obtain ⟨outcome, m', hstays, hget⟩ := get_asked hm₁ h₁ hkey
    rw [List.map_append, List.map_singleton, visits_concat, hget]
    exact ⟨m', member?_put hm₁ m', h₁.asked_concat hbudget hcount hstays⟩

/-- **The cache answers just the recent requests.** Let a group have a budget, no peers, and an origin
that always answers a key in the same way. Let look-ups be made in it one after another, while the
count of the bytes that it keeps does not wrap around at 64 bits. Then a look-up is a hit if and only
if the origin has a value for its key, the key was looked up before, and the bytes of all keys that
were looked up since then, together with its own, each counted once and only if it has a value, are
within the budget. Every other look-up is a miss. In either case the outcome is what the origin
answers. -/
theorem hit_iff_recent (name : String) (budget : UInt64)
    (answers : String → Except CacheError Value) (standIn : Origin) (c₀ : Cluster) (i : Nat)
    (hbudget : budget ≠ 0)
    (hfresh : c₀.member? i name =
      some ⟨.fresh name budget, .fresh fun _ => answers, standIn⟩)
    (requests : List String) (key : String) (hkeys : ∀ k ∈ requests, k ≠ "") (hkey : key ≠ "")
    (hcount : Countable (Member.loaded? answers) budget.toNat requests) :
    let c := visits name c₀ (requests.map (i, ·))
    ∃ m m', c.member? i name = some m ∧ (c.get i name key).2.member? i name = some m' ∧
      (c.get i name key).1 = answers key ∧
      (m.Hits m' ↔ Recent (Member.loaded? answers) budget.toNat requests key) ∧
      (m.Misses key m' ↔ ¬ Recent (Member.loaded? answers) budget.toNat requests key) := by
  intro c
  obtain ⟨m, hm, h⟩ := asked_visits hfresh (Member.asked_fresh name budget answers standIn) hbudget
    hkeys hcount
  obtain ⟨outcome, m', hstays, hget⟩ := get_asked hm h hkey
  obtain ⟨houtcome, hwhich⟩ := h.answered hstays
  rw [hget]
  refine ⟨m, m', hm, member?_put hm m', houtcome, ?_⟩
  rcases hwhich with ⟨hhits, hrecent⟩ | ⟨hmisses, hrecent⟩
  · exact ⟨iff_of_true hhits hrecent, iff_of_false hhits.not_misses (not_not_intro hrecent)⟩
  · exact ⟨iff_of_false (fun hhits => hhits.not_misses hmisses) hrecent,
      iff_of_true hmisses hrecent⟩

/-- With a budget of four bytes a key is found again after another one and a failure. -/
theorem hit_iff_recent_scores :
    let answers (key : String) : Except CacheError Value :=
      if key = "x" then .error (.loader "x not exist") else .ok (.ofString key)
    let member : Member := ⟨.fresh "scores" 4, .fresh fun _ => answers, .fresh .echo⟩
    let c₀ : Cluster := ⟨.down, #[⟨⟨[("scores", member)]⟩, #[]⟩], []⟩
    let requests := ["a", "b", "x", "c"]
    let c := visits "scores" c₀ (requests.map (0, ·))
    (4 : UInt64) ≠ 0 ∧ c₀.member? 0 "scores" = some member ∧ (∀ k ∈ requests, k ≠ "") ∧ "b" ≠ "" ∧
      Countable (Member.loaded? answers) 4 requests ∧
      Recent (Member.loaded? answers) 4 requests "b" ∧
      ∃ m m', c.member? 0 "scores" = some m ∧
        (c.get 0 "scores" "b").2.member? 0 "scores" = some m' ∧ m.Hits m' := by
  intro answers member c₀ requests c
  have hmember : c₀.member? 0 "scores" = some member := by
    simp [member?, node, c₀, Registry.find?]
  have hkeys : ∀ k ∈ requests, k ≠ "" := by decide
  have hcount : Countable (Member.loaded? answers) 4 requests :=
    countable_of_weights (by decide +kernel)
  have hrecent : Recent (Member.loaded? answers) 4 requests "b" :=
    ⟨by decide +kernel, ["a"], ["x", "c"], rfl, by decide, by decide +kernel⟩
  obtain ⟨m, m', hm, hm', -, hhits, -⟩ :=
    hit_iff_recent "scores" 4 answers (.fresh .echo) c₀ 0 (by decide) hmember requests "b" hkeys
      (by decide) hcount
  exact ⟨by decide, hmember, hkeys, by decide, hcount, hrecent, m, m', hm, hm', hhits.mpr hrecent⟩

end Cluster

end RingCache

import Mathlib.Data.List.Perm.Basic
import Mathlib.Tactic.Common
import RingCache.Proofs.Group.Turns
import RingCache.Proofs.Lru.Counted

/-!
# The counters of a group balance

The counters of a group wrap at 64 bits. A *tally* is what they would be without that bound. Every
turn of a look-up changes the tally and what has become of the look-ups in step (`Balanced.goes`),
so that at every point of a run each look-up is counted where it stands: refused, answered from the
cache, or past the cache; and of these last ones, each ended in one of four ways, is under way, or
was dropped.

The counters show the tally up to a multiple of `UInt64.size`; with fewer look-ups than that they
show the tally itself.
-/

namespace RingCache.Group.Lookup

open Flights Bench

/-! ### Counting cards -/

/-- A card of a look-up. -/
abbrev Slip := Card String Lookup Answer

/-- Whether nothing was asked for. -/
def isBlank (card : Slip) : Bool := card.1.isEmpty

/-- Whether a look-up is under way. -/
def isUnderWay : Fate Lookup Answer → Bool
  | .waiting _ => true
  | _ => false

/-- Whether a look-up waits for the origin. -/
def isLoading : Fate Lookup Answer → Bool
  | .waiting (.loading _ _ _) => true
  | _ => false

/-- Whether a look-up was dropped. -/
def isDropped : Fate Lookup Answer → Bool
  | .dropped => true
  | _ => false

/-- How many look-ups there are, and how they have fared. -/
structure Census where
  all : Nat
  blank : Nat
  underWay : Nat
  loading : Nat
  dropped : Nat

/-- The census of some cards. -/
def census (cards : List Slip) : Census where
  all := cards.length
  blank := cards.countP isBlank
  underWay := cards.countP fun card => isUnderWay card.2
  loading := cards.countP fun card => isLoading card.2
  dropped := cards.countP fun card => isDropped card.2

/-- The census of both. -/
def Census.plus (k l : Census) : Census :=
  ⟨k.all + l.all, k.blank + l.blank, k.underWay + l.underWay, k.loading + l.loading,
    k.dropped + l.dropped⟩

theorem census_concat (cards : List Slip) (card : Slip) :
    census (cards ++ [card]) = (census cards).plus (census [card]) := by
  simp only [census, Census.plus, List.length_append, List.countP_append]

theorem census_single (key : String) (fate : Fate Lookup Answer) :
    census [(key, fate)] = ⟨1, (isBlank (key, fate)).toNat, (isUnderWay fate).toNat,
      (isLoading fate).toNat, (isDropped fate).toNat⟩ := by
  simp only [census, List.countP_singleton, List.length_singleton, Census.mk.injEq, true_and]
  refine ⟨?_, ?_, ?_, ?_⟩
  all_goals exact (Bool.cond_eq_ite _ 1 0).symm

theorem census_perm {cards cards' : List Slip} (h : cards.Perm cards') :
    census cards = census cards' := by
  simp only [census, h.length_eq, h.countP_eq]

/-- The census after one card was replaced, beside the one before. -/
theorem census_set {cards : List Slip} {i : Nat} {old : Slip} (hi : cards[i]? = some old)
    (new : Slip) : ∃ others : Census, census cards = others.plus (census [old]) ∧
      census (cards.set i new) = others.plus (census [new]) := by
  obtain ⟨hlt, rfl⟩ := List.getElem?_eq_some_iff.mp hi
  refine ⟨census (cards.eraseIdx i), ?_, ?_⟩
  · rw [← census_concat]
    exact census_perm ((List.getElem_cons_eraseIdx_perm hlt).symm.trans
      (List.perm_append_singleton _ _).symm)
  · rw [← census_concat]
    exact census_perm ((List.set_perm_cons_eraseIdx hlt new).trans
      (List.perm_append_singleton _ _).symm)

/-! ### Tallies -/

/-- What a group would count without a bound. -/
structure Tally where
  gets : Nat
  hits : Nat
  peerLoads : Nat
  peerErrors : Nat
  loads : Nat
  deduped : Nat
  localLoads : Nat
  localErrs : Nat

/-- The counters that show a tally. -/
def Tally.counters (n : Tally) : Counters where
  gets := UInt64.ofNat n.gets
  cacheHits := UInt64.ofNat n.hits
  peerLoads := UInt64.ofNat n.peerLoads
  peerErrors := UInt64.ofNat n.peerErrors
  loads := UInt64.ofNat n.loads
  loadsDeduped := UInt64.ofNat n.deduped
  localLoads := UInt64.ofNat n.localLoads
  localLoadErrs := UInt64.ofNat n.localErrs
  serverRequests := 0

/-- Every look-up of a census is counted once. -/
structure Tally.Fits (n : Tally) (k : Census) : Prop where
  gets : n.gets = k.all
  blank : n.gets = k.blank + n.hits + n.loads
  loads : n.loads =
    n.peerLoads + n.localLoads + n.localErrs + n.deduped + k.underWay + k.dropped
  /-- a peer that failed leaves its caller to the origin -/
  peerErrors : n.peerErrors ≤ n.localLoads + n.localErrs + k.loading + k.dropped

theorem Tally.fits_plus {n : Tally} {k : Census} {b u l d : Nat} :
    n.Fits (k.plus ⟨1, b, u, l, d⟩) ↔
      n.gets = k.all + 1 ∧ n.gets = k.blank + b + n.hits + n.loads ∧
        n.loads = n.peerLoads + n.localLoads + n.localErrs + n.deduped + (k.underWay + u) +
          (k.dropped + d) ∧
        n.peerErrors ≤ n.localLoads + n.localErrs + (k.loading + l) + (k.dropped + d) :=
  ⟨fun h => ⟨h.gets, h.blank, h.loads, h.peerErrors⟩, fun ⟨h₁, h₂, h₃, h₄⟩ => ⟨h₁, h₂, h₃, h₄⟩⟩

/-- A scene whose group shows a tally of its look-ups. -/
structure Balanced (n : Tally) (x : View) : Prop where
  counters : x.state.counters = n.counters
  hits : x.state.cache.hits = UInt64.ofNat n.hits
  misses : x.state.cache.misses = UInt64.ofNat n.loads
  fits : n.Fits (census x.cards)

theorem balanced_empty (name : String) (budget : UInt64) (peers : Option Picker) :
    Balanced ⟨0, 0, 0, 0, 0, 0, 0, 0⟩ (view (opened name budget peers) []) := by
  refine ⟨rfl, rfl, rfl, ⟨rfl, rfl, rfl, ?_⟩⟩
  exact Nat.le_refl _

theorem ofNat_succ (n : Nat) : UInt64.ofNat (n + 1) = UInt64.ofNat n + 1 :=
  UInt64.ofNat_add n 1

variable {n : Tally} {x y : View} {step : Step String}

/-- A look-up that the cache does not answer is counted past the cache, and is under way. -/
theorem Balanced.missed (h : Balanced n x) {key : String} {cache : Cache}
    (hcache : x.state.cache.get key = (none, cache)) {fate : Fate Lookup Answer} {l : Nat}
    (hcounters : y.state.counters = { x.state.counters with
      gets := x.state.counters.gets + 1, loads := x.state.counters.loads + 1 })
    (hkept : y.state.cache = cache) (hcards : y.cards = x.cards ++ [(key, fate)])
    (hnew : census [(key, fate)] = ⟨1, 0, 1, l, 0⟩) : ∃ n', Balanced n' y := by
  obtain ⟨hshown, hhits, hmisses, hgets, hblank, hloads, herrors⟩ := h
  obtain ⟨hcacheHits, hcacheMisses⟩ := Cache.counts_missed hcache
  refine ⟨{ n with gets := n.gets + 1, loads := n.loads + 1 }, ?_, ?_, ?_, ?_⟩
  · rw [hcounters, hshown]
    simp only [Tally.counters, ofNat_succ]
  · rw [hkept, hcacheHits, hhits]
  · rw [hkept, hcacheMisses, hmisses, ← ofNat_succ]
  · rw [hcards, census_concat, hnew]
    exact Tally.fits_plus.mpr (by dsimp only; omega)

/-- The first turn of a look-up is counted. -/
theorem Balanced.start (h : Balanced n x) (hx : crew.Manned x) {key : String} {s : Shared}
    {gates : Gates} {next : Lookup ⊕ Answer}
    (hresume : resume x.state x.gates (.fresh key) = (s, gates, next)) :
    ∃ n', Balanced n' ⟨s, gates, x.cards ++ [(key, .of next)]⟩ := by
  cases resume_turn hx.sound hresume with
  | refused hempty =>
    obtain ⟨hcounters, hhits, hmisses, hgets, hblank, hloads, herrors⟩ := h
    have hnew : census [(key, .finished (.error keyRequired))] = ⟨1, 1, 0, 0, 0⟩ := by
      simp [census, isBlank, isUnderWay, isLoading, isDropped, hempty]
    refine ⟨{ n with gets := n.gets + 1 }, ?_, hhits, hmisses, ?_⟩
    · simp only [counting, hcounters, Tally.counters, ofNat_succ]
    · rw [Fate.of, census_concat, hnew]
      exact Tally.fits_plus.mpr (by dsimp only; omega)
  | @found key value cache hempty hcache =>
    obtain ⟨hcounters, hhits, hmisses, hgets, hblank, hloads, herrors⟩ := h
    obtain ⟨hcacheHits, hcacheMisses⟩ := Cache.counts_found hcache
    have hnew : census [(key, .finished (.ok value))] = ⟨1, 0, 0, 0, 0⟩ := by
      simp [census, isBlank, isUnderWay, isLoading, isDropped, hempty]
    refine ⟨{ n with gets := n.gets + 1, hits := n.hits + 1 }, ?_, ?_, ?_, ?_⟩
    · simp only [counting, hcounters, Tally.counters, ofNat_succ]
    · rw [hcacheHits, hhits, ← ofNat_succ]
    · rw [hcacheMisses, hmisses]
    · rw [Fate.of, census_concat, hnew]
      exact Tally.fits_plus.mpr (by dsimp only; omega)
  | joins hempty hcache hlive | asksPeer hempty hcache hlive =>
    refine h.missed hcache rfl rfl rfl (l := 0) ?_
    simp [census, Fate.of, isBlank, isUnderWay, isLoading, isDropped, hempty]
  | asksOrigin hempty hcache hlive =>
    refine h.missed hcache rfl rfl rfl (l := 1) ?_
    simp [census, Fate.of, isBlank, isUnderWay, isLoading, isDropped, hempty]

/-- A later turn of a look-up is counted where it ends. -/
theorem Balanced.resume (h : Balanced n x) (hx : crew.Manned x) {i : Nat} {key : String}
    {task : Lookup} (hcard : x.cards[i]? = some (key, .waiting task)) {s : Shared} {gates : Gates}
    {next : Lookup ⊕ Answer} (hresume : resume x.state x.gates task = (s, gates, next)) :
    ∃ n', Balanced n' ⟨s, gates, x.cards.set i (key, .of next)⟩ := by
  obtain ⟨hcounters, hhits, hmisses, hfits⟩ := h
  obtain ⟨others, hold, hnew⟩ := census_set hcard (key, .of next)
  -- whether it has a key does not change, so that only its fate moves in the census
  have hblank : isBlank (key, Fate.of next) = isBlank (key, .waiting task) := rfl
  rw [census_single] at hold hnew
  rw [hblank] at hnew
  generalize (isBlank (key, Fate.waiting task)).toNat = b at hold hnew
  rw [hold] at hfits
  have hturn := resume_turn hx.sound hresume
  cases hx.suits _ _ _ hcard with
  | fetching ticket call =>
    change n.Fits (others.plus ⟨1, b, 1, 0, 0⟩) at hfits
    have hsum := Tally.fits_plus.mp hfits
    cases hturn with
    | stillFetching hanswer => exact ⟨n, hcounters, hhits, hmisses, hnew ▸ hfits⟩
    | fetched hanswer =>
      change _ = others.plus ⟨1, b, 0, 0, 0⟩ at hnew
      refine ⟨{ n with peerLoads := n.peerLoads + 1 }, ?_, hhits, hmisses, ?_⟩
      · simp only [counting, hcounters, Tally.counters, ofNat_succ]
      · rw [hnew]
        exact Tally.fits_plus.mpr (by dsimp only; omega)
    | fallsBack hanswer =>
      change _ = others.plus ⟨1, b, 1, 1, 0⟩ at hnew
      refine ⟨{ n with peerErrors := n.peerErrors + 1 }, ?_, hhits, hmisses, ?_⟩
      · simp only [counting, hcounters, Tally.counters, ofNat_succ]
      · rw [hnew]
        exact Tally.fits_plus.mpr (by dsimp only; omega)
  | loading ticket call =>
    change n.Fits (others.plus ⟨1, b, 1, 1, 0⟩) at hfits
    have hsum := Tally.fits_plus.mp hfits
    cases hturn with
    | stillLoading hanswer => exact ⟨n, hcounters, hhits, hmisses, hnew ▸ hfits⟩
    | @loaded key ticket call value hanswer =>
      change _ = others.plus ⟨1, b, 0, 0, 0⟩ at hnew
      refine ⟨{ n with localLoads := n.localLoads + 1 }, ?_, ?_, ?_, ?_⟩
      · simp only [counting, hcounters, Tally.counters, ofNat_succ]
      · exact (Cache.hits_add _ _ _).trans hhits
      · exact (Cache.misses_add _ _ _).trans hmisses
      · rw [hnew]
        exact Tally.fits_plus.mpr (by dsimp only; omega)
    | failed hanswer =>
      change _ = others.plus ⟨1, b, 0, 0, 0⟩ at hnew
      refine ⟨{ n with localErrs := n.localErrs + 1 }, ?_, hhits, hmisses, ?_⟩
      · simp only [counting, hcounters, Tally.counters, ofNat_succ]
      · rw [hnew]
        exact Tally.fits_plus.mpr (by dsimp only; omega)
  | waiting ticket =>
    change n.Fits (others.plus ⟨1, b, 1, 0, 0⟩) at hfits
    have hsum := Tally.fits_plus.mp hfits
    cases hturn with
    | stillWaiting houtcome => exact ⟨n, hcounters, hhits, hmisses, hnew ▸ hfits⟩
    | shared houtcome =>
      change _ = others.plus ⟨1, b, 0, 0, 0⟩ at hnew
      refine ⟨{ n with deduped := n.deduped + 1 }, ?_, hhits, hmisses, ?_⟩
      · simp only [counting, hcounters, Tally.counters, ofNat_succ]
      · rw [hnew]
        exact Tally.fits_plus.mpr (by dsimp only; omega)

/-- A look-up that is dropped is counted as such. -/
theorem Balanced.drop (h : Balanced n x) {i : Nat} {key : String} {task : Lookup}
    (hcard : x.cards[i]? = some (key, .waiting task)) :
    Balanced n ⟨abandon x.state task, x.gates, x.cards.set i (key, .dropped)⟩ := by
  obtain ⟨hcounters, hhits, hmisses, hfits⟩ := h
  obtain ⟨others, hold, hnew⟩ := census_set hcard (key, .dropped)
  have hblank : isBlank (key, Fate.dropped) = isBlank (key, .waiting task) := rfl
  rw [census_single] at hold hnew
  rw [hblank] at hnew
  generalize (isBlank (key, Fate.waiting task)).toNat = b at hold hnew
  rw [hold] at hfits
  change _ = others.plus ⟨1, b, 0, 0, 1⟩ at hnew
  have hsame : (abandon x.state task).counters = x.state.counters ∧
      (abandon x.state task).cache = x.state.cache := by
    cases task <;> exact ⟨rfl, rfl⟩
  refine ⟨hsame.1.trans hcounters, ?_, ?_, ?_⟩
  · rw [hsame.2, hhits]
  · rw [hsame.2, hmisses]
  · rw [hnew]
    have hsum := Tally.fits_plus.mp hfits
    -- a drop takes at most one look-up from those that wait for the origin
    have hone : (isLoading (Fate.waiting task)).toNat ≤ 1 := Bool.toNat_le _
    change _ ∧ _ ∧ _ = _ + (_ + 1) + (_ + 0) ∧ _ ≤ _ + (_ + 0) at hsum
    exact Tally.fits_plus.mpr (by omega)

/-- **Each step keeps the counters balanced.** -/
theorem Balanced.goes (h : Balanced n x) (hx : crew.Manned x) (hgoes : x.Goes step y) :
    ∃ n', Balanced n' y := by
  cases hgoes with
  | start hresume => exact h.start hx hresume
  | resume hcard hresume => exact h.resume hx hcard hresume
  | give hgive => exact ⟨n, h.counters, h.hits, h.misses, h.fits⟩
  | drop hcard => exact ⟨n, h.drop hcard⟩
  | idle hidle => exact ⟨n, h⟩

/-- **In every run the counters show a tally** of the look-ups. -/
theorem balanced (name : String) (budget : UInt64) (peers : Option Picker)
    (steps : List (Step String)) : ∃ n, Balanced n (view (opened name budget peers) steps) := by
  refine run_induction (fun _ x => ∃ n, Balanced n x) [] ⟨_, balanced_empty name budget peers⟩
    ?_ steps
  rintro steps step ⟨n, h⟩
  exact h.goes (manned rfl steps) (scene_goes _ steps step)

/-- The census of a run, read off what was asked and what has become of it. -/
theorem census_view (g : Shared) (steps : List (Step String)) :
    census (view g steps).cards =
      ⟨(asked steps).length, (asked steps).countP String.isEmpty,
        (after g steps : Bench Shared Lookup Answer).fates.countP isUnderWay,
        (after g steps : Bench Shared Lookup Answer).fates.countP isLoading,
        (after g steps : Bench Shared Lookup Answer).fates.countP isDropped⟩ := by
  have hasked : (view g steps).cards.map Prod.fst = asked steps := map_fst_cards g steps
  have hfates : (view g steps).cards.map Prod.snd =
    (after g steps : Bench Shared Lookup Answer).fates := map_snd_cards g steps
  rw [← hasked, ← hfates, List.length_map, List.countP_map, List.countP_map, List.countP_map,
    List.countP_map]
  rfl

/-- **The counters of a group balance.** At every point of every run of look-ups in a fresh group,
modulo `UInt64.size`, each look-up that was begun had no key, was answered from the cache, or went
on past it; and each that went on was answered by its peer or by the origin, failed there, shared
the outcome of another, is under way, or was dropped. A look-up takes its first turn when it is
begun, so that all that are under way or were dropped are past the cache.

As long as fewer look-ups were begun than 64 bits can count, each peer that failed left its caller
to the origin. -/
theorem counters_balance (name : String) (budget : UInt64) (peers : Option Picker)
    (steps : List (Step String)) :
    let b : Bench Shared Lookup Answer := after (opened name budget peers) steps
    let n := b.state.stats.counters
    let c := b.state.stats.cache
    n.gets = UInt64.ofNat ((asked steps).countP String.isEmpty) + n.cacheHits + n.loads ∧
      c.hits = n.cacheHits ∧ c.misses = n.loads ∧
      n.loads = n.peerLoads + n.localLoads + n.localLoadErrs + n.loadsDeduped +
        UInt64.ofNat (b.fates.countP isUnderWay) + UInt64.ofNat (b.fates.countP isDropped) ∧
      ((asked steps).length < UInt64.size →
        n.peerErrors.toNat + n.loadsDeduped.toNat + n.peerLoads.toNat ≤ n.loads.toNat) ∧
      (b.fates.countP isUnderWay = 0 → b.fates.countP isDropped = 0 →
        n.loads = n.peerLoads + n.localLoads + n.localLoadErrs + n.loadsDeduped) := by
  intro b n c
  obtain ⟨k, hcounters, hhits, hmisses, hfits⟩ := balanced name budget peers steps
  rw [census_view] at hfits
  change k.Fits ⟨_, _, b.fates.countP _, b.fates.countP _, b.fates.countP _⟩ at hfits
  obtain ⟨hgets, hblank, hloads, herrors⟩ := hfits
  dsimp only at hgets hblank hloads herrors
  have hn : n = k.counters := hcounters
  have hbalance : n.loads = n.peerLoads + n.localLoads + n.localLoadErrs + n.loadsDeduped +
      UInt64.ofNat (b.fates.countP isUnderWay) + UInt64.ofNat (b.fates.countP isDropped) := by
    rw [hn]
    show UInt64.ofNat k.loads = _
    rw [hloads]
    simp only [Tally.counters, UInt64.ofNat_add]
  refine ⟨?_, ?_, ?_, hbalance, ?_, ?_⟩
  · rw [hn]
    show UInt64.ofNat k.gets = _
    rw [hblank]
    simp only [Tally.counters, UInt64.ofNat_add]
  · rw [hn]
    exact hhits
  · rw [hn]
    exact hmisses
  · intro hfew
    -- no count exceeds the number of look-ups, so that none has wrapped
    have hexact : ∀ m, m ≤ k.gets → (UInt64.ofNat m).toNat = m := fun m hm =>
      UInt64.toNat_ofNat_of_lt' (by omega)
    have hloading : b.fates.countP isLoading ≤ b.fates.countP isUnderWay := by
      apply List.countP_mono_left
      intro fate _ hfate
      cases fate with
      | waiting task => rfl
      | finished result | dropped => cases hfate
    have hsum : k.peerErrors + k.deduped + k.peerLoads ≤ k.loads := by omega
    rw [hn]
    show (UInt64.ofNat k.peerErrors).toNat + (UInt64.ofNat k.deduped).toNat +
      (UInt64.ofNat k.peerLoads).toNat ≤ (UInt64.ofNat k.loads).toNat
    rw [hexact _ (by omega), hexact _ (by omega), hexact _ (by omega), hexact _ (by omega)]
    exact hsum
  · intro hnone hkept
    rw [hnone, hkept] at hbalance
    rw [hbalance]
    simp

end RingCache.Group.Lookup

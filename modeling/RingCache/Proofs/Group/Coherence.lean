import Mathlib.Tactic.Common
import RingCache.Proofs.Group.Turns
import RingCache.Proofs.Lru.Counted

/-!
# What a group keeps and what its look-ups find

A value is received when the look-up that leads the flight of its key takes it from the origin
(`Receives`). The cache keeps only values that were received, each the latest one of its key
(`Keeps`), and nothing for a key that is being loaded; that is what makes a new value the latest.

A look-up that the cache does not answer ends with what a call of one leader was answered: of
itself, or of the one look-up that led the flight of its key when it began (`lookups_coherent`).
-/

namespace RingCache.Group.Lookup

open Flights Bench Lru Recency

/-- A relation between keys, calls and values: which values were received. -/
abbrev Receipts := String → Nat → Value → Prop

/-- In this step the leader of `key` takes `value` from the origin, as the answer of `call`. -/
def Receives (x : View) (step : Step String) : Receipts := fun key call value =>
  ∃ i ticket, step = .resume i ∧ x.cards[i]? = some (key, .waiting (.loading key ticket call)) ∧
    x.gates.answer? call = some (.ok value)

/-- The latest receipt of a key, by the order of the calls. -/
def Latest (R : Receipts) : Receipts := fun key call value =>
  R key call value ∧ ∀ call' value', R key call' value' →
    call' < call ∨ call' = call ∧ value' = value

/-! ### What the cache keeps -/

/-- A store keeps only latest receipts, and none of a key that is being loaded. -/
def Keeps (store : Store Value) (live : List (String × Nat)) (R : Receipts) : Prop :=
  ∃ l, Carries store l ∧ (∀ key value, (key, value) ∈ l → ∃ call, Latest R key call value) ∧
    ∀ key ticket, (key, ticket) ∈ live → key ∉ keys l

namespace Keeps

variable {c : Cache} {live live' : List (String × Nat)} {R : Receipts} {key : String}

theorem of_subset {store : Store Value} (h : Keeps store live R) (hsub : live' ⊆ live) :
    Keeps store live' R := by
  obtain ⟨l, hcarries, hlatest, hlive⟩ := h
  exact ⟨l, hcarries, hlatest, fun key ticket he => hlive key ticket (hsub he)⟩

theorem get (h : Keeps c.store live R) (key : String) : Keeps (c.get key).2.store live R := by
  obtain ⟨l, hcarries, hlatest, hlive⟩ := h
  have hsub := Cache.get_entries_subset c.store.budget l key
  refine ⟨_, (Cache.get_spec hcarries key).2, fun k v he => hlatest k v (hsub he), ?_⟩
  intro k ticket he hmem
  obtain ⟨e, he', rfl⟩ := List.mem_map.mp hmem
  exact hlive _ ticket he (List.mem_map_of_mem (hsub he'))

/-- What the cache answers is what it keeps. -/
theorem get_eq (h : Keeps c.store live R) (key : String) (value : Value) :
    (c.get key).1 = some value ↔ (key, value) ∈ c.store.toList := by
  obtain ⟨l, hcarries, -, -⟩ := h
  rw [(Cache.get_spec hcarries key).1, hcarries.toList_eq]
  constructor
  · intro hlookup
    obtain ⟨front, back, rfl, -⟩ := List.lookup_eq_some_iff.mp hlookup
    exact List.mem_append_right _ List.mem_cons_self
  · intro hmem
    obtain ⟨m, hm⟩ := List.getElem?_of_mem hmem
    exact lookup_eq_some hcarries.nodup_keys hm

/-- A flight begins only for a key that the cache does not keep. -/
theorem board (h : Keeps c.store live R) (hmissed : (c.get key).1 = none) (ticket : Nat) :
    Keeps c.store ((key, ticket) :: live) R := by
  obtain ⟨l, hcarries, hlatest, hlive⟩ := h
  refine ⟨l, hcarries, hlatest, ?_⟩
  intro k t he
  rcases List.mem_cons.mp he with heq | he
  · cases heq
    intro hmem
    obtain ⟨⟨k, v⟩, hkv, rfl⟩ := List.mem_map.mp hmem
    obtain ⟨m, hm⟩ := List.getElem?_of_mem hkv
    rw [(Cache.get_spec hcarries k).1, lookup_eq_some hcarries.nodup_keys hm] at hmissed
    cases hmissed
  · exact hlive k t he

/-- **A value that is received becomes the latest of its key**, as the key was being loaded and
nothing was kept for it. -/
theorem add (h : Keeps c.store live R) {ticket call : Nat} {value : Value}
    (hnodup : (live.map Prod.fst).Nodup) (hlead : (key, ticket) ∈ live)
    (hlater : ∀ call' value', R key call' value' → call' < call) :
    Keeps (c.add key value).store (live.filter fun e => e.2 != ticket)
      (fun k c' v => R k c' v ∨ k = key ∧ c' = call ∧ v = value) := by
  obtain ⟨l, hcarries, hlatest, hlive⟩ := h
  have hnew : Latest (fun k c' v => R k c' v ∨ k = key ∧ c' = call ∧ v = value) key call value := by
    refine ⟨.inr ⟨rfl, rfl, rfl⟩, ?_⟩
    rintro call' value' (hR | ⟨-, rfl, rfl⟩)
    · exact .inl (hlater _ _ hR)
    · exact .inr ⟨rfl, rfl⟩
  have hold : ∀ k v, k ≠ key → (k, v) ∈ l →
      ∃ call', Latest (fun k c' v => R k c' v ∨ k = key ∧ c' = call ∧ v = value) k call' v := by
    intro k v hne he
    obtain ⟨call', hR, hmost⟩ := hlatest k v he
    refine ⟨call', .inl hR, ?_⟩
    rintro call'' value'' (hR' | ⟨heq, -, -⟩)
    · exact hmost _ _ hR'
    · exact absurd heq hne
  have hothers : ∀ e ∈ live.filter (fun e => e.2 != ticket), e.1 ≠ key ∧ e ∈ live := by
    intro e he
    obtain ⟨he, hne⟩ := List.mem_filter.mp he
    refine ⟨?_, he⟩
    intro heq
    have := List.inj_on_of_nodup_map hnodup he hlead heq
    rw [this] at hne
    simp at hne
  obtain ⟨l', hcarries', hpre, -⟩ := Cache.add_spec hcarries key value
  have hmem : ∀ k v, (k, v) ∈ l' → k = key ∧ v = value ∨ k ≠ key ∧ (k, v) ∈ l := by
    intro k v he
    rcases List.mem_cons.mp (hpre.subset he) with heq | he
    · cases heq
      exact .inl ⟨rfl, rfl⟩
    · obtain ⟨he, hne⟩ := List.mem_filter.mp he
      exact .inr ⟨by simpa using hne, he⟩
  refine ⟨l', hcarries', ?_, ?_⟩
  · intro k v he
    rcases hmem k v he with ⟨rfl, rfl⟩ | ⟨hne, he⟩
    · exact ⟨call, hnew⟩
    · exact hold k v hne he
  · intro k t he hkeys
    obtain ⟨hne, he⟩ := hothers _ he
    obtain ⟨⟨k, v⟩, he', rfl⟩ := List.mem_map.mp hkeys
    rcases hmem k v he' with ⟨rfl, rfl⟩ | ⟨-, he'⟩
    · exact hne rfl
    · exact hlive k t he (List.mem_map_of_mem he')

end Keeps

/-! ### Receipts along a run -/

/-- What a group keeps and receives, as far as its look-ups have come: no value was received by a
later call than those to the origin that are under way for its key. -/
structure Coherent (R : Receipts) (x : View) : Prop where
  cached : Keeps x.state.cache.store x.state.flights.live R
  calls : ∀ (i : Nat) (key : String) (ticket call : Nat),
    x.cards[i]? = some (key, .waiting (.loading key ticket call)) →
    x.gates.labels[call]? = some ("load:" ++ key) ∧
      ∀ call' value, R key call' value → call' < call
  received : ∀ key call value, R key call value →
    x.gates.labels[call]? = some ("load:" ++ key) ∧ x.gates.answer? call = some (.ok value)

variable {R : Receipts} {x y : View} {step : Step String} {key : String} {i call : Nat}
  {value : Value}

theorem coherent_empty (name : String) (budget : UInt64) (peers : Option Picker) :
    Coherent (fun _ _ _ => False) (scene (opened name budget peers) []) :=
  ⟨⟨[], carries_empty budget, nofun, nofun⟩, nofun, nofun⟩

/-- Only who is resumed receives something. -/
theorem not_receives (hstep : ∀ i, step ≠ .resume i) : ¬ Receives x step key call value := by
  rintro ⟨i, ticket, rfl, -⟩
  exact hstep i rfl

theorem not_receives_idle (hidle : x.Idle step) : ¬ Receives x step key call value := by
  rintro ⟨i, ticket, rfl, hcard, -⟩
  exact hidle _ _ hcard

/-- Whoever receives something is resumed, and waits for the origin. -/
theorem receives_resume {key' : String} {task : Lookup}
    (hcard : x.cards[i]? = some (key', .waiting task)) :
    Receives x (.resume i) key call value ↔
      key = key' ∧ (∃ ticket, task = .loading key ticket call) ∧
        x.gates.answer? call = some (.ok value) := by
  constructor
  · rintro ⟨j, ticket, hstep, hj, hanswer⟩
    cases hstep
    rw [hcard] at hj
    cases hj
    exact ⟨rfl, ⟨ticket, rfl⟩, hanswer⟩
  · rintro ⟨rfl, ⟨ticket, rfl⟩, hanswer⟩
    exact ⟨i, ticket, rfl, hcard, hanswer⟩

/-- Whoever does not wait for the origin, or has no value from it, receives nothing. -/
theorem not_receives_resume {key' : String} {task : Lookup}
    (hcard : x.cards[i]? = some (key', .waiting task))
    (hnot : ∀ ticket call value, task = .loading key' ticket call →
      x.gates.answer? call ≠ some (.ok value)) : ¬ Receives x (.resume i) key call value := by
  intro hreceives
  obtain ⟨rfl, ⟨ticket, htask⟩, hanswer⟩ := (receives_resume hcard).mp hreceives
  exact hnot ticket call value htask hanswer

/-- Where nothing is received, the receipts stay. -/
theorem receipts_same (hnone : ∀ key call value, ¬ Receives x step key call value) :
    (fun key call value => R key call value ∨ Receives x step key call value) = R := by
  funext key call value
  exact propext (or_iff_left (hnone key call value))

/-- Where the origin has answered with a value, just that is received. -/
theorem receipts_loaded {ticket : Nat}
    (hcard : x.cards[i]? = some (key, .waiting (.loading key ticket call)))
    (hanswer : x.gates.answer? call = some (.ok value)) :
    (fun k c v => R k c v ∨ Receives x (.resume i) k c v) =
      fun k c v => R k c v ∨ k = key ∧ c = call ∧ v = value := by
  funext k c v
  rw [receives_resume hcard]
  refine propext (or_congr_right ⟨?_, ?_⟩)
  · rintro ⟨rfl, ⟨t, ⟨⟩⟩, hok⟩
    rw [hanswer] at hok
    cases hok
    exact ⟨rfl, rfl, rfl⟩
  · rintro ⟨rfl, rfl, rfl⟩
    exact ⟨rfl, ⟨ticket, rfl⟩, hanswer⟩

namespace Coherent

theorem cached_start (h : Coherent R x) (hx : crew.Manned x) {s : Shared} {gates : Gates}
    {next : Lookup ⊕ Answer} (hresume : resume x.state x.gates (.fresh key) = (s, gates, next)) :
    Keeps s.cache.store s.flights.live R := by
  cases resume_turn hx.sound hresume with
  | refused hempty => exact h.cached
  | found hempty hcache | joins hempty hcache hlive =>
    have hkeeps := h.cached.get key
    rwa [hcache] at hkeeps
  | asksPeer hempty hcache hlive | asksOrigin hempty hcache hlive =>
    have hboard := (h.cached.board (by rw [hcache]) x.state.flights.phases.size).get key
    rwa [hcache] at hboard

theorem cached_resume (h : Coherent R x) (hx : crew.Manned x) {task : Lookup} {s : Shared}
    {gates : Gates} {next : Lookup ⊕ Answer} (hcard : x.cards[i]? = some (key, .waiting task))
    (hresume : resume x.state x.gates task = (s, gates, next)) :
    Keeps s.cache.store s.flights.live
      (fun key call value => R key call value ∨ Receives x (.resume i) key call value) := by
  have hturn := resume_turn hx.sound hresume
  cases hx.suits _ _ _ hcard with
  | fetching ticket call =>
    rw [receipts_same fun _ _ _ => not_receives_resume hcard nofun]
    cases hturn with
    | stillFetching hanswer | fallsBack hanswer => exact h.cached
    | fetched hanswer => exact h.cached.of_subset (hx.sound.live_finish_subset _ _)
  | waiting ticket =>
    rw [receipts_same fun _ _ _ => not_receives_resume hcard nofun]
    cases hturn with
    | stillWaiting houtcome | shared houtcome => exact h.cached
  | loading ticket call =>
    cases hturn with
    | stillLoading hanswer =>
      rw [receipts_same fun _ _ _ => not_receives_resume hcard ?_]
      · exact h.cached
      · rintro ticket' call' value ⟨⟩ hok
        rw [hanswer] at hok
        cases hok
    | failed hanswer =>
      rw [receipts_same fun _ _ _ => not_receives_resume hcard ?_]
      · exact h.cached.of_subset (hx.sound.live_finish_subset _ _)
      · rintro ticket' call' value ⟨⟩ hok
        rw [hanswer] at hok
        cases hok
    | @loaded key ticket call value hanswer =>
      have hlead : crew.Leads x i key ticket := leads_of_call (.inr hcard)
      rw [receipts_loaded hcard hanswer]
      have hlive : (x.state.flights.land ticket (.ok value)).live =
          x.state.flights.live.filter fun e => e.2 != ticket := hx.sound.live_finish _ _
      show Keeps (x.state.cache.add key value).store (x.state.flights.land ticket _).live _
      rw [hlive]
      exact h.cached.add hx.sound.keys (hx.leads_airborne hlead).1 (h.calls i key ticket call hcard).2

/-- A call to the origin is later than all that its key has received. -/
theorem calls_goes (h : Coherent R x) (hx : crew.Manned x) (hgoes : x.Goes step y) {ticket : Nat}
    (hi : y.cards[i]? = some (key, .waiting (.loading key ticket call))) :
    y.gates.labels[call]? = some ("load:" ++ key) ∧
      ∀ call' value, R key call' value ∨ Receives x step key call' value → call' < call := by
  have hgrown := hgoes.grown grown_resume
  -- whatever was received before comes before a call that is new
  have hbefore : ∀ {call' value}, R key call' value → call' < x.gates.calls.size := by
    intro call' value hR
    have hlt := (List.getElem?_eq_some_iff.mp (h.received _ _ _ hR).1).1
    rwa [Gates.length_labels] at hlt
  have hold : x.cards[i]? = some (key, .waiting (.loading key ticket call)) →
      (∀ call' value, ¬ Receives x step key call' value) →
      y.gates.labels[call]? = some ("load:" ++ key) ∧
        ∀ call' value, R key call' value ∨ Receives x step key call' value → call' < call := by
    intro hcard hnone
    obtain ⟨hlabel, hlater⟩ := h.calls _ _ _ _ hcard
    refine ⟨hgrown.getElem?_labels hlabel, fun call' value hR => ?_⟩
    exact hlater _ _ (hR.resolve_right (hnone _ _))
  have hmade : call = x.gates.calls.size → y.gates = (x.gates.place ("load:" ++ key)).2 →
      (∀ call' value, ¬ Receives x step key call' value) →
      y.gates.labels[call]? = some ("load:" ++ key) ∧
        ∀ call' value, R key call' value ∨ Receives x step key call' value → call' < call := by
    rintro rfl hplaced hnone
    rw [hplaced]
    refine ⟨Gates.getElem?_labels_place _ _, fun call' value hR => ?_⟩
    exact hbefore (hR.resolve_right (hnone _ _))
  rcases hgoes.came hi with ⟨fate, hcard, hfares⟩ | ⟨id, next, rfl, -, hnext, hresume⟩
  · generalize hfate : Fate.waiting (Lookup.loading key ticket call) = fate' at hfares
    cases hfares with
    | stays hother =>
      subst hfate
      apply hold hcard
      rintro c v ⟨j, t, rfl, hj, -⟩
      -- a key has one leader, and it is this one that waits
      obtain rfl := hx.leader_unique (leads_of_call (.inr hj)) (leads_of_call (.inr hcard))
      exact hother rfl _ rfl
    | turns hstep hresume =>
      subst hstep
      obtain rfl := Fate.of_eq_waiting.mp hfate.symm
      rcases (resume_turn hx.sound hresume).loads with ⟨rfl, hanswer⟩ | ⟨hnot, hcall, hplaced⟩
      · apply hold hcard
        intro c v
        apply not_receives_resume hcard
        rintro ticket' call' value ⟨⟩ hok
        rw [hanswer] at hok
        cases hok
      · apply hmade hcall hplaced
        intro c v
        exact not_receives_resume hcard fun t c' _ htask => absurd htask (hnot t c')
    | dropped hstep => cases hfate
  · obtain rfl := Fate.of_eq_waiting.mp hnext.symm
    rcases (resume_turn hx.sound hresume).loads with ⟨htask, -⟩ | ⟨-, hcall, hplaced⟩
    · cases htask
    · exact hmade hcall hplaced fun _ _ => not_receives nofun

/-- **Each step of the look-ups keeps the group coherent**, with what is received in that step. -/
theorem goes (h : Coherent R x) (hx : crew.Manned x) (hgoes : x.Goes step y) :
    Coherent (fun key call value => R key call value ∨ Receives x step key call value) y := by
  refine ⟨?_, fun i key ticket call hi => h.calls_goes hx hgoes hi, ?_⟩
  · cases hgoes with
    | start hresume =>
      rw [receipts_same]
      · exact h.cached_start hx hresume
      · exact fun _ _ _ => not_receives nofun
    | resume hcard hresume => exact h.cached_resume hx hcard hresume
    | give hgive =>
      rw [receipts_same]
      · exact h.cached
      · exact fun _ _ _ => not_receives nofun
    | @drop j key' task hcard =>
      rw [receipts_same]
      · cases task with
        | fresh key | waiting ticket => exact h.cached
        | fetching key ticket call | loading key ticket call =>
          exact h.cached.of_subset (hx.sound.live_finish_subset _ _)
      · exact fun _ _ _ => not_receives nofun
    | idle hidle =>
      rw [receipts_same]
      · exact h.cached
      · exact fun _ _ _ => not_receives_idle hidle
  · have hgrown := hgoes.grown grown_resume
    rintro key call value (hR | ⟨i, ticket, rfl, hcard, hanswer⟩)
    · obtain ⟨hlabel, hanswer⟩ := h.received _ _ _ hR
      exact ⟨hgrown.getElem?_labels hlabel, hgrown.answers _ _ hanswer⟩
    · exact ⟨hgrown.getElem?_labels (h.calls _ _ _ _ hcard).1, hgrown.answers _ _ hanswer⟩

end Coherent

/-! ### Runs of look-ups -/

section Runs

variable (g : Shared) (steps : List (Step String))

/-- In one of these steps the leader of `key` took `value` from the origin, as the answer of
`call`. -/
def Received : Receipts := fun key call value =>
  ∃ before step later, steps = before ++ step :: later ∧
    Receives (view g before) step key call value

end Runs

variable {g : Shared} {steps : List (Step String)}

theorem split_concat {β : Type} {l before later : List β} {a b : β} :
    l ++ [a] = before ++ b :: later ↔
      l = before ∧ a = b ∧ later = [] ∨
        ∃ later', later = later' ++ [a] ∧ l = before ++ b :: later' := by
  constructor
  · intro h
    obtain rfl | ⟨later', last, rfl⟩ := List.eq_nil_or_concat later
    · obtain ⟨hl, ha⟩ := List.append_inj' h rfl
      cases ha
      exact .inl ⟨hl, rfl, rfl⟩
    · rw [List.concat_eq_append, ← List.cons_append, ← List.append_assoc] at h
      obtain ⟨hl, ha⟩ := List.append_inj' h rfl
      cases ha
      exact .inr ⟨later', by simp, hl⟩
  · rintro (⟨rfl, rfl, rfl⟩ | ⟨later', rfl, rfl⟩) <;> simp

theorem received_concat : Received g (steps ++ [step]) =
    fun key call value => Received g steps key call value ∨
      Receives (view g steps) step key call value := by
  funext key call value
  refine propext ⟨?_, ?_⟩
  · rintro ⟨before, step', later, heq, hreceives⟩
    rcases split_concat.mp heq with ⟨rfl, rfl, -⟩ | ⟨later', -, hsteps⟩
    · exact .inr hreceives
    · exact .inl ⟨before, step', later', hsteps, hreceives⟩
  · rintro (⟨before, step', later, rfl, hreceives⟩ | hreceives)
    · exact ⟨before, step', later ++ [step], by simp, hreceives⟩
    · exact ⟨steps, step, [], rfl, hreceives⟩

/-- **In every run the group is coherent.** -/
theorem coherent (name : String) (budget : UInt64) (peers : Option Picker)
    (steps : List (Step String)) :
    Coherent (Received (opened name budget peers) steps)
      (view (opened name budget peers) steps) := by
  refine run_induction (fun steps x => Coherent (Received (opened name budget peers) steps) x) []
    ?_ ?_ steps
  · have hnone : Received (opened name budget peers) [] = fun _ _ _ => False := by
      funext key call value
      refine propext ⟨?_, False.elim⟩
      rintro ⟨before, step, later, hnil, -⟩
      simp at hnil
    rw [hnone]
    exact coherent_empty name budget peers
  · intro steps step h
    rw [received_concat]
    exact h.goes (manned rfl steps) (scene_goes _ steps step)

end RingCache.Group.Lookup

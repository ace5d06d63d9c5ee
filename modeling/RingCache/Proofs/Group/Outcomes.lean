import Mathlib.Tactic.Common
import RingCache.Proofs.Group.Coherence

/-!
# Where the value of a look-up comes from

A leader makes calls for its key, to a peer or to the origin, and ends with what one of them was
answered (`Earns`). Everybody else who is not served from the cache ends as the leader does that
they joined. Together with what is known of the cache (`Coherent`), that says of every value which a
look-up finds where it comes from (`lookups_coherent`).
-/

namespace RingCache.Group.Lookup

open Flights Bench Lru

/-- How a leader of `key` fares, whose calls are those that `made` says. -/
inductive Earns (made : Nat → Prop) (gates : Gates) (key : String) : Fate Lookup Answer → Prop where
  | fetching {ticket call : Nat} (hmade : made call)
      (hlabel : gates.labels[call]? = some ("peer:" ++ key)) :
      Earns made gates key (.waiting (.fetching key ticket call))
  | loading {ticket call : Nat} (hmade : made call)
      (hlabel : gates.labels[call]? = some ("load:" ++ key)) :
      Earns made gates key (.waiting (.loading key ticket call))
  | earned {call : Nat} {value : Value} (hmade : made call)
      (hlabel : gates.labels[call]? = some ("peer:" ++ key) ∨
        gates.labels[call]? = some ("load:" ++ key))
      (hanswer : gates.answer? call = some (.ok value)) :
      Earns made gates key (.finished (.ok value))
  | failed (e : CacheError) : Earns made gates key (.finished (.error e))
  | dropped : Earns made gates key .dropped

/-- The look-up at place `i` asked for `key` and leads its flight, or did until it ended. -/
def EarnsAt (made : Nat → Prop) (x : View) (i : Nat) (key : String) : Prop :=
  ∃ fate, x.cards[i]? = some (key, fate) ∧ Earns made x.gates key fate

variable {made made' : Nat → Prop} {x y : View} {step : Step String} {key : String} {i : Nat}

theorem Earns.mono {gates gates' : Gates} {fate : Fate Lookup Answer}
    (h : Earns made gates key fate) (hmade : ∀ call, made call → made' call)
    (hgrown : gates.Grown gates') : Earns made' gates' key fate := by
  cases h with
  | fetching hmade' hlabel => exact .fetching (hmade _ hmade') (hgrown.getElem?_labels hlabel)
  | loading hmade' hlabel => exact .loading (hmade _ hmade') (hgrown.getElem?_labels hlabel)
  | earned hmade' hlabel hanswer =>
    exact .earned (hmade _ hmade')
      (hlabel.imp hgrown.getElem?_labels hgrown.getElem?_labels) (hgrown.answers _ _ hanswer)
  | failed e => exact .failed e
  | dropped => exact .dropped

/-- A leader that takes a turn goes on, makes another call, or ends with the answer of its call. -/
theorem Earns.turn {g g' : Shared} {gates gates' : Gates} {task : Lookup} {next : Lookup ⊕ Answer}
    (h : Earns made gates key (.waiting task)) (hturn : Turn g gates task g' gates' next)
    (hmade : ∀ call, made call → made' call)
    (hnew : ∀ call, gates.calls.size ≤ call → call < gates'.calls.size → made' call) :
    Earns made' gates' key (.of next) := by
  have hplaced : ∀ label, (gates.place label).2 = gates' → made' gates.calls.size := by
    rintro label rfl
    exact hnew _ (Nat.le_refl _) (by simp [Gates.place])
  cases h with
  | fetching hmade' hlabel =>
    cases hturn with
    | stillFetching hanswer => exact .fetching (hmade _ hmade') hlabel
    | fetched hanswer => exact .earned (hmade _ hmade') (.inl hlabel) hanswer
    | fallsBack hanswer => exact .loading (hplaced _ rfl) (Gates.getElem?_labels_place _ _)
  | loading hmade' hlabel =>
    cases hturn with
    | stillLoading hanswer => exact .loading (hmade _ hmade') hlabel
    | loaded hanswer => exact .earned (hmade _ hmade') (.inr hlabel) hanswer
    | failed hanswer => exact .failed _

/-- **A leader ends with what one of its calls was answered**, as long as it goes. -/
theorem EarnsAt.goes (h : EarnsAt made x i key) (hx : crew.Manned x) (hgoes : x.Goes step y)
    (hmade : ∀ call, made call → made' call)
    (hnew : step = .resume i → ∀ call, x.gates.calls.size ≤ call → call < y.gates.calls.size →
      made' call) : EarnsAt made' y i key := by
  obtain ⟨fate, hfate, hearns⟩ := h
  obtain ⟨fate', hfate', hfares⟩ := hgoes.fares hfate
  refine ⟨fate', hfate', ?_⟩
  cases hfares with
  | stays hother => exact hearns.mono hmade (hgoes.grown grown_resume)
  | turns hstep hresume => exact hearns.turn (resume_turn hx.sound hresume) hmade (hnew hstep)
  | dropped hstep => exact .dropped

/-- Whoever begins as a leader makes its first call. -/
theorem earnsAt_start (hx : crew.Manned x) {id : Int} (hgoes : x.Goes (.start id key) y)
    {ticket : Nat} (hlead : crew.Leads y x.cards.length key ticket)
    (hnew : ∀ call, x.gates.calls.size ≤ call → call < y.gates.calls.size → made call) :
    EarnsAt made y x.cards.length key := by
  cases hgoes with
  | idle hidle => exact hidle.elim
  | @start id key s gates next hresume =>
    refine ⟨.of next, List.getElem?_concat_length, ?_⟩
    have hmade : ∀ label, (x.gates.place label).2 = gates → made x.gates.calls.size := by
      rintro label rfl
      exact hnew _ (Nat.le_refl _) (by simp [Gates.place])
    rw [Parts.Leads, List.getElem?_concat_length] at hlead
    cases resume_turn hx.sound hresume with
    | refused | found | joins => cases hlead
    | asksPeer hempty hcache hlive =>
      exact .fetching (hmade _ rfl) (Gates.getElem?_labels_place _ _)
    | asksOrigin hempty hcache hlive =>
      exact .loading (hmade _ rfl) (Gates.getElem?_labels_place _ _)

/-- What the first turn of a look-up comes to: it has no key, it is served from the cache, it joins
the leader of its key, or it leads. -/
theorem start_cases (hx : crew.Manned x) {id : Int} (hgoes : x.Goes (.start id key) y) :
    (∃ e, y.cards[x.cards.length]? = some (key, .finished (.error e))) ∨
      (∃ value, (x.state.cache.get key).1 = some value ∧
        y.cards[x.cards.length]? = some (key, .finished (.ok value))) ∨
      (x.state.cache.get key).1 = none ∧
        ((∃ j ticket, crew.Leads x j key ticket ∧ crew.FollowsAt y x.cards.length key ticket) ∨
          (∀ j ticket, ¬ crew.Leads x j key ticket) ∧
            ∃ ticket, crew.Leads y x.cards.length key ticket) := by
  cases hgoes with
  | idle hidle => exact hidle.elim
  | @start id key s gates next hresume =>
    have hnew : ∀ card : Card String Lookup Answer,
        (x.cards ++ [card])[x.cards.length]? = some card :=
      fun _ => List.getElem?_concat_length
    have hfree : x.state.flights.live.lookup key = none →
        ∀ j ticket, ¬ crew.Leads x j key ticket := by
      intro hlive j ticket hj
      have := hx.lookup_eq_some.mpr ⟨j, hj⟩
      rw [show (crew.flights x.state).live.lookup key = none from hlive] at this
      cases this
    cases resume_turn hx.sound hresume with
    | refused hempty => exact .inl ⟨_, hnew _⟩
    | found hempty hcache => exact .inr (.inl ⟨_, by rw [hcache], hnew _⟩)
    | joins hempty hcache hlive =>
      obtain ⟨j, hj⟩ := hx.lookup_eq_some.mp hlive
      exact .inr (.inr ⟨by rw [hcache], .inl ⟨j, _, hj, _, hnew _, .waits rfl⟩⟩)
    | asksPeer hempty hcache hlive | asksOrigin hempty hcache hlive =>
      refine .inr (.inr ⟨by rw [hcache], .inr ⟨hfree hlive, x.state.flights.phases.size, ?_⟩⟩)
      rw [Parts.Leads, hnew]
      rfl

/-! ### Runs of look-ups -/

section Runs

variable (g : Shared) (steps : List (Step String))

/-- In one of these steps the look-up at place `i` made the call `call`. -/
def Made (i call : Nat) : Prop :=
  ∃ before step later, steps = before ++ step :: later ∧
    (step = .resume i ∨ ∃ id key, step = .start id key ∧ (view g before).cards.length = i) ∧
    (view g before).gates.calls.size ≤ call ∧ call < (view g (before ++ [step])).gates.calls.size

/-- After these steps the look-up at place `i` leads the flight of `key`. -/
def Leads (key : String) (i : Nat) : Prop :=
  ∃ ticket call, (view g steps).cards[i]? = some (key, .waiting (.fetching key ticket call)) ∨
    (view g steps).cards[i]? = some (key, .waiting (.loading key ticket call))

end Runs

variable {g : Shared} {steps : List (Step String)}

theorem Made.concat {call : Nat} (h : Made g steps i call) : Made g (steps ++ [step]) i call := by
  obtain ⟨before, step', later, rfl, hturn, hcall⟩ := h
  exact ⟨before, step', later ++ [step], by simp, hturn, hcall⟩

theorem leads_iff (hx : crew.Manned (view g steps)) :
    Leads g steps key i ↔ ∃ ticket, crew.Leads (view g steps) i key ticket := by
  constructor
  · rintro ⟨ticket, call, hcard⟩
    exact ⟨ticket, leads_of_call hcard⟩
  · rintro ⟨ticket, hlead⟩
    obtain ⟨card, hcard, hflight⟩ := Option.bind_eq_some_iff.mp hlead
    obtain ⟨key', task, rfl, hrole, rfl⟩ := Parts.flight_eq_some.mp hflight
    cases hx.suits _ _ _ hcard with
    | fetching t call => exact ⟨t, call, .inl hcard⟩
    | loading t call => exact ⟨t, call, .inr hcard⟩
    | waiting t => cases hrole

/-- A leader stays one whose value was the answer of a call that it made. -/
theorem earnsAt_concat (hg : g.flights = .empty) (h : EarnsAt (Made g steps i) (view g steps) i key)
    (step : Step String) :
    EarnsAt (Made g (steps ++ [step]) i) (view g (steps ++ [step])) i key := by
  refine h.goes (manned hg steps) (scene_goes _ steps step) (fun call hmade => hmade.concat) ?_
  rintro rfl call hle hlt
  exact ⟨steps, .resume i, [], rfl, .inl rfl, hle, hlt⟩

theorem earnsAt_begun (hg : g.flights = .empty) {id : Int} {ticket : Nat}
    (hlead :
      crew.Leads (view g (steps ++ [.start id key])) (view g steps).cards.length key ticket) :
    EarnsAt (Made g (steps ++ [.start id key]) (view g steps).cards.length)
      (view g (steps ++ [.start id key])) (view g steps).cards.length key := by
  refine earnsAt_start (manned hg steps) (scene_goes _ steps _) hlead ?_
  intro call hle hlt
  exact ⟨steps, .start id key, [], rfl, .inr ⟨id, key, rfl, rfl⟩, hle, hlt⟩

/-- **Every leader has made the call that it waits for.** -/
theorem leaders_earn (hg : g.flights = .empty) (steps : List (Step String)) :
    ∀ i key ticket, crew.Leads (view g steps) i key ticket →
      EarnsAt (Made g steps i) (view g steps) i key := by
  induction steps using List.reverseRecOn with
  | nil => nofun
  | append_singleton steps step ih =>
    intro i key ticket hi
    have hturn := (manned hg steps).turn (scene_goes g steps step)
    -- a leader led before this step, or it began with it
    rcases hturn.leads_before hi with hold | ⟨id, key', rfl, rfl, rfl⟩
    · exact earnsAt_concat hg (ih i key ticket hold) step
    · exact earnsAt_begun hg hi

theorem earnsAt_after (hg : g.flights = .empty) {before : List (Step String)}
    (h : EarnsAt (Made g before i) (view g before) i key) (later : List (Step String)) :
    EarnsAt (Made g (before ++ later) i) (view g (before ++ later)) i key :=
  run_induction (fun steps x => EarnsAt (Made g steps i) x i key) before h
    (fun _ step h => earnsAt_concat hg h step) later

/-- In these steps the look-up at place `j` made a call for `key`, to a peer or to the origin, which
was answered with `value`. -/
def Fetched (g : Shared) (steps : List (Step String)) (j : Nat) (key : String) (value : Value) :
    Prop :=
  ∃ call, Made g steps j call ∧
    ((view g steps).gates.labels[call]? = some ("peer:" ++ key) ∨
      (view g steps).gates.labels[call]? = some ("load:" ++ key)) ∧
    (view g steps).gates.answer? call = some (.ok value)

theorem EarnsAt.fetched {value : Value} (h : EarnsAt (Made g steps i) (view g steps) i key)
    (hfate : (view g steps).cards[i]? = some (key, .finished (.ok value))) :
    Fetched g steps i key value := by
  obtain ⟨fate, hcard, hearns⟩ := h
  rw [hfate] at hcard
  cases hcard
  cases hearns with
  | earned hmade hlabel hanswer => exact ⟨_, hmade, hlabel, hanswer⟩

/-- What has come to its end stays as it is. -/
theorem finished_after {before : List (Step String)} {result : Answer}
    (h : (view g before).cards[i]? = some (key, .finished result)) (later : List (Step String)) :
    (view g (before ++ later)).cards[i]? = some (key, .finished result) := by
  refine run_induction (fun _ x => x.cards[i]? = some (key, .finished result)) before h ?_ later
  intro steps step hi
  obtain ⟨fate, hfate, hfares⟩ := (scene_goes g steps step).fares hi
  cases hfares with
  | stays hother => exact hfate

/-- Whoever began as a leader and found a value was answered with it. -/
theorem fetched_of_leads (hg : g.flights = .empty) {before later : List (Step String)} {id : Int}
    {ticket : Nat} {value : Value}
    (hlead :
      crew.Leads (view g (before ++ [.start id key])) (view g before).cards.length key ticket)
    (hfate : (view g (before ++ .start id key :: later)).cards[(view g before).cards.length]? =
      some (key, .finished (.ok value))) :
    Fetched g (before ++ .start id key :: later) (view g before).cards.length key value := by
  have hearns := earnsAt_after hg (earnsAt_begun hg hlead) later
  rw [List.append_assoc, List.singleton_append] at hearns
  exact hearns.fetched hfate

/-- Whoever joined a leader and found a value found what that leader was answered. -/
theorem fetched_of_follows (hg : g.flights = .empty) {before later : List (Step String)} {id : Int}
    {j ticket : Nat} {value : Value} (hlead : crew.Leads (view g before) j key ticket)
    (hfollows : crew.FollowsAt (view g (before ++ [.start id key])) i key ticket)
    (hfate : (view g (before ++ .start id key :: later)).cards[i]? =
      some (key, .finished (.ok value))) :
    Fetched g (before ++ .start id key :: later) j key value := by
  have hearns := earnsAt_after hg (leaders_earn hg before j key ticket hlead)
    (.start id key :: later)
  obtain ⟨key', rfl, hheads⟩ := (manned hg before).headsAt hlead
  obtain ⟨fate', hcard', hhead⟩ := Crew.headsAt_after hg hheads (.start id key' :: later)
  obtain ⟨fate, hcard, hfollow⟩ := Crew.followsAt_after hg hfollows later
  rw [List.append_assoc, List.singleton_append, hfate] at hcard
  cases hcard
  rw [List.append_assoc, List.singleton_append] at hfollow
  rcases hfollow.told hhead with ⟨outcome, rfl, hvalue⟩ | ⟨-, hvalue⟩
  · cases hvalue
    exact hearns.fetched hcard'
  · -- who is told that its leader was dropped finds no value
    cases hvalue

/-- **Where every value comes from.** In every run of look-ups in a fresh group, whatever picks its
peers, whatever calls are answered and in whatever order:

* a key has at most one leader;
* an entry of the cache is the latest value that a leader of its key received from the origin;
* a look-up that finds a value had it from the cache, as it was at its first turn; or else the value
  was the answer of a call that was made for its key by one look-up: by itself, if nobody led the
  key at its first turn, and by the leader of the key if somebody did. -/
theorem lookups_coherent (name : String) (budget : UInt64) (peers : Option Picker)
    (steps : List (Step String)) :
    let g := opened name budget peers
    (∀ key i j, Leads g steps key i → Leads g steps key j → i = j) ∧
      (∀ key value, (key, value) ∈ (view g steps).state.cache.store.toList →
        ∃ call, Latest (Received g steps) key call value ∧
          (view g steps).gates.labels[call]? = some ("load:" ++ key)) ∧
      ∀ before id key later value, steps = before ++ .start id key :: later →
        (view g steps).cards[(view g before).cards.length]? = some (key, .finished (.ok value)) →
        ((key, value) ∈ (view g before).state.cache.store.toList ∧
          (view g (before ++ [.start id key])).cards[(view g before).cards.length]? =
            some (key, .finished (.ok value))) ∨
        ((∀ v, (key, v) ∉ (view g before).state.cache.store.toList) ∧
          (((∀ j, ¬ Leads g before key j) ∧
              Fetched g steps (view g before).cards.length key value) ∨
            ∃ j, Leads g before key j ∧ Fetched g steps j key value)) := by
  intro g
  have hg : g.flights = .empty := rfl
  refine ⟨?_, ?_, ?_⟩
  · intro key i j hi hj
    have hx := manned hg steps
    obtain ⟨t, hi⟩ := (leads_iff hx).mp hi
    obtain ⟨u, hj⟩ := (leads_iff hx).mp hj
    exact hx.leader_unique hi hj
  · intro key value hmem
    have hcoherent := coherent name budget peers steps
    obtain ⟨l, hcarries, hlatest, -⟩ := hcoherent.cached
    rw [hcarries.toList_eq] at hmem
    obtain ⟨call, hcall⟩ := hlatest key value hmem
    exact ⟨call, hcall, (hcoherent.received key call value hcall.1).1⟩
  · rintro before id key later value rfl hfate
    have hx := manned hg before
    have hkeeps := (coherent name budget peers before).cached
    rcases start_cases hx (scene_goes g before (.start id key)) with
      ⟨e, herror⟩ | ⟨v, hhit, hfound⟩ | ⟨hmissed, hflight⟩
    · have hlast := finished_after herror later
      rw [List.append_assoc, List.singleton_append, hfate] at hlast
      cases hlast
    · have hlast := finished_after hfound later
      rw [List.append_assoc, List.singleton_append, hfate] at hlast
      cases hlast
      exact .inl ⟨(hkeeps.get_eq key value).mp hhit, hfound⟩
    · have hnone : ∀ v, (key, v) ∉ (view g before).state.cache.store.toList := by
        intro v hmem
        rw [← hkeeps.get_eq, hmissed] at hmem
        cases hmem
      refine .inr ⟨hnone, ?_⟩
      rcases hflight with ⟨j, ticket, hlead, hfollows⟩ | ⟨hfree, ticket, hlead⟩
      · exact .inr ⟨j, (leads_iff hx).mpr ⟨ticket, hlead⟩,
          fetched_of_follows hg hlead hfollows hfate⟩
      · refine .inl ⟨?_, fetched_of_leads hg hlead hfate⟩
        intro j hj
        obtain ⟨t, hj⟩ := (leads_iff hx).mp hj
        exact hfree j t hj

end RingCache.Group.Lookup

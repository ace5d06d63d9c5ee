import Mathlib.Data.List.Induction
import Mathlib.Tactic.Common
import RingCache.Proofs.Group.Shadow

/-!
# Keys do not interfere

From the steps of a run, those that belong to look-ups for one key can be taken alone (`only`): its
look-ups begin, are resumed and dropped, and its calls are answered. As other look-ups and calls are
missing, those that stay have other places, but their order is the same.

In a group without a limit, and with a picker that goes by the key alone, these steps are a run in
which every look-up for the key fares as it did among all others (`keys_apart`). Step by step, the
scene of the steps alone shadows the scene of all steps (`Apart`): a step for the key is made in both
(`Apart.goes`), and any other step is not seen (`Apart.goes_other`).
-/

namespace RingCache.Group.Lookup

open Flights Bench

/-! ### The steps for one key -/

/-- What each step of a run adds to a list, by the steps before it. -/
def along {β : Type} (f : List (Step String) → Step String → List β) :
    List (Step String) → List (Step String) → List β
  | _, [] => []
  | before, step :: later => f before step ++ along f (before ++ [step]) later

/-- A step as a step of the look-ups for `key` alone, with the place that its look-up or its call has
there; none if it belongs to another key. What was asked before it and the labels of the calls that
were made say where it belongs. -/
def ownStep (key : String) (asks labels : List String) : Step String → Option (Step String)
  | .start id ask => if ask = key then some (.start id ask) else none
  | .resume i => if asks[i]? = some key then some (.resume (rank (· == key) asks i)) else none
  | .give call answer =>
    if labels[call]?.any (ours key) then some (.give (rank (ours key) labels call) answer) else none
  | .drop i => if asks[i]? = some key then some (.drop (rank (· == key) asks i)) else none

/-- The steps that belong to look-ups for `key`. -/
def only (g : Shared) (key : String) (steps : List (Step String)) : List (Step String) :=
  along (fun before step =>
    (ownStep key (asked before) (view g before).gates.labels step).toList) [] steps

/-! ### How a look-up fares -/

/-- What a look-up does that has not come to its end. -/
inductive Doing where
  | begins
  /-- it leads and waits for its peer -/
  | fetches
  /-- it leads and waits for the origin -/
  | loads
  /-- it waits for another one that leads -/
  | waits
  deriving DecidableEq

def doing : Lookup → Doing
  | .fresh _ => .begins
  | .fetching _ _ _ => .fetches
  | .loading _ _ _ => .loads
  | .waiting _ => .waits

/-- What has become of a look-up, without the numbers of flights and calls. -/
def seen : Fate Lookup Answer → Fate Doing Answer
  | .waiting task => .waiting (doing task)
  | .finished outcome => .finished outcome
  | .dropped => .dropped

/-- What has become of the look-up at place `i`. -/
def seenAt (x : View) (i : Nat) : Option (Fate Doing Answer) :=
  x.cards[i]?.map fun card => seen card.2

/-- The step begins, resumes or drops the look-up at place `i`, after `count` have begun. -/
def touches (count i : Nat) : Step String → Bool
  | .start _ _ => count == i
  | .resume j | .drop j => j == i && decide (i < count)
  | .give _ _ => false

/-- How the look-up at place `i` fares: what is seen of it after each of its own steps. -/
def history (g : Shared) (i : Nat) (steps : List (Step String)) :
    List (Option (Fate Doing Answer)) :=
  along (fun before step =>
    if touches (asked before).length i step then [seenAt (view g (before ++ [step])) i] else []) []
    steps

/-- Each step finds something to do. -/
def Valid (g : Shared) (steps : List (Step String)) : Prop :=
  ∀ before step later, steps = before ++ step :: later → ¬ (view g before).Idle step

section Along

variable {β : Type} {f : List (Step String) → Step String → List β}

theorem along_append (before steps later : List (Step String)) :
    along f before (steps ++ later) = along f before steps ++ along f (before ++ steps) later := by
  induction steps generalizing before with
  | nil => simp [along]
  | cons step steps ih => simp [along, ih]

theorem along_concat (steps : List (Step String)) (step : Step String) :
    along f [] (steps ++ [step]) = along f [] steps ++ f steps step := by
  rw [along_append, List.nil_append, along, along, List.append_nil]

end Along

/-- A step of the key, and what it is among the steps of the key alone. -/
inductive Owned (key : String) (asks labels : List String) : Step String → Step String → Prop where
  | start (id : Int) : Owned key asks labels (.start id key) (.start id key)
  | resume {i : Nat} (hask : asks[i]? = some key) :
      Owned key asks labels (.resume i) (.resume (rank (· == key) asks i))
  | give {call : Nat} {label : String} (answer : Answer) (hlabel : labels[call]? = some label)
      (hours : ours key label = true) :
      Owned key asks labels (.give call answer) (.give (rank (ours key) labels call) answer)
  | drop {i : Nat} (hask : asks[i]? = some key) :
      Owned key asks labels (.drop i) (.drop (rank (· == key) asks i))

theorem owned {key : String} {asks labels : List String} {step step' : Step String}
    (h : ownStep key asks labels step = some step') : Owned key asks labels step step' := by
  cases step with
  | start id ask =>
    obtain ⟨rfl, hstep⟩ := Option.ite_none_right_eq_some.mp h
    cases hstep
    exact .start id
  | resume i =>
    obtain ⟨hask, hstep⟩ := Option.ite_none_right_eq_some.mp h
    cases hstep
    exact .resume hask
  | give call answer =>
    obtain ⟨hours, hstep⟩ := Option.ite_none_right_eq_some.mp h
    obtain ⟨label, hlabel, hours⟩ := (Option.any_eq_true _ _).mp hours
    cases hstep
    exact .give answer hlabel hours
  | drop i =>
    obtain ⟨hask, hstep⟩ := Option.ite_none_right_eq_some.mp h
    cases hstep
    exact .drop hask

theorem only_concat (g : Shared) (key : String) (steps : List (Step String)) (step : Step String) :
    only g key (steps ++ [step]) = only g key steps ++
      (ownStep key (asked steps) (view g steps).gates.labels step).toList :=
  along_concat steps step

theorem history_concat (g : Shared) (i : Nat) (steps : List (Step String)) (step : Step String) :
    history g i (steps ++ [step]) = history g i steps ++
      if touches (asked steps).length i step then [seenAt (view g (steps ++ [step])) i] else [] :=
  along_concat steps step

theorem valid_concat {g : Shared} {steps : List (Step String)} {step : Step String} :
    Valid g (steps ++ [step]) ↔ Valid g steps ∧ ¬ (view g steps).Idle step := by
  constructor
  · intro h
    refine ⟨?_, h steps step [] rfl⟩
    rintro before step' later rfl
    exact h before step' (later ++ [step]) (by simp)
  · rintro ⟨hsteps, hlast⟩ before step' later heq
    rcases split_concat.mp heq with ⟨rfl, rfl, -⟩ | ⟨later', -, rfl⟩
    · exact hlast
    · exact hsteps before step' later' rfl

/-! ### A scene as one key sees it -/

variable {key : String} {tickets : List Nat} {labels : List String} {x x' y y' : View}
  {step step' : Step String} {i : Nat}

/-- A card for `key`, and its shadow. -/
def Kin (key : String) (tickets : List Nat) (labels : List String)
    (card card' : Card String Lookup Answer) : Prop :=
  card'.1 = key ∧ Fares key tickets labels card.2 card'.2

/-- The scene `y` is all that `key` sees of the scene `x`. -/
def Apart (key : String) (x y : View) : Prop :=
  ∃ tickets, Shadow key tickets x.state x.gates y.state y.gates ∧
    Shadows (fun card => card.1 == key) (Kin key tickets x.gates.labels) x.cards y.cards

theorem Kin.grow {card card' : Card String Lookup Answer} (h : Kin key tickets labels card card')
    (moreTickets : List Nat) {labels' : List String} (hlabels : labels <+: labels') :
    Kin key (tickets ++ moreTickets) labels' card card' := by
  obtain ⟨moreLabels, rfl⟩ := hlabels
  exact ⟨h.1, h.2.grow moreTickets moreLabels⟩

/-- A look-up for another key leads no flight that this key sees. -/
theorem Shadow.elsewhere {g' : Shared} {gates' : Gates} (hx : crew.Manned x)
    (h : Shadow key tickets x.state x.gates g' gates') {ask : String} {task : Lookup}
    (hcard : x.cards[i]? = some (ask, .waiting task)) (hask : ask ≠ key) :
    Elsewhere key tickets task := by
  cases hx.suits _ _ _ hcard with
  | fetching t call =>
    have hlead : crew.Leads x i ask t := leads_of_call (.inl hcard)
    exact .fetching hask (h.flights.not_mem_of_live hx.sound (hx.leads_airborne hlead).1 hask)
  | loading t call =>
    have hlead : crew.Leads x i ask t := leads_of_call (.inr hcard)
    exact .loading hask (h.flights.not_mem_of_live hx.sound (hx.leads_airborne hlead).1 hask)
  | waiting t => exact .waiting t

/-- What is asked stands on the card. -/
theorem getElem?_asks {ask : String} :
    (x.cards.map Prod.fst)[i]? = some ask ↔ ∃ fate, x.cards[i]? = some (ask, fate) := by
  rw [List.getElem?_map, Option.map_eq_some_iff]
  constructor
  · rintro ⟨⟨ask, fate⟩, hcard, rfl⟩
    exact ⟨fate, hcard⟩
  · rintro ⟨fate, hcard⟩
    exact ⟨_, hcard, rfl⟩

theorem rank_asks (x : View) (i : Nat) :
    rank (· == key) (x.cards.map Prod.fst) i = rank (fun card => card.1 == key) x.cards i :=
  rank_map _ _

namespace Apart

/-- A look-up for the key has its shadow at its rank. -/
theorem card (hcards : Shadows (fun card => card.1 == key) (Kin key tickets labels) x.cards y.cards)
    {fate : Fate Lookup Answer} (hcard : x.cards[i]? = some (key, fate)) :
    ∃ fate', y.cards[rank (· == key) (x.cards.map Prod.fst) i]? = some (key, fate') ∧
      Fares key tickets labels fate fate' := by
  obtain ⟨⟨ask', fate'⟩, hcard', rfl, hfares⟩ := hcards.get hcard (by simp)
  rw [rank_asks]
  exact ⟨fate', hcard', hfares⟩

/-- A look-up that has a step of its own asks for the key, and waits if its shadow does. -/
theorem waiting (hcards : Shadows (fun card => card.1 == key) (Kin key tickets labels) x.cards y.cards)
    {ask : String} {task : Lookup} (hcard : x.cards[i]? = some (ask, .waiting task))
    (hask : (x.cards.map Prod.fst)[i]? = some key) :
    ask = key ∧ ∃ task',
      y.cards[rank (· == key) (x.cards.map Prod.fst) i]? = some (key, .waiting task') ∧
        Likens key tickets labels task task' := by
  obtain ⟨fate, hfate⟩ := getElem?_asks.mp hask
  rw [hcard] at hfate
  cases hfate
  obtain ⟨fate', hcard', hfares⟩ := card hcards hcard
  cases hfares with
  | waiting hlike => exact ⟨rfl, _, hcard', hlike⟩

/-! ### One step -/

/-- **A step of another key** is not seen. -/
theorem goes_other (h : Apart key x y) (hx : crew.Manned x) (hgoes : x.Goes step x')
    (hown : ownStep key (x.cards.map Prod.fst) x.gates.labels step = none) : Apart key x' y := by
  obtain ⟨tickets, hshadow, hcards⟩ := h
  have hgrown := hgoes.grown grown_resume
  have hold : Shadows (fun card => card.1 == key) (Kin key tickets x'.gates.labels) x.cards y.cards :=
    hcards.imp fun _ _ hkin => by simpa using hkin.grow [] hgrown.labels
  -- a card of the key has a step of its own
  have hask : ∀ {i : Nat} {ask : String} {task : Lookup},
      x.cards[i]? = some (ask, .waiting task) →
      (x.cards.map Prod.fst)[i]? ≠ some key → ask ≠ key := by
    rintro i ask task hcard hnot rfl
    exact hnot (getElem?_asks.mpr ⟨_, hcard⟩)
  cases hgoes with
  | @start id ask s gates next hresume =>
    have hne : ask ≠ key := by simpa [ownStep] using hown
    exact ⟨tickets, hshadow.turn_other hx.sound (.fresh hne) (resume_turn hx.sound hresume),
      hold.append_other (by simpa using hne)⟩
  | @resume i ask task s gates next hcard hresume =>
    have hne := hask hcard (by simpa [ownStep] using hown)
    have helse := hshadow.elsewhere hx hcard hne
    exact ⟨tickets, hshadow.turn_other hx.sound helse (resume_turn hx.sound hresume),
      hold.set_other hcard (by simpa using hne) (by simpa using hne)⟩
  | @give call answer gates hgive =>
    have hlabel : ∀ label, x.gates.labels[call]? = some label → ours key label = false := by
      intro label hlabel
      simpa [ownStep, hlabel] using hown
    exact ⟨tickets, { hshadow with calls := hshadow.calls.give_other hlabel hgive }, hold⟩
  | @drop i ask task hcard =>
    have hne := hask hcard (by simpa [ownStep] using hown)
    have helse := hshadow.elsewhere hx hcard hne
    exact ⟨tickets, hshadow.abandon_other hx.sound helse,
      hold.set_other hcard (by simpa using hne) (by simpa using hne)⟩
  | idle hidle => exact ⟨tickets, hshadow, hcards⟩

/-- A step of the key finds something to do in the shadow just if it finds something. -/
theorem idle_iff (h : Apart key x y)
    (hown : Owned key (x.cards.map Prod.fst) x.gates.labels step step') :
    y.Idle step' ↔ x.Idle step := by
  obtain ⟨tickets, hshadow, hcards⟩ := h
  cases hown with
  | start id => exact Iff.rfl
  | resume hask | drop hask =>
    obtain ⟨fate, hcard⟩ := getElem?_asks.mp hask
    obtain ⟨fate', hcard', hfares⟩ := card hcards hcard
    simp only [Scene.Idle, hcard, hcard']
    cases hfares <;> simp
  | @give call label answer hlabel hours =>
    have hgiven := hshadow.calls.give hlabel hours answer
    show y.gates.give? _ answer = none ↔ x.gates.give? call answer = none
    cases hgive : x.gates.give? call answer with
    | none => simpa [hgive] using hgiven
    | some gates =>
      rw [hgive] at hgiven
      obtain ⟨gates', hgive', -⟩ := hgiven
      simp [hgive']

/-- **A step of the key** is made in the shadow as well. -/
theorem goes (h : Apart key x y) (hx : crew.Manned x) (hy : crew.Manned y)
    (hown : Owned key (x.cards.map Prod.fst) x.gates.labels step step') (hgoes : x.Goes step x')
    (hgoes' : y.Goes step' y') : Apart key x' y' := by
  by_cases hidle : x.Idle step
  · -- what finds nothing to do leaves both scenes as they are
    rw [hgoes.eq_of_idle hidle, hgoes'.eq_of_idle ((h.idle_iff hown).mpr hidle)]
    exact h
  have hgrown := hgoes.grown grown_resume
  obtain ⟨tickets, hshadow, hcards⟩ := h
  have hold : ∀ more, Shadows (fun card => card.1 == key)
      (Kin key (tickets ++ more) x'.gates.labels) x.cards y.cards :=
    fun more => hcards.imp fun _ _ hkin => hkin.grow more hgrown.labels
  have hsame := hold []
  rw [List.append_nil] at hsame
  cases hown with
  | start id =>
    cases hgoes with
    | idle hnothing => exact absurd hnothing hidle
    | start hresume =>
      cases hgoes' with
      | idle hnothing => exact hnothing.elim
      | start hresume' =>
        obtain ⟨more, hshadow', hfares⟩ := hshadow.begin hx.sound hy.sound hresume hresume'
        exact ⟨tickets ++ more, hshadow', (hold more).append (by simp) ⟨rfl, hfares⟩⟩
  | resume hask =>
    cases hgoes with
    | idle hnothing => exact absurd hnothing hidle
    | resume hcard hresume =>
      obtain ⟨rfl, task', hcard', hlike⟩ := waiting hcards hcard hask
      cases hgoes' with
      | idle hnothing => exact absurd hcard' (hnothing _ _)
      | resume hcard'' hresume' =>
        rw [hcard'] at hcard''
        cases hcard''
        obtain ⟨hshadow', hfares⟩ := hshadow.turn hx.sound hy.sound hlike hresume hresume'
        refine ⟨tickets, hshadow', ?_⟩
        rw [rank_asks]
        exact hsame.set hcard (by simp) (by simp) ⟨rfl, hfares⟩
  | drop hask =>
    cases hgoes with
    | idle hnothing => exact absurd hnothing hidle
    | drop hcard =>
      obtain ⟨rfl, task', hcard', hlike⟩ := waiting hcards hcard hask
      cases hgoes' with
      | idle hnothing => exact absurd hcard' (hnothing _ _)
      | drop hcard'' =>
        rw [hcard'] at hcard''
        cases hcard''
        refine ⟨tickets, hshadow.abandon hx.sound hy.sound hlike, ?_⟩
        rw [rank_asks]
        exact hsame.set hcard (by simp) (by simp) ⟨rfl, .dropped⟩
  | give answer hlabel hours =>
    cases hgoes with
    | idle hnothing => exact absurd hnothing hidle
    | give hgive =>
      have hgiven := hshadow.calls.give hlabel hours answer
      rw [hgive] at hgiven
      obtain ⟨gates', hgive', hcalls⟩ := hgiven
      cases hgoes' with
      | idle hnothing =>
        have hnone : y.gates.give? _ answer = none := hnothing
        rw [hgive'] at hnone
        cases hnone
      | give hgive'' =>
        rw [hgive'] at hgive''
        cases hgive''
        exact ⟨tickets, { hshadow with calls := hcalls }, hsame⟩

end Apart

/-! ### Whole runs -/

/-- A group without a limit, whose picker goes by the key alone. -/
def unlimited (name : String) (peers : Option (String → Bool)) : Shared :=
  opened name 0 (peers.map fun picks _ key => picks key)

variable {name : String} {peers : Option (String → Bool)} {steps : List (Step String)}

theorem apart_nil (name : String) (peers : Option (String → Bool)) (key : String) :
    Apart key (view (unlimited name peers) []) (view (unlimited name peers) []) := by
  refine ⟨[], ?_, Shadows.nil⟩
  exact {
    peers := rfl
    steady := by
      intro picker hpicker m n
      obtain ⟨picks, -, rfl⟩ := Option.map_eq_some_iff.mp hpicker
      rfl
    cache := Cache.unbounded_empty
    cache' := Cache.unbounded_empty
    value := rfl
    flights := shadow_empty key
    calls := Shadows.nil }

theorem goes_concat (g : Shared) (steps : List (Step String)) (step : Step String) :
    (view g steps).Goes step (view g (steps ++ [step])) :=
  scene_goes g steps step

/-- What is asked stands on the cards. -/
theorem asks_eq (g : Shared) (steps : List (Step String)) :
    (view g steps).cards.map Prod.fst = asked steps :=
  map_fst_cards g steps

/-- **In every run**, the steps of the key alone lead to all that the key sees. -/
theorem apart_only (name : String) (peers : Option (String → Bool)) (key : String)
    (steps : List (Step String)) :
    Apart key (view (unlimited name peers) steps)
      (view (unlimited name peers) (only (unlimited name peers) key steps)) := by
  induction steps using List.reverseRecOn with
  | nil => exact apart_nil name peers key
  | append_singleton steps step ih =>
    have hx := manned (g := unlimited name peers) rfl steps
    have hy := manned (g := unlimited name peers) rfl (only (unlimited name peers) key steps)
    have hgoes := goes_concat (unlimited name peers) steps step
    rw [only_concat, ← asks_eq (unlimited name peers) steps]
    cases hown : ownStep key ((view (unlimited name peers) steps).cards.map Prod.fst)
        (view (unlimited name peers) steps).gates.labels step with
    | none =>
      rw [Option.toList_none, List.append_nil]
      exact ih.goes_other hx hgoes hown
    | some step' => exact ih.goes hx hy (owned hown) hgoes (goes_concat _ _ step')

/-- The steps of the key ask for it as often as all steps do. -/
theorem asked_only (g : Shared) (key : String) (steps : List (Step String)) :
    asked (only g key steps) = (asked steps).filter (· == key) := by
  induction steps using List.reverseRecOn with
  | nil => rfl
  | append_singleton steps step ih =>
    rw [only_concat, asked_concat, List.filter_append, ← ih]
    cases hown : ownStep key (asked steps) (view g steps).gates.labels step with
    | none =>
      cases step with
      | start id ask =>
        have hne : ask ≠ key := by simpa [ownStep] using hown
        simp [asked, hne]
      | resume i | give call answer | drop i => simp [asked]
    | some step' =>
      rw [Option.toList_some, asked_concat]
      cases owned hown <;> simp [asked]

/-- **The steps of the key alone are a run**, if all steps are one. -/
theorem valid_only (h : Valid (unlimited name peers) steps) :
    Valid (unlimited name peers) (only (unlimited name peers) key steps) := by
  induction steps using List.reverseRecOn with
  | nil => exact h
  | append_singleton steps step ih =>
    obtain ⟨hsteps, hlast⟩ := valid_concat.mp h
    rw [only_concat, ← asks_eq (unlimited name peers) steps]
    cases hown : ownStep key ((view (unlimited name peers) steps).cards.map Prod.fst)
        (view (unlimited name peers) steps).gates.labels step with
    | none =>
      rw [Option.toList_none, List.append_nil]
      exact ih hsteps
    | some step' =>
      have hiff := (apart_only name peers key steps).idle_iff (owned hown)
      exact valid_concat.mpr ⟨ih hsteps, mt hiff.mp hlast⟩

/-! ### Histories -/

/-- What has become of a look-up for the key is seen of its shadow. -/
theorem Apart.seenAt_eq (h : Apart key x y) (hask : (x.cards.map Prod.fst)[i]? = some key) :
    seenAt y (rank (· == key) (x.cards.map Prod.fst) i) = seenAt x i := by
  obtain ⟨tickets, -, hcards⟩ := h
  obtain ⟨fate, hcard⟩ := getElem?_asks.mp hask
  obtain ⟨fate', hcard', hfares⟩ := Apart.card hcards hcard
  have hseen : seen fate' = seen fate := by
    cases hfares with
    | waiting hlike => cases hlike <;> rfl
    | finished outcome | dropped => rfl
  rw [seenAt, seenAt, hcard, hcard', Option.map_some, Option.map_some, hseen]

/-- A look-up has no history before it begins. -/
theorem history_eq_nil (g : Shared) (hi : (asked steps).length ≤ i) : history g i steps = [] := by
  induction steps using List.reverseRecOn with
  | nil => rfl
  | append_singleton steps step ih =>
    rw [asked_concat, List.length_append] at hi
    have hnone : touches (asked steps).length i step = false := by
      cases step with
      | start id ask =>
        have hlt : (asked steps).length < i := hi
        simpa [touches] using Nat.ne_of_lt hlt
      | resume j | drop j =>
        have hle : ¬ i < (asked steps).length := by omega
        simp [touches, hle]
      | give call answer => rfl
    rw [history_concat, ih (by omega), hnone]
    rfl

/-- A step of another key touches no look-up for this one. -/
theorem touches_other (hown : ownStep key (asked steps) labels step = none)
    (hask : (asked (steps ++ [step]))[i]? = some key) :
    touches (asked steps).length i step = false := by
  rw [asked_concat] at hask
  cases step with
  | start id ask =>
    have hne : ask ≠ key := by simpa [ownStep] using hown
    simp only [touches, beq_eq_false_iff_ne]
    rintro rfl
    rw [show asked [Step.start id ask] = [ask] from rfl, List.getElem?_concat_length] at hask
    exact hne (Option.some_inj.mp hask)
  | resume j | drop j =>
    have hne : (asked steps)[j]? ≠ some key := by simpa [ownStep] using hown
    have hij : j ≠ i := by
      rintro rfl
      simp only [asked, List.filterMap_cons_none, List.filterMap_nil, List.append_nil] at hask
      exact hne hask
    simp [touches, hij]
  | give call answer => rfl

/-- A step of the key touches a look-up just if its shadow is touched. -/
theorem touches_own (hown : Owned key (asked steps) labels step step')
    (hask : (asked (steps ++ [step]))[i]? = some key) :
    touches ((asked steps).filter (· == key)).length
        (rank (· == key) (asked (steps ++ [step])) i) step' =
      touches (asked steps).length i step := by
  rw [asked_concat] at hask ⊢
  -- a look-up that has begun is one of those that were asked for
  have hbegun : (asked steps)[i]? = some key →
      rank (· == key) (asked steps) i < ((asked steps).filter (· == key)).length :=
    fun h => (List.getElem?_eq_some_iff.mp (getElem?_rank h (by simp))).1
  cases hown with
  | start id =>
    rw [show asked [Step.start id key] = [key] from rfl] at hask ⊢
    have hlast : (asked steps ++ [key])[(asked steps).length]? = some key :=
      List.getElem?_concat_length
    rw [touches, touches, ← rank_length, ← rank_append (Nat.le_refl _) [key], Bool.eq_iff_iff,
      beq_iff_eq, beq_iff_eq]
    refine ⟨fun h => rank_inj hlast (by simp) hask (by simp) h, ?_⟩
    rintro rfl
    rfl
  | @resume j hj | @drop j hj =>
    simp only [asked, List.filterMap_cons_none, List.filterMap_nil, List.append_nil] at hask ⊢
    have hlt := (List.getElem?_eq_some_iff.mp hask).1
    have hiff : rank (· == key) (asked steps) j = rank (· == key) (asked steps) i ↔ j = i := by
      refine ⟨fun h => rank_inj hj (by simp) hask (by simp) h, ?_⟩
      rintro rfl
      rfl
    rw [touches, touches, Bool.eq_iff_iff]
    simp only [Bool.and_eq_true, beq_iff_eq, decide_eq_true_eq]
    exact and_congr hiff (iff_of_true (hbegun hask) hlt)
  | give answer hlabel hours => rfl

/-- **Every look-up for the key has the same history** among the steps of the key alone. -/
theorem history_only (name : String) (peers : Option (String → Bool)) (key : String)
    (steps : List (Step String)) {i : Nat} (hask : (asked steps)[i]? = some key) :
    history (unlimited name peers) (rank (· == key) (asked steps) i)
        (only (unlimited name peers) key steps) =
      history (unlimited name peers) i steps := by
  induction steps using List.reverseRecOn with
  | nil => simp [asked] at hask
  | append_singleton steps step ih =>
    have happ := apart_only name peers key (steps ++ [step])
    -- either the look-up began before this step, or it has no history yet
    have hbefore : history (unlimited name peers) (rank (· == key) (asked (steps ++ [step])) i)
        (only (unlimited name peers) key steps) = history (unlimited name peers) i steps := by
      rw [asked_concat] at hask ⊢
      by_cases hlt : i < (asked steps).length
      · rw [List.getElem?_append_left hlt] at hask
        rw [rank_append (Nat.le_of_lt hlt), ih hask]
      · have hge := Nat.le_of_not_lt hlt
        rw [history_eq_nil _ hge, history_eq_nil]
        rw [asked_only, ← rank_length, ← rank_append (Nat.le_refl _) (asked [step])]
        exact rank_mono _ _ hge
    rw [only_concat, history_concat _ i]
    rw [only_concat] at happ
    cases hown : ownStep key (asked steps) (view (unlimited name peers) steps).gates.labels step with
    | none =>
      rw [touches_other hown hask, Option.toList_none, List.append_nil, hbefore]
      simp
    | some step' =>
      rw [hown, Option.toList_some] at happ
      have hseen := happ.seenAt_eq (by rwa [asks_eq])
      rw [asks_eq] at hseen
      rw [Option.toList_some, history_concat, asked_only, touches_own (owned hown) hask, hbefore, hseen]

/-- **Keys do not interfere.** Take a group without a limit, a picker that goes by the key alone, and
any steps of look-ups: they begin, are resumed and dropped, and calls are answered, in any order. Of
these, the steps that belong to look-ups for one key are a run of their own, in which

* there is something to do in each step, if there is in all steps;
* every look-up for the key has the same history: after each of its own steps it leads or waits, or
  has come to its end with an outcome, just as it does among all others;
* the same calls are made for the key, in the same order, and have the same answers. -/
theorem keys_apart (name : String) (peers : Option (String → Bool)) (key : String)
    (steps : List (Step String)) :
    let g := unlimited name peers
    let alone := only g key steps
    asked alone = (asked steps).filter (· == key) ∧ (Valid g steps → Valid g alone) ∧
      (∀ i, (asked steps)[i]? = some key →
        history g (rank (· == key) (asked steps) i) alone = history g i steps) ∧
      (view g alone).gates.calls.toList =
        (view g steps).gates.calls.toList.filter fun gate => ours key gate.label := by
  intro g alone
  obtain ⟨tickets, hshadow, -⟩ := apart_only name peers key steps
  exact ⟨asked_only g key steps, valid_only, fun i hask => history_only name peers key steps hask,
    Gates.shadow_iff.mp hshadow.calls⟩

end RingCache.Group.Lookup

import Mathlib.Data.List.Basic
import Mathlib.Data.List.Induction
import Mathlib.Tactic.Common
import RingCache.Bench

/-!
# Runs at the bench

A run is a list of atomic steps from a bench without tasks. Every task begins with something that is
asked (`Asking.fresh`), so the steps say who asked for what; how far each has come, the bench says.
Both together make the *scene* of a run, and `Scene.Goes` says what one step does to it.

Whoever proves something of every run proves it of the first scene and along `Scene.Goes`, and has
it by `Bench.scene_goes` and `Bench.run_induction`.
-/

namespace RingCache

variable {σ τ ρ κ α : Type}

/-! ### Calls -/

namespace Gates

@[simp] theorem length_labels (g : Gates α) : g.labels.length = g.calls.size := by
  simp [labels]

@[simp] theorem labels_place (g : Gates α) (label : String) :
    (g.place label).2.labels = g.labels ++ [label] := by
  simp [labels, place]

theorem getElem?_labels_place (g : Gates α) (label : String) :
    (g.place label).2.labels[g.calls.size]? = some label := by
  rw [labels_place, ← length_labels, List.getElem?_concat_length]

@[simp] theorem answer?_place (g : Gates α) (label : String) (call : Nat) :
    (g.place label).2.answer? call = g.answer? call := by
  simp only [answer?, place, Array.getElem?_push]
  split
  · next h => simp [h]
  · rfl

theorem give?_spec {g g' : Gates α} {call : Nat} {answer : Answer α}
    (h : g.give? call answer = some g') :
    g.answer? call = none ∧ g'.labels = g.labels ∧
      ∀ c, g'.answer? c = if c = call then some answer else g.answer? c := by
  rw [give?] at h
  split at h
  · next label hcall =>
    cases h
    have hlt : call < g.calls.size := (Array.getElem?_eq_some_iff.mp hcall).1
    refine ⟨by simp [answer?, hcall], ?_, ?_⟩
    · rw [labels, labels, Array.toList_setIfInBounds]
      apply List.ext_getElem?
      intro k
      rw [List.getElem?_map, List.getElem?_set, List.getElem?_map]
      split
      · next hk =>
        subst hk
        rw [Array.getElem?_toList, hcall, if_pos (by simpa using hlt)]
        rfl
      · rfl
    · intro c
      rw [answer?, answer?, Array.getElem?_setIfInBounds]
      by_cases hc : c = call
      · subst hc
        simp [hlt]
      · rw [if_neg (Ne.symm hc), if_neg hc]
  · cases h

/-- Later calls come behind the earlier ones, and an answer that was given stays. -/
structure Grown (g g' : Gates α) : Prop where
  labels : g.labels <+: g'.labels
  answers : ∀ call answer, g.answer? call = some answer → g'.answer? call = some answer

theorem Grown.refl (g : Gates α) : Grown g g := ⟨List.prefix_rfl, fun _ _ h => h⟩

theorem Grown.trans {g₁ g₂ g₃ : Gates α} (h : Grown g₁ g₂) (h' : Grown g₂ g₃) : Grown g₁ g₃ :=
  ⟨h.labels.trans h'.labels, fun c a ha => h'.answers c a (h.answers c a ha)⟩

theorem Grown.getElem?_labels {g g' : Gates α} (h : Grown g g') {call : Nat} {label : String}
    (hlabel : g.labels[call]? = some label) : g'.labels[call]? = some label := by
  obtain ⟨more, hmore⟩ := h.labels
  rw [← hmore, List.getElem?_append_left (List.getElem?_eq_some_iff.mp hlabel).1, hlabel]

theorem grown_place (g : Gates α) (label : String) : Grown g (g.place label).2 := by
  refine ⟨?_, ?_⟩
  · rw [labels_place]
    exact List.prefix_append _ _
  · intro c a ha
    rw [answer?_place, ha]

theorem grown_give {g g' : Gates α} {call : Nat} {answer : Answer α}
    (h : g.give? call answer = some g') : Grown g g' := by
  obtain ⟨hnone, hlabels, hanswers⟩ := give?_spec h
  refine ⟨hlabels ▸ List.prefix_rfl, ?_⟩
  intro c a ha
  -- a call that has an answer is not the one that gets it now
  have hc : c ≠ call := by
    rintro rfl
    rw [hnone] at ha
    cases ha
  rw [hanswers, if_neg hc, ha]

end Gates

/-! ### What is asked -/

/-- Tasks that begin with something that is asked. -/
class Asking (κ : outParam Type) (τ : Type) where
  /-- the task of one who asks -/
  fresh : κ → τ

/-- What a task has come to when it was resumed. -/
def Fate.of : τ ⊕ ρ → Fate τ ρ
  | .inl task => .waiting task
  | .inr result => .finished result

theorem Fate.of_eq_waiting {next : τ ⊕ ρ} {task : τ} :
    Fate.of next = .waiting task ↔ next = .inl task := by
  cases next <;> simp [Fate.of]

namespace Bench

/-- A step in which the task is another one. -/
def Step.map (f : κ → τ) : Step κ α → Step τ α
  | .start id ask => .start id (f ask)
  | .resume i => .resume i
  | .give call answer => .give call answer
  | .drop i => .drop i

/-- What was asked in these steps, in the order of the starts. -/
def asked (steps : List (Step κ α)) : List κ :=
  steps.filterMap fun
    | .start _ ask => some ask
    | _ => none

/-- What has become of the tasks, in the order of their start. -/
def fates (b : Bench σ τ ρ α) : List (Fate τ ρ) := b.entries.toList.map Entry.fate

variable [Resumable σ τ ρ α] [Asking κ τ]

/-- Carries out one atomic step of those who ask. -/
def next (b : Bench σ τ ρ α) (step : Step κ α) : Bench σ τ ρ α :=
  (b.step (step.map Asking.fresh)).2

/-- The bench over a shared state, after these steps of those who ask. -/
def after (state : σ) (steps : List (Step κ α)) : Bench σ τ ρ α :=
  steps.foldl next (.empty state)

@[simp] theorem after_concat (state : σ) (steps : List (Step κ α)) (step : Step κ α) :
    (after state (steps ++ [step]) : Bench σ τ ρ α) = (after state steps).next step := by
  rw [after, List.foldl_concat]
  rfl

/-! ### Single steps -/

section Single

variable {b : Bench σ τ ρ α}

omit [Resumable σ τ ρ α] in
theorem fates_setFate (b : Bench σ τ ρ α) (i : Nat) (fate : Fate τ ρ) :
    (b.setFate i fate).fates = b.fates.set i fate := by
  apply List.ext_getElem?
  intro k
  simp only [fates, setFate, List.getElem?_map, List.getElem?_set, Array.getElem?_toList,
    Array.getElem?_modify, List.length_map, Array.length_toList]
  by_cases hik : i = k
  · subst hik
    by_cases hlt : i < b.entries.size
    · simp [hlt]
    · simp [hlt]
  · simp [hik]

theorem resume_waiting {i : Nat} {task : τ} (hi : b.fates[i]? = some (.waiting task)) {s : σ}
    {g : Gates α} {next : τ ⊕ ρ} (h : Resumable.resume b.state b.gates task = (s, g, next)) :
    (b.resume i).2 = { b with state := s, gates := g }.setFate i (.of next) := by
  rw [fates, List.getElem?_map, Array.getElem?_toList, Option.map_eq_some_iff] at hi
  obtain ⟨⟨id, fate⟩, hentry, rfl⟩ := hi
  simp only [Bench.resume, hentry, h]
  cases next <;> rfl

theorem resume_other {i : Nat} (hi : ∀ task, b.fates[i]? ≠ some (.waiting task)) :
    (b.resume i).2 = b := by
  simp only [Bench.resume]
  split
  · next id task hentry =>
    refine absurd ?_ (hi task)
    rw [fates, List.getElem?_map, Array.getElem?_toList, hentry]
    rfl
  · rfl

theorem drop_waiting {i : Nat} {task : τ} (hi : b.fates[i]? = some (.waiting task)) :
    b.drop i = { b with state := Resumable.abandon α b.state task }.setFate i .dropped := by
  rw [fates, List.getElem?_map, Array.getElem?_toList, Option.map_eq_some_iff] at hi
  obtain ⟨⟨id, fate⟩, hentry, rfl⟩ := hi
  simp only [Bench.drop, waiting?, hentry]

theorem drop_other {i : Nat} (hi : ∀ task, b.fates[i]? ≠ some (.waiting task)) :
    b.drop i = b := by
  have hnone : b.waiting? i = none := by
    simp only [waiting?]
    split
    · next id task hentry =>
      refine absurd ?_ (hi task)
      rw [fates, List.getElem?_map, Array.getElem?_toList, hentry]
      rfl
    · rfl
  simp only [Bench.drop, hnone]

theorem start_spec (id : Int) (task : τ) {s : σ} {g : Gates α} {next : τ ⊕ ρ}
    (h : Resumable.resume b.state b.gates task = (s, g, next)) :
    (b.start id task).2.state = s ∧ (b.start id task).2.gates = g ∧
      (b.start id task).2.fates = b.fates ++ [.of next] := by
  have hfates : ({ b with entries := b.entries.push ⟨id, .waiting task⟩ } : Bench σ τ ρ α).fates =
      b.fates ++ [.waiting task] := by
    simp [fates]
  have hlength : b.fates.length = b.entries.size := by simp [fates]
  have hstart := resume_waiting (i := b.entries.size)
    (b := { b with entries := b.entries.push ⟨id, .waiting task⟩ })
    (by rw [hfates, ← hlength, List.getElem?_concat_length]) h
  rw [Bench.start, hstart, fates_setFate]
  refine ⟨rfl, rfl, ?_⟩
  show List.set (fates { b with entries := b.entries.push ⟨id, .waiting task⟩ }) _ _ = _
  rw [hfates, ← hlength, List.set_append_right _ _ (Nat.le_refl _), Nat.sub_self]
  rfl

end Single

/-! ### Scenes -/

/-- What is asked, and what has become of the one who asked. -/
abbrev Card (κ τ ρ : Type) := κ × Fate τ ρ

/-- A shared state, the calls made over it, and a card for each task in the order of their start. -/
structure Scene (σ τ ρ κ α : Type) where
  state : σ
  gates : Gates α
  cards : List (Card κ τ ρ)

/-- Steps that find nothing to do: the task does not wait, or the call has its answer. -/
def Scene.Idle (x : Scene σ τ ρ κ α) : Step κ α → Prop
  | .start _ _ => False
  | .resume i | .drop i => ∀ ask task, x.cards[i]? ≠ some (ask, .waiting task)
  | .give call answer => x.gates.give? call answer = none

/-- What one step does. -/
inductive Scene.Goes : Scene σ τ ρ κ α → Step κ α → Scene σ τ ρ κ α → Prop where
  | start {x : Scene σ τ ρ κ α} {id : Int} {ask : κ} {s : σ} {g : Gates α} {next : τ ⊕ ρ}
      (hresume : Resumable.resume x.state x.gates (Asking.fresh ask : τ) = (s, g, next)) :
      Goes x (.start id ask) ⟨s, g, x.cards ++ [(ask, .of next)]⟩
  | resume {x : Scene σ τ ρ κ α} {i : Nat} {ask : κ} {task : τ} {s : σ} {g : Gates α}
      {next : τ ⊕ ρ} (hcard : x.cards[i]? = some (ask, .waiting task))
      (hresume : Resumable.resume x.state x.gates task = (s, g, next)) :
      Goes x (.resume i) ⟨s, g, x.cards.set i (ask, .of next)⟩
  | give {x : Scene σ τ ρ κ α} {call : Nat} {answer : Answer α} {g : Gates α}
      (hgive : x.gates.give? call answer = some g) :
      Goes x (.give call answer) { x with gates := g }
  | drop {x : Scene σ τ ρ κ α} {i : Nat} {ask : κ} {task : τ}
      (hcard : x.cards[i]? = some (ask, .waiting task)) :
      Goes x (.drop i) ⟨Resumable.abandon α x.state task, x.gates, x.cards.set i (ask, .dropped)⟩
  | idle {x : Scene σ τ ρ κ α} {step : Step κ α} (hidle : x.Idle step) : Goes x step x

/-- The scene of a bench, beside what its tasks ask. -/
def sceneWith (b : Bench σ τ ρ α) (asks : List κ) : Scene σ τ ρ κ α :=
  ⟨b.state, b.gates, asks.zip b.fates⟩

/-- The scene after these steps. -/
def scene (state : σ) (steps : List (Step κ α)) : Scene σ τ ρ κ α :=
  (after state steps : Bench σ τ ρ α).sceneWith (asked steps)

/-! ### What is asked and what has become of it -/

omit [Resumable σ τ ρ α] [Asking κ τ] in
theorem asked_concat (steps : List (Step κ α)) (step : Step κ α) :
    asked (steps ++ [step]) = asked steps ++ asked [step] :=
  List.filterMap_append

omit [Resumable σ τ ρ α] [Asking κ τ] in
theorem zip_set_right {asks : List κ} {fates : List (Fate τ ρ)} {i : Nat} {ask : κ}
    (hask : asks[i]? = some ask) (fate : Fate τ ρ) :
    asks.zip (fates.set i fate) = (asks.zip fates).set i (ask, fate) := by
  induction asks generalizing fates i with
  | nil => simp at hask
  | cons a asks ih =>
    cases fates with
    | nil => simp
    | cons f fates =>
      cases i with
      | zero =>
        rw [List.getElem?_cons_zero] at hask
        cases hask
        rfl
      | succ i =>
        rw [List.getElem?_cons_succ] at hask
        rw [List.set_cons_succ, List.zip_cons_cons, List.zip_cons_cons, List.set_cons_succ, ih hask]

omit [Resumable σ τ ρ α] [Asking κ τ] in
theorem sceneWith_setFate {b : Bench σ τ ρ α} {asks : List κ} {i : Nat} {ask : κ}
    (hask : asks[i]? = some ask) (fate : Fate τ ρ) :
    (b.setFate i fate).sceneWith asks =
      ⟨b.state, b.gates, (asks.zip b.fates).set i (ask, fate)⟩ := by
  rw [sceneWith, fates_setFate, zip_set_right hask]
  rfl

/-- One step of a bench beside what was asked so far: there stays a card for each task. -/
theorem next_goes {b : Bench σ τ ρ α} {asks : List κ} (hlength : asks.length = b.fates.length)
    (step : Step κ α) :
    Scene.Goes (b.sceneWith asks) step ((b.next step).sceneWith (asks ++ asked [step])) ∧
      (asks ++ asked [step]).length = (b.next step).fates.length := by
  -- there is no task for which nothing was asked
  have hask : ∀ {i : Nat} {fate : Fate τ ρ}, b.fates[i]? = some fate →
      ∃ ask, asks[i]? = some ask := fun hi =>
    ⟨_, List.getElem?_eq_getElem (hlength ▸ (List.getElem?_eq_some_iff.mp hi).1)⟩
  cases step with
  | start id ask =>
    obtain ⟨hstate, hgates, hfates⟩ := start_spec (b := b) id (Asking.fresh ask) rfl
    show Scene.Goes _ _ ((b.start id _).2.sceneWith (asks ++ [ask])) ∧
      (asks ++ [ask]).length = (b.start id _).2.fates.length
    rw [sceneWith, sceneWith, hstate, hgates, hfates, List.zip_append hlength, List.length_append,
      List.length_append, hlength]
    exact ⟨.start rfl, rfl⟩
  | resume i =>
    show Scene.Goes _ _ ((b.resume i).2.sceneWith (asks ++ [])) ∧
      (asks ++ []).length = (b.resume i).2.fates.length
    rw [List.append_nil]
    by_cases hi : ∃ task, b.fates[i]? = some (.waiting task)
    · obtain ⟨task, hi⟩ := hi
      obtain ⟨ask, hask⟩ := hask hi
      rw [resume_waiting hi rfl, sceneWith_setFate hask, fates_setFate, List.length_set]
      exact ⟨.resume (List.getElem?_zip_eq_some.mpr ⟨hask, hi⟩) rfl, hlength⟩
    · rw [resume_other fun task h => hi ⟨task, h⟩]
      exact ⟨.idle fun ask task h => hi ⟨task, (List.getElem?_zip_eq_some.mp h).2⟩, hlength⟩
  | give call answer =>
    show Scene.Goes _ _ (((b.give? call answer).getD b).sceneWith (asks ++ [])) ∧
      (asks ++ []).length = ((b.give? call answer).getD b).fates.length
    rw [List.append_nil, Bench.give?]
    cases hgive : b.gates.give? call answer with
    | none => exact ⟨.idle hgive, hlength⟩
    | some gates => exact ⟨.give hgive, hlength⟩
  | drop i =>
    show Scene.Goes _ _ ((b.drop i).sceneWith (asks ++ [])) ∧
      (asks ++ []).length = (b.drop i).fates.length
    rw [List.append_nil]
    by_cases hi : ∃ task, b.fates[i]? = some (.waiting task)
    · obtain ⟨task, hi⟩ := hi
      obtain ⟨ask, hask⟩ := hask hi
      rw [drop_waiting hi, sceneWith_setFate hask, fates_setFate, List.length_set]
      exact ⟨.drop (List.getElem?_zip_eq_some.mpr ⟨hask, hi⟩), hlength⟩
    · rw [drop_other fun task h => hi ⟨task, h⟩]
      exact ⟨.idle fun ask task h => hi ⟨task, (List.getElem?_zip_eq_some.mp h).2⟩, hlength⟩

/-- There is a card for each task. -/
theorem length_asked (state : σ) (steps : List (Step κ α)) :
    (asked steps).length = (after state steps : Bench σ τ ρ α).fates.length := by
  induction steps using List.reverseRecOn with
  | nil => rfl
  | append_singleton steps step ih =>
    rw [after_concat, asked_concat]
    exact (next_goes ih step).2

/-- **Each step of a run** does what `Scene.Goes` says. -/
theorem scene_goes (state : σ) (steps : List (Step κ α)) (step : Step κ α) :
    Scene.Goes (scene state steps : Scene σ τ ρ κ α) step (scene state (steps ++ [step])) := by
  rw [scene, scene, after_concat, asked_concat]
  exact (next_goes (length_asked state steps) step).1

/-- What holds of the scene after some steps, and stays along every further step of the run, holds
after all of them. -/
theorem run_induction {state : σ} (P : List (Step κ α) → Scene σ τ ρ κ α → Prop)
    (before : List (Step κ α)) (hbefore : P before (scene state before))
    (hstep : ∀ steps step, P steps (scene state steps) →
      P (steps ++ [step]) (scene state (steps ++ [step]))) (later : List (Step κ α)) :
    P (before ++ later) (scene state (before ++ later)) := by
  -- a run grows at its end
  induction later using List.reverseRecOn with
  | nil => rwa [List.append_nil]
  | append_singleton later step ih =>
    rw [← List.append_assoc]
    exact hstep _ _ ih

/-- A card says what is asked and what has become of it. -/
theorem getElem?_cards {state : σ} {steps : List (Step κ α)} {i : Nat} {card : Card κ τ ρ} :
    (scene state steps : Scene σ τ ρ κ α).cards[i]? = some card ↔
      (asked steps)[i]? = some card.1 ∧
        (after state steps : Bench σ τ ρ α).fates[i]? = some card.2 :=
  List.getElem?_zip_eq_some

theorem getElem?_fates {state : σ} {steps : List (Step κ α)} {i : Nat} {ask : κ}
    (hask : (asked steps)[i]? = some ask) {fate : Fate τ ρ} :
    (after state steps : Bench σ τ ρ α).fates[i]? = some fate ↔
      (scene state steps : Scene σ τ ρ κ α).cards[i]? = some (ask, fate) := by
  rw [getElem?_cards]
  exact (and_iff_right hask).symm

theorem length_cards (state : σ) (steps : List (Step κ α)) :
    (scene state steps : Scene σ τ ρ κ α).cards.length =
      (after state steps : Bench σ τ ρ α).fates.length := by
  show ((asked steps).zip _).length = _
  rw [List.length_zip, ← length_asked, Nat.min_self]

theorem map_fst_cards (state : σ) (steps : List (Step κ α)) :
    (scene state steps : Scene σ τ ρ κ α).cards.map Prod.fst = asked steps :=
  List.map_fst_zip (Nat.le_of_eq (length_asked state steps))

theorem map_snd_cards (state : σ) (steps : List (Step κ α)) :
    (scene state steps : Scene σ τ ρ κ α).cards.map Prod.snd =
      (after state steps : Bench σ τ ρ α).fates :=
  List.map_snd_zip (Nat.le_of_eq (length_asked state steps).symm)

/-! ### What stays along a run -/

/-- How the task at place `i` fares in a step: nothing becomes of it, unless it waits and is resumed
or dropped. -/
inductive Scene.Fares (x : Scene σ τ ρ κ α) (step : Step κ α) (y : Scene σ τ ρ κ α) (i : Nat) :
    Fate τ ρ → Fate τ ρ → Prop where
  | stays {fate : Fate τ ρ} (hother : step = .resume i → ∀ task, fate ≠ .waiting task) :
      Fares x step y i fate fate
  | turns {task : τ} {next : τ ⊕ ρ} (hstep : step = .resume i)
      (hresume : Resumable.resume x.state x.gates task = (y.state, y.gates, next)) :
      Fares x step y i (.waiting task) (.of next)
  | dropped {task : τ} (hstep : step = .drop i) : Fares x step y i (.waiting task) .dropped

namespace Scene.Goes

variable {x y : Scene σ τ ρ κ α} {step : Step κ α} {i : Nat} {ask : κ} {fate : Fate τ ρ}

/-- **A task keeps its place** and what it asks, however it fares. -/
theorem fares (h : Goes x step y) (hi : x.cards[i]? = some (ask, fate)) :
    ∃ fate', y.cards[i]? = some (ask, fate') ∧ Fares x step y i fate fate' := by
  have hlt : i < x.cards.length := (List.getElem?_eq_some_iff.mp hi).1
  cases h with
  | start hresume =>
    refine ⟨fate, ?_, .stays nofun⟩
    rw [List.getElem?_append_left hlt, hi]
  | @resume j ask' task s g next hcard hresume =>
    by_cases hij : j = i
    · subst hij
      rw [hi] at hcard
      cases hcard
      exact ⟨.of next, List.getElem?_set_self hlt, .turns rfl hresume⟩
    · refine ⟨fate, by rw [List.getElem?_set_ne hij, hi], .stays ?_⟩
      rintro ⟨⟩
      exact absurd rfl hij
  | give hgive => exact ⟨fate, hi, .stays nofun⟩
  | @drop j ask' task hcard =>
    by_cases hij : j = i
    · subst hij
      rw [hi] at hcard
      cases hcard
      exact ⟨.dropped, List.getElem?_set_self hlt, .dropped rfl⟩
    · exact ⟨fate, by rw [List.getElem?_set_ne hij, hi], .stays nofun⟩
  | idle hidle =>
    refine ⟨fate, hi, .stays ?_⟩
    rintro rfl task rfl
    exact hidle ask task hi

/-- Whatever stands at a place after a step stood there before, unless it began in that step. -/
theorem came (h : Goes x step y) {fate' : Fate τ ρ} (hi : y.cards[i]? = some (ask, fate')) :
    (∃ fate, x.cards[i]? = some (ask, fate) ∧ Fares x step y i fate fate') ∨
      ∃ id next, step = .start id ask ∧ i = x.cards.length ∧ fate' = .of next ∧
        Resumable.resume x.state x.gates (Asking.fresh ask : τ) = (y.state, y.gates, next) := by
  by_cases hlt : i < x.cards.length
  · have hold : x.cards[i]? = some x.cards[i] := List.getElem?_eq_getElem hlt
    obtain ⟨fate'', hnew, hfares⟩ := h.fares hold
    rw [hi] at hnew
    cases hnew
    exact .inl ⟨_, hold, hfares⟩
  · -- only a start adds a place
    have hge : x.cards.length ≤ i := Nat.le_of_not_lt hlt
    cases h with
    | @start id ask' s g next hresume =>
      rw [List.getElem?_append_right hge] at hi
      cases List.mem_singleton.mp (List.mem_of_getElem? hi)
      have hzero : i - x.cards.length < 1 := (List.getElem?_eq_some_iff.mp hi).1
      exact .inr ⟨id, next, rfl, by omega, rfl, hresume⟩
    | resume hcard hresume | drop hcard =>
      rw [List.getElem?_eq_none (by rwa [List.length_set])] at hi
      cases hi
    | give hgive | idle hidle =>
      rw [List.getElem?_eq_none hge] at hi
      cases hi

/-- A step that finds nothing to do changes nothing. -/
theorem eq_of_idle (h : Goes x step y) (hidle : x.Idle step) : y = x := by
  cases h with
  | start hresume => exact hidle.elim
  | resume hcard hresume | drop hcard => exact absurd hcard (hidle _ _)
  | give hgive =>
    rw [Scene.Idle, hgive] at hidle
    cases hidle
  | idle _ => rfl

/-- Where no turn of a task takes back a call or an answer, no step does. -/
theorem grown (h : Goes x step y)
    (hturn : ∀ (s : σ) (g : Gates α) (task : τ), g.Grown (Resumable.resume s g task).2.1) :
    x.gates.Grown y.gates := by
  cases h with
  | @start id ask s g next hresume =>
    have hgrown := hturn x.state x.gates (Asking.fresh ask)
    rwa [hresume] at hgrown
  | @resume i ask task s g next hcard hresume =>
    have hgrown := hturn x.state x.gates task
    rwa [hresume] at hgrown
  | give hgive => exact Gates.grown_give hgive
  | drop hcard | idle hidle => exact .refl _

end Scene.Goes

end Bench

end RingCache

import Mathlib.Tactic.Common
import RingCache.Flight.Caller
import RingCache.Proofs.Flight.Crew

/-!
# Callers share one load

Callers are a crew (`Caller.crew`), so what is known of every crew is known of them. Beyond that, a
leader makes one call and comes to the answer of that call.
-/

namespace RingCache.Flights.Caller

open Bench

variable {α : Type}

/-- What a caller asks with. -/
structure Ask (α : Type) where
  key : String
  /-- the answer of its load where that comes at once -/
  instant : Option (Answer α)
  tellsShared : Bool

instance : Asking (Ask α) (Caller α) := ⟨fun a => .fresh a.key a.instant a.tellsShared⟩

/-! ### Single turns -/

/-- The role that a caller plays once it has asked. -/
def role : Caller α → Option Role
  | .fresh _ _ _ => none
  | .leading ticket _ _ => some (.leader ticket)
  | .waiting ticket _ => some (.waiter ticket)

/-- A caller that waits for an answer to what was asked. -/
inductive Suits (a : Ask α) : Caller α → Prop where
  | leading (ticket call : Nat) : Suits a (.leading ticket call a.tellsShared)
  | waiting (ticket : Nat) : Suits a (.waiting ticket a.tellsShared)

variable {f : Flights α} {g : Gates α} {key : String} {instant : Option (Answer α)}
  {tellsShared : Bool} {ticket : Nat}

/-- The first turn of a caller whose key is free. -/
theorem resume_lead (h : f.live.lookup key = none) :
    resume f g (.fresh key instant tellsShared) =
      match instant with
      | some outcome => ((f.board key).land f.phases.size outcome, (g.place key).2,
          .inr (result outcome false tellsShared))
      | none => (f.board key, (g.place key).2,
          .inl (.leading f.phases.size g.calls.size tellsShared)) := by
  simp only [resume, join_of_none h]
  cases instant <;> rfl

/-- The first turn of a caller whose key is being loaded. -/
theorem resume_join (h : f.live.lookup key = some ticket) :
    resume f g (.fresh key instant tellsShared) = (f, g, await f ticket tellsShared) := by
  simp only [resume, join_of_some h]

theorem grown_resume (f : Flights α) (g : Gates α) (caller : Caller α) :
    g.Grown (resume f g caller).2.1 := by
  cases caller with
  | fresh key instant tellsShared =>
    cases hkey : f.live.lookup key with
    | none =>
      rw [resume_lead hkey]
      cases instant <;> exact Gates.grown_place g key
    | some ticket =>
      rw [resume_join hkey]
      exact .refl g
  | leading ticket call tellsShared =>
    simp only [resume]
    cases g.answer? call <;> exact .refl g
  | waiting ticket tellsShared => exact .refl g

/-- How callers take part in flights. -/
def crew : Crew (Flights α) (Caller α) (Result α) (Ask α) α where
  key := Ask.key
  role := role
  tell a shared outcome := result outcome shared a.tellsShared
  suits := Suits
  flights := id
  served _ _ := False
  plays_role := by
    rintro ask task (⟨ticket, call⟩ | ⟨ticket⟩)
    · exact ⟨_, rfl⟩
    · exact ⟨_, rfl⟩
  begins := by
    intro f g ask f' g' next hf hresume
    change resume f g (.fresh ask.key ask.instant ask.tellsShared) = _ at hresume
    cases hkey : f.live.lookup ask.key with
    | none =>
      rw [resume_lead hkey] at hresume
      cases hinstant : ask.instant with
      | none =>
        rw [hinstant] at hresume
        cases hresume
        exact ⟨_, .lead hkey, .plays (.leading _ _) rfl, nofun, nofun⟩
      | some outcome =>
        rw [hinstant] at hresume
        cases hresume
        exact ⟨_, .atOnce hkey outcome, .told false outcome, nofun, nofun⟩
    | some ticket =>
      -- a live flight has no outcome, so that nobody is told one at once
      have hnone : f.outcome? ticket = none := hf.outcome?_live (hf.lookup_eq_some.mp hkey)
      rw [resume_join hkey, await, hnone] at hresume
      cases hresume
      exact ⟨_, .follow hkey, .plays (.waiting _) rfl, nofun, nofun⟩
  turns := by
    intro f g ask task r f' g' next _ hsuits hrole hresume
    change resume f g task = _ at hresume
    cases hsuits with
    | leading ticket call =>
      cases hrole
      simp only [resume] at hresume
      cases hanswer : g.answer? call with
      | none =>
        rw [hanswer] at hresume
        cases hresume
        exact ⟨_, .fly ticket, .plays (.leading _ _) rfl⟩
      | some outcome =>
        rw [hanswer] at hresume
        cases hresume
        exact ⟨_, .land ticket outcome, .told false outcome⟩
    | waiting ticket =>
      cases hrole
      simp only [resume, await] at hresume
      cases houtcome : f.outcome? ticket with
      | none =>
        rw [houtcome] at hresume
        cases hresume
        exact ⟨_, .wait houtcome, .plays (.waiting _) rfl⟩
      | some outcome =>
        rw [houtcome] at hresume
        cases hresume
        exact ⟨_, .share houtcome, .told true outcome⟩
  leaves := by
    intro ask task r f hsuits hrole
    cases hsuits with
    | leading ticket call =>
      cases hrole
      exact .lose ticket
    | waiting ticket =>
      cases hrole
      exact .leave ticket

/-! ### Calls -/

/-- The scene of callers. -/
abbrev View (α : Type) := Scene (Flights α) (Caller α) (Result α) (Ask α) α

variable {x y : View α} {step : Step (Ask α) α} {ask : Ask α} {i : Nat}

theorem gates_lead {id : Int} (h : x.Goes (.start id ask) y)
    (hkey : x.state.live.lookup ask.key = none) : y.gates = (x.gates.place ask.key).2 := by
  cases h with
  | idle hidle => exact hidle.elim
  | start hresume =>
    change resume x.state x.gates (.fresh ask.key ask.instant ask.tellsShared) = _ at hresume
    rw [resume_lead hkey] at hresume
    cases hinstant : ask.instant <;> rw [hinstant] at hresume <;> cases hresume <;> rfl

theorem gates_join {id : Int} (h : x.Goes (.start id ask) y) {ticket : Nat}
    (hkey : x.state.live.lookup ask.key = some ticket) : y.gates = x.gates := by
  cases h with
  | idle hidle => exact hidle.elim
  | start hresume =>
    change resume x.state x.gates (.fresh ask.key ask.instant ask.tellsShared) = _ at hresume
    rw [resume_join hkey] at hresume
    cases hresume
    rfl

/-- Only a first turn makes a call. -/
theorem labels_other (hx : crew.Manned x) (h : x.Goes step y)
    (hstep : ∀ id ask, step ≠ .start id ask) : y.gates.labels = x.gates.labels := by
  cases h with
  | start hresume => exact absurd rfl (hstep _ _)
  | @resume i ask task f g next hcard hresume =>
    change resume x.state x.gates task = _ at hresume
    cases hx.suits _ _ _ hcard with
    | leading ticket call =>
      simp only [resume] at hresume
      cases hanswer : x.gates.answer? call <;> rw [hanswer] at hresume <;> cases hresume <;> rfl
    | waiting ticket =>
      cases hresume
      rfl
  | give hgive => exact (Gates.give?_spec hgive).2.1
  | drop hcard | idle hidle => rfl

/-- How one fares whose own load is the call `call`. -/
inductive Owns (g : Gates α) (a : Ask α) (call : Nat) : Fate (Caller α) (Result α) → Prop where
  | loading (ticket : Nat) (hinstant : a.instant = none) :
      Owns g a call (.waiting (.leading ticket call a.tellsShared))
  | loaded {outcome : Answer α} (houtcome : a.instant.or (g.answer? call) = some outcome) :
      Owns g a call (.finished (result outcome false a.tellsShared))
  | dropped : Owns g a call .dropped

theorem Owns.grown {g' : Gates α} {call : Nat} {fate : Fate (Caller α) (Result α)}
    (h : Owns g ask call fate) (hg : g.Grown g') : Owns g' ask call fate := by
  cases h with
  | loading ticket hinstant => exact .loading ticket hinstant
  | @loaded outcome houtcome =>
    refine .loaded ?_
    cases hinstant : ask.instant with
    | none =>
      rw [hinstant, Option.none_or] at houtcome
      rw [Option.none_or, hg.answers _ _ houtcome]
    | some o => rwa [hinstant] at houtcome
  | dropped => exact .dropped

/-- A leader comes to the answer of the call that it made. -/
theorem owns_goes (h : x.Goes step y) {call : Nat}
    (hi : ∃ fate, x.cards[i]? = some (ask, fate) ∧ Owns x.gates ask call fate) :
    ∃ fate, y.cards[i]? = some (ask, fate) ∧ Owns y.gates ask call fate := by
  obtain ⟨fate, hfate, howns⟩ := hi
  obtain ⟨fate', hfate', hfares⟩ := h.fares hfate
  refine ⟨fate', hfate', ?_⟩
  cases hfares with
  | stays hother => exact howns.grown (h.grown grown_resume)
  | turns hstep hresume =>
    cases howns with
    | loading ticket hinstant =>
      change resume x.state x.gates _ = _ at hresume
      generalize y.state = f, y.gates = g at hresume ⊢
      simp only [resume] at hresume
      cases hanswer : x.gates.answer? call with
      | none =>
        rw [hanswer] at hresume
        cases hresume
        exact .loading ticket hinstant
      | some outcome =>
        rw [hanswer] at hresume
        cases hresume
        exact .loaded (by rw [hinstant, Option.none_or, hanswer])
  | dropped hstep => exact .dropped

theorem owns_lead {id : Int} (h : x.Goes (.start id ask) y)
    (hkey : x.state.live.lookup ask.key = none) :
    ∃ fate, y.cards[x.cards.length]? = some (ask, fate) ∧
      Owns y.gates ask x.gates.calls.size fate := by
  cases h with
  | idle hidle => exact hidle.elim
  | start hresume =>
    change resume x.state x.gates (.fresh ask.key ask.instant ask.tellsShared) = _ at hresume
    rw [resume_lead hkey] at hresume
    refine ⟨_, List.getElem?_concat_length, ?_⟩
    cases hinstant : ask.instant with
    | none =>
      rw [hinstant] at hresume
      cases hresume
      exact .loading _ hinstant
    | some outcome =>
      rw [hinstant] at hresume
      cases hresume
      exact .loaded (by rw [hinstant, Option.some_or])

/-! ### Runs of callers -/

/-- The bench after these steps of callers. -/
abbrev benchAfter (steps : List (Step (Ask α) α)) : Bench (Flights α) (Caller α) (Result α) α :=
  after .empty steps

/-- The scene after these steps of callers. -/
abbrev view (steps : List (Step (Ask α) α)) : View α := scene .empty steps

theorem manned (steps : List (Step (Ask α) α)) : crew.Manned (view steps) :=
  Crew.manned rfl steps

/-- After these steps the caller at place `i`, who asked for `key`, leads a flight. -/
def Leads (steps : List (Step (Ask α) α)) (key : String) (i : Nat) : Prop :=
  ∃ ask ticket call tells, (asked steps)[i]? = some ask ∧ ask.key = key ∧
    (benchAfter steps).fates[i]? = some (.waiting (.leading ticket call tells))

theorem leads_iff {steps : List (Step (Ask α) α)} {key : String} :
    Leads steps key i ↔ ∃ ticket, crew.Leads (view steps) i key ticket := by
  constructor
  · rintro ⟨ask, ticket, call, tells, hask, hkey, hfate⟩
    have hlead : crew.Leads (view steps) i (crew.key ask) ticket :=
      Parts.leads_of_role (getElem?_cards.mpr ⟨hask, hfate⟩) rfl
    exact ⟨ticket, hkey ▸ hlead⟩
  · rintro ⟨ticket, hlead⟩
    obtain ⟨card, hcard, hflight⟩ := Option.bind_eq_some_iff.mp hlead
    obtain ⟨ask, task, rfl, hrole, hkey⟩ := Parts.flight_eq_some.mp hflight
    obtain ⟨hask, hfate⟩ := getElem?_cards.mp hcard
    cases task with
    | leading t call tells => exact ⟨ask, t, call, tells, hask, hkey, hfate⟩
    | fresh key instant tells | waiting t tells => cases hrole

/-- Whether a caller leads a flight. -/
def isLeader : Fate (Caller α) (Result α) → Bool
  | .waiting (.leading _ _ _) => true
  | _ => false

theorem inFlight_eq (steps : List (Step (Ask α) α)) :
    (benchAfter steps).state.inFlight = (benchAfter steps).fates.countP isLeader := by
  rw [← map_snd_cards, List.countP_map]
  refine (manned steps).inFlight_eq.trans (List.countP_congr ?_)
  intro card _
  obtain ⟨ask, fate⟩ := card
  rcases fate with ⟨_ | _ | _⟩ | _ | _ <;> rfl

/-- What was asked in the calls that were made so far. -/
def labelsAfter (steps : List (Step (Ask α) α)) : List String := (benchAfter steps).gates.labels

/-- The caller at place `i` can come only to the outcome of its own load, the call `call`. -/
def LoadsItself (steps : List (Step (Ask α) α)) (i call : Nat) (ask : Ask α) : Prop :=
  ∀ r, (benchAfter steps).fates[i]? = some (.finished r) →
    ∃ outcome, ask.instant.or ((benchAfter steps).gates.answer? call) = some outcome ∧
      r = result outcome false ask.tellsShared

/-- The caller at place `i` depends on the one at place `j`. -/
structure DependsOn (steps : List (Step (Ask α) α)) (i j : Nat) (ask : Ask α) : Prop where
  /-- if it has come to a result, its leader came to the same outcome, or was dropped -/
  tells : ∀ r, (benchAfter steps).fates[i]? = some (.finished r) →
    (∃ r', (benchAfter steps).fates[j]? = some (.finished r') ∧
        r = result r'.outcome true ask.tellsShared) ∨
      ((benchAfter steps).fates[j]? = some .dropped ∧
        r = result (.error abandoned) true ask.tellsShared)
  /-- if it waits, its next turn is its last just if its leader has come to its end -/
  ends : ∀ task, (benchAfter steps).fates[i]? = some (.waiting task) →
    ((∃ r, (benchAfter (steps ++ [.resume i])).fates[i]? = some (.finished r)) ↔
      ∀ task', (benchAfter steps).fates[j]? ≠ some (.waiting task'))

theorem loadsItself_of_free {before later : List (Step (Ask α) α)} {id : Int}
    (hkey : (benchAfter before).state.live.lookup ask.key = none) :
    LoadsItself (before ++ .start id ask :: later) (benchAfter before).fates.length
      (benchAfter before).gates.calls.size ask := by
  have hstart := owns_lead (scene_goes empty before (.start id ask)) hkey
  obtain ⟨fate, hcard, howns⟩ := run_induction (fun _ x => ∃ fate,
      x.cards[(benchAfter before).fates.length]? = some (ask, fate) ∧
        Owns x.gates ask (benchAfter before).gates.calls.size fate)
    (before ++ [.start id ask]) (by rwa [length_cards] at hstart)
    (fun steps step hi => owns_goes (scene_goes empty steps step) hi) later
  rw [List.append_assoc, List.singleton_append] at hcard howns
  intro r hr
  rw [(getElem?_cards.mp hcard).2] at hr
  cases hr
  cases howns with
  | loaded houtcome => exact ⟨_, houtcome, rfl⟩

/-- Whoever joined a flight depends on the one who began it. -/
theorem dependsOn_of_bonds {steps : List (Step (Ask α) α)} {j ticket : Nat} {ask' : Ask α}
    (hheads : crew.HeadsAt (view steps) j ask' ticket)
    (hfollows : crew.FollowsAt (view steps) i ask ticket) : DependsOn steps i j ask := by
  obtain ⟨fate', hcard', hhead⟩ := hheads
  obtain ⟨fate, hcard, hfollow⟩ := hfollows
  obtain ⟨hask', hfate'⟩ := getElem?_cards.mp hcard'
  obtain ⟨hask, hfate⟩ := getElem?_cards.mp hcard
  refine ⟨?_, ?_⟩
  · intro r hr
    rw [hfate] at hr
    cases hr
    rw [hfate']
    rcases hfollow.told hhead with ⟨outcome, hended, hr⟩ | ⟨hended, hr⟩
    · exact .inl ⟨_, congrArg some hended, hr⟩
    · exact .inr ⟨congrArg some hended, hr⟩
  · intro task htask
    have hwaits : (view steps).cards[i]? = some (ask, .waiting task) :=
      (getElem?_fates hask).mp htask
    -- the turn asks for nothing new
    have hasked : (asked (steps ++ [.resume i]))[i]? = some ask := by
      rw [asked_concat]
      exact (congrArg (·[i]?) (List.append_nil _)).trans hask
    have hends := (manned steps).ends_iff (scene_goes empty steps (.resume i))
      ⟨fate', hcard', hhead⟩ ⟨fate, hcard, hfollow⟩ hwaits
    constructor
    · rintro ⟨r, hr⟩ task' htask'
      exact hends.mp ⟨r, (getElem?_fates hasked).mp hr⟩ task' ((getElem?_fates hask').mp htask')
    · intro hended
      obtain ⟨r, hr⟩ := hends.mpr fun task' h => hended task' ((getElem?_fates hask').mpr h)
      exact ⟨r, (getElem?_fates hasked).mpr hr⟩

theorem dependsOn_of_leads {before later : List (Step (Ask α) α)} {id : Int} {j : Nat}
    (hj : Leads before ask.key j) :
    DependsOn (before ++ .start id ask :: later) (benchAfter before).fates.length j ask := by
  have hx := manned before
  obtain ⟨ticket, hlead⟩ := leads_iff.mp hj
  obtain ⟨ask', -, hheads⟩ := hx.headsAt hlead
  -- the new caller follows that leader
  have hfollows : crew.FollowsAt (view (before ++ [.start id ask]))
      (benchAfter before).fates.length ask ticket := by
    have hbegun := hx.begun (scene_goes empty before (.start id ask)) not_false
    rw [length_cards] at hbegun
    have hlookup : (crew.flights (view before).state).live.lookup (crew.key ask) = some ticket :=
      hx.lookup_eq_some.mpr ⟨j, hlead⟩
    rcases hbegun with ⟨hfree, -⟩ | ⟨j', t, hlead', hfollows⟩
    · rw [hlookup] at hfree
      cases hfree
    · rw [hx.lookup_eq_some.mpr ⟨j', hlead'⟩] at hlookup
      cases hlookup
      exact hfollows
  have hheads := Crew.headsAt_after rfl hheads (.start id ask :: later)
  have hfollows := Crew.followsAt_after rfl hfollows later
  rw [List.append_assoc, List.singleton_append] at hfollows
  exact dependsOn_of_bonds hheads hfollows

/-- **Callers share one load.** At every point of every run of callers, whatever they ask for and in
whatever order they are started, resumed, answered and dropped:

* each key has at most one leader, and so many keys are being loaded as there are leaders;
* only a first turn makes a call, one for its key, just if nobody leads that key;
* who made a call comes to no other outcome than that of its own load;
* anybody else depends on the one leader that its key had at its first turn. -/
theorem callers_share (steps : List (Step (Ask α) α)) :
    (∀ key i j, Leads steps key i → Leads steps key j → i = j) ∧
      (benchAfter steps).state.inFlight = (benchAfter steps).fates.countP isLeader ∧
      (∀ step, (∀ id ask, step ≠ .start id ask) →
        labelsAfter (steps ++ [step]) = labelsAfter steps) ∧
      ∀ before id ask later, steps = before ++ .start id ask :: later →
        ((∀ j, ¬ Leads before ask.key j) →
          labelsAfter (before ++ [.start id ask]) = labelsAfter before ++ [ask.key] ∧
          LoadsItself steps (benchAfter before).fates.length
            (benchAfter before).gates.calls.size ask) ∧
        ∀ j, Leads before ask.key j →
          labelsAfter (before ++ [.start id ask]) = labelsAfter before ∧
          DependsOn steps (benchAfter before).fates.length j ask := by
  refine ⟨?_, inFlight_eq steps, ?_, ?_⟩
  · intro key i j hi hj
    obtain ⟨t, hi⟩ := leads_iff.mp hi
    obtain ⟨u, hj⟩ := leads_iff.mp hj
    exact (manned steps).leader_unique hi hj
  · intro step hstep
    exact labels_other (manned steps) (scene_goes empty steps step) hstep
  · rintro before id ask later rfl
    have hx := manned before
    have hgoes := scene_goes (τ := Caller α) (empty : Flights α) before (.start id ask)
    refine ⟨?_, fun j hj => ⟨?_, dependsOn_of_leads hj⟩⟩
    · intro hfree
      have hkey : (benchAfter before).state.live.lookup ask.key = none := by
        cases hlookup : (benchAfter before).state.live.lookup ask.key with
        | none => rfl
        | some ticket =>
          obtain ⟨j, hj⟩ := hx.lookup_eq_some.mp hlookup
          exact absurd (leads_iff.mpr ⟨ticket, hj⟩) (hfree j)
      refine ⟨?_, loadsItself_of_free hkey⟩
      exact (congrArg Gates.labels (gates_lead hgoes hkey)).trans (Gates.labels_place _ _)
    · obtain ⟨ticket, hlead⟩ := leads_iff.mp hj
      exact congrArg Gates.labels (gates_join hgoes (hx.lookup_eq_some.mpr ⟨j, hlead⟩))

/-- A leader that is dropped while another caller waits for it. -/
example : (benchAfter [.start 0 ⟨"k", none, true⟩, .start 1 ⟨"k", none, true⟩, .drop 0, .resume 1] :
      Bench (Flights Value) (Caller Value) (Result Value) Value).fates =
    [.dropped, .finished ⟨.error abandoned, some true⟩] := rfl

end RingCache.Flights.Caller

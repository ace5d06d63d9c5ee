import Mathlib.Tactic.Common
import RingCache.Proofs.Cluster.Answers

/-!
# Which key a query asks for

A query may have several fields `key`. The front end goes through them in order and takes the first
one whose value is a text; only if there is none, it asks for a key (`first_text_counts`). So a value
whose bytes are no text is not an answer to the question, it is as if the field were missing: the
field behind it counts (`unreadable_value_skipped`). The first field alone decides just in case its
value is a text, or no later one is.
-/

namespace RingCache.Cluster

open Text.Form

variable {c : Cluster} {i : Nat} {group query key : String}

/-- A request to the front end for a value, with a query. -/
def asking (query : String) : Http.Request := ⟨"GET", ⟨"/api", some query⟩⟩

theorem route_asking (h : field? "key" query = some key) :
    FrontEnd.route (asking query) = .value key := by
  simp only [FrontEnd.route, asking, Http.Request.isGet, Option.bind_some, h]
  rfl

theorem route_asking_missing (h : field? "key" query = none) :
    FrontEnd.route (asking query) = .keyMissing := by
  simp only [FrontEnd.route, asking, Http.Request.isGet, Option.bind_some, h]
  rfl

/-- A query that asks for a key is answered by one look-up of this key. -/
theorem frontEnd_asking (h : field? "key" query = some key) :
    c.frontEnd i group (asking query) =
      (FrontEnd.answer (c.get i group key).1, (c.get i group key).2) := by
  simp only [frontEnd, route_asking h]

/-- A query that asks for no key leaves everything as it is. -/
theorem frontEnd_asking_missing (h : field? "key" query = none) :
    c.frontEnd i group (asking query) = (.text 400 "key is required", c) := by
  simp only [frontEnd, route_asking_missing h]

/-- A look-up is answered with the status 200 or 500. -/
theorem status_answer (outcome : Except CacheError Value) :
    (FrontEnd.answer outcome).status = 200 ∨ (FrontEnd.answer outcome).status = 500 := by
  cases outcome with
  | ok value => exact .inl rfl
  | error e => exact .inr rfl

/-- **The first text among the values of `key` counts**, whatever the query, the group and the
cluster are.

* The key is what the first value that is a text stands for; values before it that are none are
  passed over, and those behind it are not looked at. It is looked up once.
* If no value is a text, the status is 400, and the group is not asked.
* The first value alone decides just in case it is a text, or no later one is. -/
theorem first_text_counts (c : Cluster) (i : Nat) (group query : String) :
    (∀ before value after key, values "key" query = before ++ value :: after →
        decode? value = some key → (∀ skipped ∈ before, decode? skipped = none) →
        FrontEnd.route (asking query) = .value key ∧
          c.frontEnd i group (asking query) =
            (FrontEnd.answer (c.get i group key).1, (c.get i group key).2)) ∧
      ((∀ value ∈ values "key" query, decode? value = none) →
        FrontEnd.route (asking query) = .keyMissing ∧
          c.frontEnd i group (asking query) = (.text 400 "key is required", c)) ∧
      ∀ value after, values "key" query = value :: after →
        (field? "key" query = decode? value ↔
          (decode? value).isSome ∨ ∀ later ∈ after, decode? later = none) := by
  refine ⟨?_, ?_, ?_⟩
  · intro before value after key hvalues hvalue hbefore
    have hfield := field?_eq_some_iff.mpr ⟨before, value, after, hvalues, hvalue, hbefore⟩
    exact ⟨route_asking hfield, frontEnd_asking hfield⟩
  · intro hnone
    have hfield := field?_eq_none_iff.mpr hnone
    exact ⟨route_asking_missing hfield, frontEnd_asking_missing hfield⟩
  · intro value after hvalues
    rw [field?_eq_findSome?, hvalues, List.findSome?_cons]
    cases decode? value with
    | some key => simp
    | none => simp [List.findSome?_eq_none_iff]

/-- A field with a longer name, one whose value is no text, and two that are. -/
theorem first_text_counts_third :
    let member : Member := ⟨.fresh "scores" 0, .fresh .echo, .fresh .echo⟩
    let c : Cluster := ⟨.up, #[⟨⟨[("scores", member)]⟩, #[]⟩], []⟩
    let query := "keys=1&key=%FF&key=a%2Fb&key=no"
    values "key" query = ["%FF".toList] ++ "a%2Fb".toList :: ["no".toList] ∧
      decode? "a%2Fb".toList = some "a/b" ∧
      (∀ skipped ∈ ["%FF".toList], decode? skipped = none) ∧
      c.frontEnd 0 "scores" (asking query) =
        (FrontEnd.answer (c.get 0 "scores" "a/b").1, (c.get 0 "scores" "a/b").2) := by
  intro member c query
  have hvalues : values "key" query = ["%FF".toList] ++ "a%2Fb".toList :: ["no".toList] := by
    decide +kernel
  have hvalue : decode? "a%2Fb".toList = some "a/b" := by decide +kernel
  have hskipped : ∀ skipped ∈ ["%FF".toList], decode? skipped = none := by decide +kernel
  exact ⟨hvalues, hvalue, hskipped,
    ((first_text_counts c 0 "scores" query).1 _ _ _ _ hvalues hvalue hskipped).2⟩

/-- **A value that is no text does not end the search.** The first field `key` holds a byte that is no
text, and the second one is looked up, so that the status is not 400; with the first field alone it
is. -/
theorem unreadable_value_skipped :
    let member : Member := ⟨.fresh "scores" 0, .fresh .echo, .fresh .echo⟩
    let c : Cluster := ⟨.up, #[⟨⟨[("scores", member)]⟩, #[]⟩], []⟩
    values "key" "key=%FF&key=Tom" = ["%FF".toList, "Tom".toList] ∧
      decode? "%FF".toList = none ∧
      FrontEnd.route (asking "key=%FF") = .keyMissing ∧
      FrontEnd.route (asking "key=%FF&key=Tom") = .value "Tom" ∧
      c.frontEnd 0 "scores" (asking "key=%FF&key=Tom") =
        (FrontEnd.answer (c.get 0 "scores" "Tom").1, (c.get 0 "scores" "Tom").2) ∧
      (c.frontEnd 0 "scores" (asking "key=%FF&key=Tom")).1.status ≠ 400 := by
  intro member c
  have hfield : field? "key" "key=%FF&key=Tom" = some "Tom" := by decide +kernel
  have hanswer : c.frontEnd 0 "scores" (asking "key=%FF&key=Tom") =
      (FrontEnd.answer (c.get 0 "scores" "Tom").1, (c.get 0 "scores" "Tom").2) :=
    frontEnd_asking hfield
  refine ⟨by decide +kernel, by decide +kernel, route_asking_missing (by decide +kernel),
    route_asking hfield, hanswer, ?_⟩
  rw [hanswer]
  rcases status_answer (c.get 0 "scores" "Tom").1 with h | h
  · rw [h]
    decide
  · rw [h]
    decide

end RingCache.Cluster

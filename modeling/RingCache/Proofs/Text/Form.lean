import Mathlib.Tactic.Common
import RingCache.Proofs.Text.Parts
import RingCache.Proofs.Text.Percent
import RingCache.Text.Form

/-!
# Fields of a query are read back

The value of a field may be written in more than one way: every byte as in a path, and a blank also as
a plus sign (`Fills`). Plus signs become blanks before the percent step, and no encoded byte holds a
plus sign; so a text is read back from each way of writing it (`decode?_of_writes`). Of the fields of
a query those with other names are passed over, so that the first field of a name is the one that
counts, if its value is a text (`field?_first`). If it is none, the search goes on: of all fields of a
name the first one counts whose value is a text (`field?_eq_some_iff`).
-/

namespace RingCache.Text.Form

open Percent

/-! ### Ways of writing a value -/

/-- Ways of writing bytes as the value of a field. -/
inductive Fills : List UInt8 → List UInt8 → Prop where
  | nil : Fills [] []
  /-- any byte may be written as in a path -/
  | byte (b : UInt8) {bs ws : List UInt8} (h : Fills bs ws) : Fills (b :: bs) (encodeByte b ++ ws)
  /-- a blank may be a plus sign -/
  | plus {bs ws : List UInt8} (h : Fills bs ws) : Fills (32 :: bs) (43 :: ws)

/-- A text is written so as the value of a field. -/
def Writes (s written : String) : Prop :=
  ∃ ws, Fills s.toUTF8.data.toList ws ∧ written = String.ofList (ws.map charOf)

variable {s name value written query : String} {bs ws : List UInt8}

theorem Fills.alphabet (h : Fills bs ws) : ∀ w ∈ ws, isWritten w = true ∨ w = 43 := by
  induction h with
  | nil => nofun
  | byte b _ ih =>
    intro w hw
    rcases List.mem_append.mp hw with hw | hw
    · exact .inl (isWritten_encodeByte b w hw)
    · exact ih w hw
  | plus _ ih =>
    intro w hw
    rcases List.mem_cons.mp hw with rfl | hw
    · exact .inr rfl
    · exact ih w hw

theorem Fills.lt (h : Fills bs ws) : ∀ w ∈ ws, w < 128 := by
  intro w hw
  rcases h.alphabet w hw with hw | rfl
  · exact lt_of_isWritten hw
  · decide

/-! ### Reading a value back -/

/-- A plus sign becomes a blank. -/
def blanked (w : UInt8) : UInt8 := if w = 43 then 32 else w

theorem blanked_of_isWritten {w : UInt8} (h : isWritten w = true) : blanked w = w := by
  rw [blanked, if_neg]
  rintro rfl
  cases h

theorem blanked_lt {w : UInt8} (h : w < 128) : blanked w < 128 := by
  rw [blanked]
  split
  · decide
  · exact h

/-- **Bytes are read back** from each way of writing them. -/
theorem Fills.read_back (h : Fills bs ws) : decodeBytes (ws.map blanked) = bs := by
  induction h with
  | nil => rfl
  | byte b _ ih =>
    have hsame : (encodeByte b).map blanked = encodeByte b := by
      refine (List.map_congr_left fun w hw => ?_).trans (List.map_id _)
      exact blanked_of_isWritten (isWritten_encodeByte b w hw)
    rw [List.map_append, hsame, Percent.read_back, ih]
  | plus _ ih =>
    rw [List.map_cons, show blanked 43 = 32 from rfl, decodeBytes_cons (by decide), ih]

theorem charOf_blanked {w : UInt8} (h : w < 128) :
    (if charOf w = '+' then ' ' else charOf w) = charOf (blanked w) := by
  by_cases hw : w = 43
  · subst hw
    rfl
  · have hne : charOf w ≠ '+' := fun heq => hw (charOf_inj h (by decide) heq)
    rw [if_neg hne, blanked, if_neg hw]

/-- **A text is read back** from each way of writing it as a value. -/
theorem decode?_of_writes (h : Writes s written) : decode? written.toList = some s := by
  obtain ⟨ws, hfills, rfl⟩ := h
  have hmap : ((ws.map charOf).map fun c => if c = '+' then ' ' else c) =
      (ws.map blanked).map charOf := by
    rw [List.map_map, List.map_map]
    exact List.map_congr_left fun w hw => charOf_blanked (hfills.lt w hw)
  have hlt : ∀ w ∈ ws.map blanked, w < 128 := by
    intro w hw
    obtain ⟨v, hv, rfl⟩ := List.mem_map.mp hw
    exact blanked_lt (hfills.lt v hv)
  have hbytes : Percent.bytes (String.ofList ((ws.map blanked).map charOf)) = s.toUTF8 := by
    rw [Percent.bytes, toUTF8_ofList hlt, hfills.read_back]
  rw [decode?, String.toList_ofList, hmap, Percent.decode, hbytes, text?_toUTF8]
  rfl

/-! ### The first field of a name -/

/-- A field has a name: it is the name alone, or goes on with an equals sign. -/
def Named (name field : String) : Prop := field = name ∨ ∃ value, field = name ++ "=" ++ value

theorem named_of_cut {field : String} (h : (cut '=' field.toList).1 = name.toList) :
    Named name field := by
  by_cases hmem : '=' ∈ field.toList
  · obtain ⟨front, back, hfield, hfront⟩ := List.eq_append_cons_of_mem hmem
    rw [hfield, cut_append hfront] at h
    obtain rfl : front = name.toList := h
    refine .inr ⟨String.ofList back, String.toList_injective ?_⟩
    simp [hfield, String.toList_append]
  · rw [cut_of_not_mem hmem] at h
    exact .inl (String.toList_injective h)

theorem Writes.not_mem_ampersand (h : Writes s written) : '&' ∉ written.toList := by
  obtain ⟨ws, hfills, rfl⟩ := h
  rw [String.toList_ofList]
  intro hmem
  obtain ⟨w, hw, heq⟩ := List.mem_map.mp hmem
  have hamp : w = 38 := charOf_inj (hfills.lt w hw) (by decide) heq
  subst hamp
  rcases hfills.alphabet 38 hw with h | h
  · cases h
  · cases h

/-- **The first field of a name counts**, if its value is a text: fields of other names before it are
passed over, and what stands behind it is not looked at. -/
theorem field?_first (hname : '=' ∉ name.toList) (hname' : '&' ∉ name.toList)
    {before : List String} (hbefore : ∀ field ∈ before, '&' ∉ field.toList ∧ ¬ Named name field)
    (hvalue : Writes s value) (after : List String) :
    field? name ("&".intercalate (before ++ (name ++ "=" ++ value) :: after)) = some s := by
  have hfield : (name ++ "=" ++ value).toList = name.toList ++ '=' :: value.toList := by
    rw [String.toList_append, String.toList_append, List.append_assoc]
    rfl
  have hamp : '&' ∉ (name ++ "=" ++ value).toList := by
    rw [hfield]
    simp [hname', hvalue.not_mem_ampersand]
  have hbefore' : ∀ p ∈ before.map String.toList, '&' ∉ p := by
    intro p hp
    obtain ⟨field, hmem, rfl⟩ := List.mem_map.mp hp
    exact (hbefore field hmem).1
  obtain ⟨others, hparts⟩ := parts_intercalate hbefore' hamp (after.map String.toList)
  have hquery : ("&".intercalate (before ++ (name ++ "=" ++ value) :: after)).toList =
      ['&'].intercalate (before.map String.toList ++
        (name ++ "=" ++ value).toList :: after.map String.toList) := by
    rw [String.toList_intercalate, List.map_append, List.map_cons]
    rfl
  rw [field?, hquery, hparts, List.findSome?_append, List.findSome?_eq_none_iff.mpr, Option.none_or,
    List.findSome?_cons]
  · rw [hfield, cut_append hname]
    simp only [if_pos, Option.getD_some, decode?_of_writes hvalue]
  · intro p hp
    obtain ⟨field, hmem, rfl⟩ := List.mem_map.mp hp
    exact if_neg fun h => (hbefore field hmem).2 (named_of_cut h)

example : field? "key" "keys=1&key=a+b%2B&key=no" = some "a b+" := by decide +kernel

/-! ### All fields of a name -/

/-- The value of a field, as it is written, if the field has the name. -/
def value? (name : String) (field : List Char) : Option (List Char) :=
  if (cut '=' field).1 = name.toList then some ((cut '=' field).2.getD []) else none

/-- The values of all fields of a name, as they are written, in the order of the query. -/
def values (name query : String) : List (List Char) :=
  (parts '&' query.toList).filterMap (value? name)

theorem field?_eq_findSome? (name query : String) :
    field? name query = (values name query).findSome? decode? := by
  rw [field?, values]
  induction parts '&' query.toList with
  | nil => rfl
  | cons field fields ih =>
    by_cases hname : (cut '=' field).1 = name.toList
    · have hvalue : value? name field = some ((cut '=' field).2.getD []) := if_pos hname
      rw [List.filterMap_cons_some hvalue, List.findSome?_cons, List.findSome?_cons, ← ih]
      simp only [if_pos hname]
    · have hvalue : value? name field = none := if_neg hname
      rw [List.filterMap_cons_none hvalue, List.findSome?_cons_of_isNone, ih]
      simp only [if_neg hname, Option.isNone_none]

/-- **Of the fields of a name the first one counts whose value is a text.** -/
theorem field?_eq_some_iff {key : String} :
    field? name query = some key ↔ ∃ before value after,
      values name query = before ++ value :: after ∧ decode? value = some key ∧
        ∀ skipped ∈ before, decode? skipped = none := by
  rw [field?_eq_findSome?, List.findSome?_eq_some_iff]

theorem field?_eq_none_iff :
    field? name query = none ↔ ∀ value ∈ values name query, decode? value = none := by
  rw [field?_eq_findSome?, List.findSome?_eq_none_iff]

end RingCache.Text.Form

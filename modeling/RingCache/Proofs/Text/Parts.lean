import Mathlib.Data.List.TakeWhile
import Mathlib.Tactic.Common
import RingCache.Text.Parts

/-!
# Parts and what they are joined to

Cutting at a separator takes the first part off a text whose first part is known, and joining the
parts gives the text back.
-/

namespace RingCache.Text

variable {sep : Char} {cs rest : List Char}

theorem parts_ne_nil (sep : Char) (cs : List Char) : parts sep cs ≠ [] := by
  cases cs with
  | nil => simp [parts]
  | cons c cs =>
    rw [parts]
    split
    · simp
    · split <;> simp

theorem parts_of_not_mem (h : sep ∉ cs) : parts sep cs = [cs] := by
  induction cs with
  | nil => rfl
  | cons c cs ih =>
    obtain ⟨hc, hcs⟩ := not_or.mp (mt List.mem_cons.mpr h)
    rw [parts, if_neg (Ne.symm hc), ih hcs]

theorem parts_append (h : sep ∉ cs) (rest : List Char) :
    parts sep (cs ++ sep :: rest) = cs :: parts sep rest := by
  induction cs with
  | nil => rw [List.nil_append, parts, if_pos rfl]
  | cons c cs ih =>
    obtain ⟨hc, hcs⟩ := not_or.mp (mt List.mem_cons.mpr h)
    rw [List.cons_append, parts, if_neg (Ne.symm hc), ih hcs]

/-- No part holds a separator. -/
theorem not_mem_of_mem_parts {part : List Char} (h : part ∈ parts sep cs) : sep ∉ part := by
  induction cs generalizing part with
  | nil =>
    rw [List.mem_singleton.mp h]
    exact List.not_mem_nil
  | cons c cs ih =>
    obtain ⟨first, others, hparts⟩ := List.exists_cons_of_ne_nil (parts_ne_nil sep cs)
    rw [hparts] at ih
    rw [parts] at h
    split at h
    · rcases List.mem_cons.mp h with rfl | hmem
      · exact List.not_mem_nil
      · exact ih (hparts ▸ hmem)
    · next hc =>
      simp only [hparts] at h
      rcases List.mem_cons.mp h with rfl | hmem
      · refine fun hsep => ih List.mem_cons_self ?_
        exact (List.mem_cons.mp hsep).resolve_left (Ne.symm hc)
      · exact ih (List.mem_cons_of_mem _ hmem)

/-- **Joining the parts** gives the list back. -/
theorem intercalate_parts (sep : Char) (cs : List Char) : [sep].intercalate (parts sep cs) = cs := by
  induction cs with
  | nil => rfl
  | cons c cs ih =>
    rw [parts]
    obtain ⟨first, others, hparts⟩ := List.exists_cons_of_ne_nil (parts_ne_nil sep cs)
    rw [hparts] at ih ⊢
    split
    · next hc => rw [List.intercalate_cons_cons, ih, hc, List.nil_append, List.singleton_append]
    · show [sep].intercalate ((c :: first) :: others) = _
      cases others with
      | nil =>
        rw [List.intercalate_singleton] at ih ⊢
        rw [ih]
      | cons second others =>
        rw [List.intercalate_cons_cons] at ih ⊢
        rw [List.cons_append, List.cons_append, ih]

/-- The first parts of joined lists, as far as they hold no separator. -/
theorem parts_intercalate {before : List (List Char)} (hbefore : ∀ p ∈ before, sep ∉ p)
    (hcs : sep ∉ cs) (after : List (List Char)) :
    ∃ others, parts sep ([sep].intercalate (before ++ cs :: after)) = before ++ cs :: others := by
  induction before with
  | nil =>
    rw [List.nil_append]
    cases after with
    | nil =>
      rw [List.intercalate_singleton]
      exact ⟨[], parts_of_not_mem hcs⟩
    | cons next after =>
      rw [List.intercalate_cons_cons, List.append_assoc, List.singleton_append]
      exact ⟨_, parts_append hcs _⟩
  | cons p before ih =>
    obtain ⟨others, hothers⟩ := ih fun q hq => hbefore q (List.mem_cons_of_mem _ hq)
    refine ⟨others, ?_⟩
    rw [List.cons_append, List.intercalate_cons_of_ne_nil (by simp), List.append_assoc,
      List.singleton_append, parts_append (hbefore p List.mem_cons_self), hothers, List.cons_append]

/-- Where every list is ended by a separator, nothing stands behind the last one. -/
theorem parts_ended {ls : List (List Char)} (h : ∀ l ∈ ls, sep ∉ l) :
    parts sep (ls.flatMap fun l => l ++ [sep]) = ls ++ [[]] := by
  induction ls with
  | nil => rfl
  | cons l ls ih =>
    rw [List.flatMap_cons, List.append_assoc, List.singleton_append,
      parts_append (h l List.mem_cons_self), ih fun l hl => h l (List.mem_cons_of_mem _ hl),
      List.cons_append]

theorem cut_of_not_mem (h : sep ∉ cs) : cut sep cs = (cs, none) := by
  have hall : cs.dropWhile (· ≠ sep) = [] := by
    rw [List.dropWhile_eq_nil_iff]
    intro c hc
    have hne : c ≠ sep := ne_of_mem_of_not_mem hc h
    simpa using hne
  rw [cut, hall]

theorem cut_append (h : sep ∉ cs) (rest : List Char) :
    cut sep (cs ++ sep :: rest) = (cs, some rest) := by
  have hall : ∀ c ∈ cs, (c ≠ sep : Bool) = true := by
    intro c hc
    have hne : c ≠ sep := ne_of_mem_of_not_mem hc h
    simpa using hne
  have hdrop : (cs ++ sep :: rest).dropWhile (· ≠ sep) = sep :: rest := by
    rw [List.dropWhile_append_of_pos hall, List.dropWhile_cons_of_neg (by simp)]
  have htake : (cs ++ sep :: rest).takeWhile (· ≠ sep) = cs := by
    rw [List.takeWhile_append_of_pos hall, List.takeWhile_cons_of_neg (by simp), List.append_nil]
  rw [cut, hdrop, htake]

/-! ### Strings -/

theorem split_of_not_mem {s : String} (h : sep ∉ s.toList) : split sep s = [s] := by
  rw [split, parts_of_not_mem h, List.map_singleton, String.ofList_toList]

theorem split_append {s : String} (h : sep ∉ s.toList) (t : String) :
    split sep (s ++ String.singleton sep ++ t) = s :: split sep t := by
  rw [split, String.toList_append, String.toList_append, String.toList_singleton, List.append_assoc,
    List.singleton_append, parts_append h, List.map_cons, String.ofList_toList, split]

theorem not_mem_of_mem_split {s part : String} (h : part ∈ split sep s) : sep ∉ part.toList := by
  obtain ⟨cs, hcs, rfl⟩ := List.mem_map.mp h
  rw [String.toList_ofList]
  exact not_mem_of_mem_parts hcs

theorem intercalate_split (sep : Char) (s : String) :
    (String.singleton sep).intercalate (split sep s) = s := by
  apply String.toList_injective
  have hmap : ((parts sep s.toList).map String.ofList).map String.toList = parts sep s.toList := by
    rw [List.map_map]
    exact List.map_id'' (fun _ => String.toList_ofList) _
  rw [String.toList_intercalate, split, hmap, String.toList_singleton, intercalate_parts]

end RingCache.Text

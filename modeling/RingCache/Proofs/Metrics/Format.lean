import Mathlib.Tactic.Common
import RingCache.Metrics
import RingCache.Proofs.Number.Shortest
import RingCache.Proofs.Text.Parts
import RingCache.Text.Decimal

/-!
# The text format of metrics, read

A text in this format is read line by line (`read?`): comments, help, types and samples, each of
which goes into the block of its name. Labels stand between quotes, where a backslash, a quote and a
line end are escaped; numbers may have any form. Histograms and summaries, whose samples go by other
names than their family, are not read.

What a page writes is read back: escaped texts (`text?_escape`), each kind of line (`line?_helpLine`,
`line?_typeLine`, `line?_sampleLine`), and from them, by induction over the lines, whole families
(`readLines_families`). So no name that a user chooses can break out of its label.
-/

namespace RingCache.Metrics.Format

/-! ### Words and texts in a line -/

def isBlank (c : Char) : Bool := c = ' ' || c = '\t'

def skip (cs : List Char) : List Char := cs.dropWhile isBlank

/-- The word that a line begins with, and what stands behind it. -/
def word (cs : List Char) : List Char × List Char :=
  (cs.takeWhile fun c => !isBlank c, cs.dropWhile fun c => !isBlank c)

/-- What a character behind a backslash stands for. -/
def escaped? (quoted : Bool) : Char → Option Char
  | '\\' => some '\\'
  | 'n' => some '\n'
  | '"' => if quoted then some '"' else none
  | _ => none

/-- Reads a text with escapes: a quoted one up to the quote that closes it, any other up to the end of
the line. -/
def text? (quoted : Bool) : List Char → Option (List Char × List Char)
  | [] => if quoted then none else some ([], [])
  | '"' :: rest =>
    if quoted then some ([], rest)
    else (text? quoted rest).map fun (cs, rest) => ('"' :: cs, rest)
  | '\\' :: c :: rest => do
    let d ← escaped? quoted c
    (text? quoted rest).map fun (cs, rest) => (d :: cs, rest)
  | c :: rest =>
    if c = '\\' then none else (text? quoted rest).map fun (cs, rest) => (c :: cs, rest)

/-! ### Samples -/

/-- A sample as it is written: its labels with their values, and its own value. -/
structure Sample where
  labels : List (String × String)
  value : String
  deriving DecidableEq

def isLabelChar (c : Char) : Bool := c.isAlphanum || c = '_'

/-- Whether a text can be the name of a label, which does not begin with a digit. -/
def isLabel (cs : List Char) : Bool :=
  cs.all isLabelChar && cs.head?.any fun c => !c.isDigit

/-- Reads a label and its value, which stands between quotes. Blanks may stand around either. -/
def label? (cs : List Char) : Option ((String × String) × List Char) :=
  let name := (skip cs).takeWhile isLabelChar
  match skip ((skip cs).dropWhile isLabelChar) with
  | '=' :: rest =>
    match skip rest with
    | '"' :: rest =>
      if isLabel name then
        (text? true rest).map fun (value, rest) =>
          ((String.ofList name, String.ofList value), skip rest)
      else none
    | _ => none
  | _ => none

theorem length_skip (cs : List Char) : (skip cs).length ≤ cs.length :=
  (List.dropWhile_sublist _).length_le

theorem length_text? {quoted : Bool} {cs value rest : List Char}
    (h : text? quoted cs = some (value, rest)) : rest.length ≤ cs.length := by
  fun_induction text? quoted cs generalizing value with
  | case1 => simp at h
  | case2 => simp at h; simp [h]
  | case3 rest' hq => simp at h; simp [h]
  | case4 rest' hq ih =>
    obtain ⟨⟨v, r⟩, hv, hr⟩ := Option.map_eq_some_iff.mp h
    cases hr
    exact Nat.le_succ_of_le (ih hv)
  | case5 c rest' ih =>
    obtain ⟨d, -, h⟩ := Option.bind_eq_some_iff.mp h
    obtain ⟨⟨v, r⟩, hv, hr⟩ := Option.map_eq_some_iff.mp h
    cases hr
    have hle := ih hv
    simp only [List.length_cons]
    omega
  | case6 => simp at h
  | case7 c rest' _ _ _ ih =>
    obtain ⟨⟨v, r⟩, hv, hr⟩ := Option.map_eq_some_iff.mp h
    cases hr
    exact Nat.le_succ_of_le (ih hv)

theorem length_label? {cs rest : List Char} {label : String × String}
    (h : label? cs = some (label, rest)) : rest.length ≤ cs.length := by
  simp only [label?] at h
  split at h
  · next rest₁ hequals =>
    split at h
    · next rest₂ hquote =>
      split at h
      · obtain ⟨⟨v, r⟩, hv, hr⟩ := Option.map_eq_some_iff.mp h
        cases hr
        calc (skip r).length ≤ r.length := length_skip r
          _ ≤ rest₂.length := length_text? hv
          _ ≤ (skip rest₁).length := by simp [hquote]
          _ ≤ rest₁.length := length_skip rest₁
          _ ≤ (skip ((skip cs).dropWhile isLabelChar)).length := by simp [hequals]
          _ ≤ ((skip cs).dropWhile isLabelChar).length := length_skip _
          _ ≤ (skip cs).length := (List.dropWhile_sublist _).length_le
          _ ≤ cs.length := length_skip cs
      · cases h
    · cases h
  · cases h

/-- Reads labels up to the closing brace, with commas between them and perhaps one behind the last. -/
def labels? (cs : List Char) : Option (List (String × String) × List Char) :=
  match skip cs with
  | '\x7d' :: rest => some ([], rest)
  | _ =>
    match _ : label? cs with
    | some (label, '\x7d' :: rest) => some ([label], rest)
    | some (label, ',' :: rest) => (labels? rest).map fun (others, rest) => (label :: others, rest)
    | _ => none
termination_by cs.length
decreasing_by exact length_label? ‹_›

/-- Reads a sample and its name. A time may stand behind the value. -/
def sample? (cs : List Char) : Option (String × Sample) := do
  let name := cs.takeWhile isNameChar
  let (labels, rest) ← match skip (cs.dropWhile isNameChar) with
    | '\x7b' :: rest => labels? rest
    | rest => some ([], rest)
  let (value, rest) := word (skip rest)
  let (time, rest) := word (skip rest)
  if isName name && Text.isNumber (String.ofList value) && skip rest = [] &&
      (time = [] || (Text.digits? (Text.unsign time)).isSome) then
    some (String.ofList name, ⟨labels, String.ofList value⟩)
  else none

/-! ### Lines -/

/-- What a line says. -/
inductive Line where
  /-- nothing, or a comment -/
  | blank
  | help (name text : String)
  | kind (name kind : String)
  | sample (name : String) (s : Sample)
  deriving DecidableEq

/-- The types of families whose samples all go by the name of the family. -/
def kinds : List String := ["counter", "gauge", "untyped"]

/-- Reads what stands behind the mark of a comment. -/
def comment? (cs : List Char) : Option Line :=
  let (mark, rest) := word (skip cs)
  let (name, rest) := word (skip rest)
  if mark = "HELP".toList then
    if isName name then
      (text? false (skip rest)).map fun (text, _) => .help (String.ofList name) (String.ofList text)
    else none
  else if mark = "TYPE".toList then
    let (kind, rest) := word (skip rest)
    if isName name && kinds.contains (String.ofList kind) && skip rest = [] then
      some (.kind (String.ofList name) (String.ofList kind))
    else none
  else some .blank

def line? (cs : List Char) : Option Line :=
  match skip cs with
  | [] => some .blank
  | '#' :: rest => comment? rest
  | cs => (sample? cs).map fun (name, s) => .sample name s

/-! ### The whole text -/

/-- What a text says about one name. -/
structure Block where
  name : String
  help : Option String
  kind : Option String
  samples : List Sample
  deriving DecidableEq

/-- Puts a line into the block of its name: the last one, or a new one where no block has the name. -/
def Block.put (name : String) (f : Block → Option Block) (blocks : List Block) :
    Option (List Block) :=
  match blocks with
  | [] => (f ⟨name, none, none, []⟩).map (· :: [])
  | b :: before =>
    if b.name = name then (f b).map (· :: before)
    else if before.any fun b => b.name = name then none
    else (f ⟨name, none, none, []⟩).map (· :: b :: before)

/-- A name has at most one line of help, which stands before its samples. -/
def Block.addHelp (text : String) (b : Block) : Option Block :=
  if b.help.isNone && b.samples.isEmpty then some { b with help := some text } else none

/-- A name has at most one line of its type, which stands before its samples. -/
def Block.addKind (kind : String) (b : Block) : Option Block :=
  if b.kind.isNone && b.samples.isEmpty then some { b with kind := some kind } else none

/-- No two samples of a name have the same labels. -/
def Block.addSample (s : Sample) (b : Block) : Option Block :=
  if b.samples.any fun t => t.labels.isPerm s.labels then none
  else some { b with samples := b.samples ++ [s] }

/-- Takes a line into blocks, of which the last one stands first. -/
def take (blocks : List Block) : Line → Option (List Block)
  | .blank => some blocks
  | .help name text => Block.put name (Block.addHelp text) blocks
  | .kind name kind => Block.put name (Block.addKind kind) blocks
  | .sample name s => Block.put name (Block.addSample s) blocks

/-- Reads lines one after the other. -/
def readLines (blocks : List Block) (lines : List (List Char)) : Option (List Block) :=
  lines.foldlM (fun blocks cs => line? cs >>= take blocks) blocks

/-- Reads a text of lines, each of which is ended. -/
def read? (text : String) : Option (List Block) :=
  let lines := Text.parts '\n' text.toList
  if lines.getLast? = some [] then (readLines [] lines.dropLast).map List.reverse else none

variable {quoted : Bool} {cs rest tail : List Char} {name group : String} {f : Family}

/-! ### Escapes are read back -/

theorem text?_escapeChar (c : Char) (cs : List Char) :
    text? quoted (escapeChar quoted c ++ cs) =
      (text? quoted cs).map fun (text, rest) => (c :: text, rest) := by
  fun_cases escapeChar quoted c with
  | case1 => rfl
  | case2 => rfl
  | case3 hq => simp [text?, escaped?, hq]
  | case4 hq => simp [text?, hq]
  | case5 c hslash hline hquote =>
    rw [List.singleton_append, text?, if_neg (by simpa using hslash)]
    all_goals simp_all

/-- **What is escaped is read back**, up to where the text ends. -/
theorem text?_escape (h : text? quoted tail = some ([], rest)) (text : String) :
    text? quoted ((escape quoted text).toList ++ tail) = some (text.toList, rest) := by
  rw [escape, String.toList_ofList]
  induction text.toList with
  | nil => exact h
  | cons c cs ih => rw [List.flatMap_cons, List.append_assoc, text?_escapeChar, ih, Option.map_some]

theorem not_mem_escape (quoted : Bool) (text : String) : '\n' ∉ (escape quoted text).toList := by
  rw [escape, String.toList_ofList, List.mem_flatMap]
  rintro ⟨c, -, hc⟩
  revert hc
  fun_cases escapeChar quoted c with
  | case1 => decide
  | case2 => decide
  | case3 => decide
  | case4 => decide
  | case5 c hslash hline hquote => simpa using fun h => hline h.symm

/-! ### Words are read back -/

theorem skip_cons {c : Char} (h : isBlank c = false) (cs : List Char) : skip (c :: cs) = c :: cs :=
  List.dropWhile_cons_of_neg (by simp [h])

theorem skip_blank (cs : List Char) : skip (' ' :: cs) = skip cs := rfl

/-- A text that begins with no blank is escaped to one that begins with none. -/
theorem skip_escape {text : String} (h : text.toList.head?.any fun c => !isBlank c) :
    skip (escape quoted text).toList = (escape quoted text).toList := by
  rw [escape, String.toList_ofList]
  cases htext : text.toList with
  | nil => rfl
  | cons c cs =>
    have hc : isBlank c = false := by simpa [htext] using h
    rw [List.flatMap_cons]
    fun_cases escapeChar quoted c with
    | case1 | case2 | case3 | case4 => exact skip_cons (by decide) _
    | case5 c => exact skip_cons hc _

/-- A word: a text that is not empty and has no blanks. -/
def Solid (cs : List Char) : Prop := cs ≠ [] ∧ ∀ c ∈ cs, isBlank c = false

theorem Solid.skip_append (h : Solid cs) (rest : List Char) : skip (cs ++ rest) = cs ++ rest := by
  obtain ⟨c, cs, rfl⟩ := List.exists_cons_of_ne_nil h.1
  exact skip_cons (h.2 c List.mem_cons_self) _

theorem Solid.skip_self (h : Solid cs) : skip cs = cs := by
  have hskip := h.skip_append []
  rwa [List.append_nil] at hskip

theorem Solid.word_append (h : Solid cs) (rest : List Char) :
    word (cs ++ ' ' :: rest) = (cs, ' ' :: rest) := by
  have hall : ∀ c ∈ cs, (!isBlank c) = true := fun c hc => by simp [h.2 c hc]
  rw [word, List.takeWhile_append_of_pos hall, List.dropWhile_append_of_pos hall,
    List.takeWhile_cons_of_neg (by decide), List.dropWhile_cons_of_neg (by decide), List.append_nil]

theorem Solid.word_self (h : Solid cs) : word cs = (cs, []) := by
  have hall : ∀ c ∈ cs, (!isBlank c) = true := fun c hc => by simp [h.2 c hc]
  rw [word, List.takeWhile_eq_self_iff.mpr hall, List.dropWhile_eq_nil_iff.mpr hall]

/-- A class of characters that a blank is not in makes words. -/
theorem solid_of_all {p : Char → Bool} (hblank : p ' ' = false) (htab : p '\t' = false)
    (hne : cs ≠ []) (h : cs.all p = true) : Solid cs := by
  refine ⟨hne, fun c hc => ?_⟩
  have hp : p c = true := List.all_eq_true.mp h c hc
  have hspace : c ≠ ' ' := by
    rintro rfl
    rw [hblank] at hp
    cases hp
  have htab : c ≠ '\t' := by
    rintro rfl
    rw [htab] at hp
    cases hp
  simp [isBlank, hspace, htab]

theorem all_of_isName (h : isName cs = true) : cs.all isNameChar = true :=
  (Bool.and_eq_true _ _ ▸ h).1

theorem solid_of_isName (h : isName cs = true) : Solid cs := by
  refine solid_of_all (by decide) (by decide) ?_ (all_of_isName h)
  rintro rfl
  cases h

/-! ### Numbers are read back -/

theorem digits?_eq_some {m : Nat} (h : Text.digits? cs = some m) :
    cs ≠ [] ∧ cs.all Char.isDigit = true := by
  rw [Text.digits?] at h
  split at h
  · cases h
  · next hdigits =>
    simpa using hdigits

theorem solid_of_digits? {m : Nat} (h : Text.digits? cs = some m) : Solid cs :=
  have ⟨hne, hall⟩ := digits?_eq_some h
  solid_of_all (by decide) (by decide) hne hall

theorem unsign_of_digits {c : Char} (h : c.isDigit = true) (cs : List Char) :
    Text.unsign (c :: cs) = c :: cs := by
  unfold Text.unsign
  split
  · next heq =>
    cases heq
    cases h
  · next heq =>
    cases heq
    cases h
  · rfl

theorem isNumber_of_digits? {text : String} {m : Nat} (h : Text.digits? text.toList = some m) :
    Text.isNumber text = true := by
  obtain ⟨hne, hall⟩ := digits?_eq_some h
  obtain ⟨c, cs, hcs⟩ := List.exists_cons_of_ne_nil hne
  have hsign : Text.unsign text.toList = text.toList := by
    rw [hcs, unsign_of_digits (List.all_eq_true.mp hall c (by simp [hcs]))]
  have htake := List.takeWhile_eq_self_iff.mpr (List.all_eq_true.mp hall)
  have hdrop := List.dropWhile_eq_nil_iff.mpr (List.all_eq_true.mp hall)
  simp [Text.isNumber, hsign, htake, hdrop, hne, Text.isPower]

/-! ### Lines are read back -/

theorem line?_helpLine (hname : isName f.name.toList = true)
    (hhelp : f.help.toList.head?.any fun c => !isBlank c) :
    line? (helpLine f).toList = some (.help f.name f.help) := by
  have hword := solid_of_isName hname
  have hmark : Solid "HELP".toList := by simp [Solid, isBlank]
  have hend : text? false [] = some ([], []) := rfl
  have htext := text?_escape hend f.help
  rw [List.append_nil] at htext
  have hline : (helpLine f).toList =
      '#' :: ' ' :: ("HELP".toList ++ ' ' :: (f.name.toList ++ ' ' :: (escape false f.help).toList)) := by
    simp [helpLine]
  rw [hline, line?, skip_cons (by decide)]
  show comment? _ = _
  rw [comment?, skip_blank, hmark.skip_append, hmark.word_append]
  simp only [skip_blank, hword.skip_append, hword.word_append, if_pos hname, skip_escape hhelp, htext]
  simp

theorem line?_typeLine (hname : isName f.name.toList = true) :
    line? (typeLine f).toList = some (.kind f.name f.kind.name) := by
  have hword := solid_of_isName hname
  have hmark : Solid "TYPE".toList := by simp [Solid, isBlank]
  have hkind : Solid f.kind.name.toList ∧ f.kind.name ∈ kinds := by
    cases f.kind with
    | counter => simp [Solid, isBlank, Kind.name, kinds]
    | gauge => simp [Solid, isBlank, Kind.name, kinds]
  have hline : (typeLine f).toList =
      '#' :: ' ' :: ("TYPE".toList ++ ' ' :: (f.name.toList ++ ' ' :: f.kind.name.toList)) := by
    simp [typeLine]
  rw [hline, line?, skip_cons (by decide)]
  show comment? _ = _
  rw [comment?, skip_blank, hmark.skip_append, hmark.word_append]
  simp only [skip_blank, hword.skip_append, hword.word_append, hkind.1.skip_self, hkind.1.word_self]
  simp [hname, hkind.2, skip]

theorem labels?_group (group : String) (rest : List Char) :
    labels? ("group=\"".toList ++ ((escape true group).toList ++ '"' :: '\x7d' :: rest)) =
      some ([("group", group)], rest) := by
  have hend : text? true ('"' :: '\x7d' :: rest) = some ([], '\x7d' :: rest) := rfl
  have htext := text?_escape hend group
  have hlabel : label? ("group=\"".toList ++ ((escape true group).toList ++ '"' :: '\x7d' :: rest)) =
      some (("group", group), '\x7d' :: rest) := by
    calc label? ("group=\"".toList ++ ((escape true group).toList ++ '"' :: '\x7d' :: rest))
      _ = (text? true ((escape true group).toList ++ '"' :: '\x7d' :: rest)).map fun (value, rest) =>
          (("group", String.ofList value), skip rest) := rfl
      _ = some (("group", group), '\x7d' :: rest) := by
        simp only [htext, Option.map_some, String.ofList_toList]
        rfl
  rw [labels?]
  split
  · next hskip => cases hskip
  · split
    · next heq =>
      rw [hlabel] at heq
      cases heq
      rfl
    · next heq =>
      rw [hlabel] at heq
      cases heq
    · next hbrace _ => exact absurd hlabel (hbrace _ _)

theorem line?_sampleLine (hname : isName f.name.toList = true) (group : String) {sample : UInt64}
    {m : Nat} (hvalue : Text.digits? (Binary64.ofNat sample.toNat).positional.toList = some m) :
    line? (sampleLine f group sample).toList =
      some (.sample f.name ⟨[("group", group)], (Binary64.ofNat sample.toNat).positional⟩) := by
  have hword := solid_of_isName hname
  have hnumber := solid_of_digits? hvalue
  have hline : (sampleLine f group sample).toList =
      f.name.toList ++ '\x7b' :: ("group=\"".toList ++ ((escape true group).toList ++
        '"' :: '\x7d' :: ' ' :: (Binary64.ofNat sample.toNat).positional.toList)) := by
    simp [sampleLine]
  have hchars : ∀ c ∈ f.name.toList, isNameChar c = true := List.all_eq_true.mp (all_of_isName hname)
  have hsample : sample? (sampleLine f group sample).toList =
      some (f.name, ⟨[("group", group)], (Binary64.ofNat sample.toNat).positional⟩) := by
    rw [hline, sample?, List.takeWhile_append_of_pos hchars, List.dropWhile_append_of_pos hchars,
      List.takeWhile_cons_of_neg (by decide), List.dropWhile_cons_of_neg (by decide),
      skip_cons (by decide)]
    simp only [labels?_group, Option.bind_eq_bind, Option.bind_some, skip_blank, hnumber.skip_self,
      hnumber.word_self, List.append_nil, hname, String.ofList_toList, isNumber_of_digits? hvalue]
    rfl
  -- no name begins with the mark of a comment
  obtain ⟨c, cs, hcs⟩ := List.exists_cons_of_ne_nil hword.1
  have hc : c ≠ '#' := by
    rintro rfl
    have hmark := hchars '#' (by simp [hcs])
    revert hmark
    decide
  have hskip : skip (sampleLine f group sample).toList = (sampleLine f group sample).toList := by
    rw [hline, hword.skip_append]
  rw [line?, hskip]
  split
  · next heq => simp [hline, hcs] at heq
  · next heq => simp [hline, hcs, hc] at heq
  · rw [hsample]
    rfl

/-! ### No line ends within a line -/

theorem not_mem_of_all {p : Char → Bool} {d : Char} (hd : p d = false) (h : cs.all p = true) :
    d ∉ cs := by
  intro hmem
  have htrue := List.all_eq_true.mp h d hmem
  rw [hd] at htrue
  cases htrue

theorem digits?_positional (sample : UInt64) :
    ∃ m, Text.digits? (Binary64.ofNat sample.toNat).positional.toList = some m :=
  have ⟨m, hm, _⟩ := Binary64.shows_positional sample.toNat_lt
  ⟨m, hm⟩

theorem not_mem_lines (hname : isName f.name.toList = true) : ∀ line ∈ f.lines, '\n' ∉ line.toList := by
  have hchars : '\n' ∉ f.name.toList := not_mem_of_all (by decide) (all_of_isName hname)
  have hkind : '\n' ∉ f.kind.name.toList := by cases f.kind <;> decide
  intro line hline
  rcases List.mem_cons.mp hline with rfl | hline
  · simp [helpLine, hchars, not_mem_escape]
  · rcases List.mem_cons.mp hline with rfl | hline
    · simp [typeLine, hchars, hkind]
    · obtain ⟨⟨group, sample⟩, -, rfl⟩ := List.mem_map.mp hline
      obtain ⟨m, hm⟩ := digits?_positional sample
      have hdigits := not_mem_of_all (d := '\n') (by decide) (digits?_eq_some hm).2
      simp [sampleLine, hchars, hdigits, not_mem_escape]

/-! ### Families are read back -/

/-- A family as a text shows it. -/
def shown (sample : String × UInt64) : Sample :=
  ⟨[("group", sample.1)], (Binary64.ofNat sample.2.toNat).positional⟩

def block (f : Family) : Block := ⟨f.name, some f.help, some f.kind.name, f.samples.map shown⟩

/-- What a family needs to be read back: a name, a help that begins with no blank, and no label twice. -/
structure Readable (f : Family) : Prop where
  name : isName f.name.toList = true
  help : f.help.toList.head?.any fun c => !isBlank c
  labels : (f.samples.map Prod.fst).Nodup

variable {blocks before : List Block} {b b' : Block}

theorem put_last {g : Block → Option Block} (hname : b.name = name) (hg : g b = some b') :
    Block.put name g (b :: before) = some (b' :: before) := by
  simp [Block.put, hname, hg]

theorem put_new {g : Block → Option Block} (hnew : ∀ b ∈ blocks, b.name ≠ name)
    (hg : g ⟨name, none, none, []⟩ = some b') : Block.put name g blocks = some (b' :: blocks) := by
  cases blocks with
  | nil => simp [Block.put, hg]
  | cons b before =>
    have hb : b.name ≠ name := hnew b List.mem_cons_self
    have hbefore : ∀ b ∈ before, b.name ≠ name := fun b hmem => hnew b (List.mem_cons_of_mem _ hmem)
    have hany : (before.any fun b => b.name = name) = false := by simpa using hbefore
    simp [Block.put, hb, hany, hg]

theorem readLines_cons {line : List Char} {l : Line} (hline : line? line = some l)
    (htake : take blocks l = some before) (lines : List (List Char)) :
    readLines blocks (line :: lines) = readLines before lines := by
  simp [readLines, hline, htake]

theorem readLines_append (blocks : List Block) (lines more : List (List Char)) :
    readLines blocks (lines ++ more) = readLines blocks lines >>= fun blocks => readLines blocks more :=
  List.foldlM_append

/-- The samples of a family go into its block, as long as no label is there already. -/
theorem readLines_samples (hname : isName f.name.toList = true) {samples : Samples}
    (hnodup : (samples.map Prod.fst).Nodup) (hb : b.name = f.name)
    (hnew : ∀ t ∈ b.samples, ∀ sample ∈ samples, t.labels ≠ (shown sample).labels) :
    readLines (b :: before)
        (samples.map fun (group, sample) => (sampleLine f group sample).toList) =
      some ({ b with samples := b.samples ++ samples.map shown } :: before) := by
  induction samples generalizing b with
  | nil => simp [readLines]
  | cons sample samples ih =>
    obtain ⟨hfresh, hnodup⟩ := List.nodup_cons.mp hnodup
    obtain ⟨m, hm⟩ := digits?_positional sample.2
    -- one label alone has no other order
    have hany : (b.samples.any fun t => t.labels.isPerm (shown sample).labels) = false := by
      simp only [List.any_eq_false, List.isPerm_iff]
      intro t ht hperm
      exact hnew t ht sample List.mem_cons_self (List.perm_singleton.mp hperm)
    have htake : take (b :: before) (.sample f.name (shown sample)) =
        some ({ b with samples := b.samples ++ [shown sample] } :: before) :=
      put_last hb (by simp [Block.addSample, hany])
    rw [List.map_cons, readLines_cons (line?_sampleLine hname sample.1 hm) htake]
    refine (ih (b := { b with samples := b.samples ++ [shown sample] }) hnodup hb ?_).trans (by simp)
    · intro t ht other hother heq
      rcases List.mem_append.mp ht with ht | ht
      · exact hnew t ht other (List.mem_cons_of_mem _ hother) heq
      · -- the label of the sample that has just come in
        obtain rfl := List.mem_singleton.mp ht
        have hlabel : sample.1 = other.1 := by simpa [shown] using heq
        exact hfresh (hlabel ▸ List.mem_map_of_mem hother)

theorem readLines_lines (hf : Readable f) (hnew : ∀ b ∈ blocks, b.name ≠ f.name) :
    readLines blocks (f.lines.map String.toList) = some (block f :: blocks) := by
  have hhelp : take blocks (.help f.name f.help) = some (⟨f.name, some f.help, none, []⟩ :: blocks) :=
    put_new hnew (by simp [Block.addHelp])
  have hkind : take (⟨f.name, some f.help, none, []⟩ :: blocks) (.kind f.name f.kind.name) =
      some (⟨f.name, some f.help, some f.kind.name, []⟩ :: blocks) :=
    put_last rfl (by simp [Block.addKind])
  rw [Family.lines, List.map_cons, List.map_cons, List.map_map,
    readLines_cons (line?_helpLine hf.name hf.help) hhelp,
    readLines_cons (line?_typeLine hf.name) hkind]
  exact readLines_samples hf.name hf.labels rfl (by simp)

/-- **Families are read back** in their order, if no two have the same name. -/
theorem readLines_families {fs : List Family} (hfs : ∀ f ∈ fs, Readable f)
    (hnodup : (fs.map Family.name).Nodup) (hnew : ∀ f ∈ fs, ∀ b ∈ blocks, b.name ≠ f.name) :
    readLines blocks ((fs.flatMap Family.lines).map String.toList) =
      some ((fs.map block).reverse ++ blocks) := by
  induction fs generalizing blocks with
  | nil => rfl
  | cons f fs ih =>
    obtain ⟨hfresh, hnodup⟩ := List.nodup_cons.mp hnodup
    rw [List.flatMap_cons, List.map_append, readLines_append,
      readLines_lines (hfs f List.mem_cons_self) (hnew f List.mem_cons_self), Option.bind_eq_bind,
      Option.bind_some, ih (fun f hf => hfs f (List.mem_cons_of_mem _ hf)) hnodup]
    · simp
    · intro g hg b hb
      rcases List.mem_cons.mp hb with rfl | hb
      · exact fun heq => hfresh (List.mem_map.mpr ⟨g, hg, heq.symm⟩)
      · exact hnew g (List.mem_cons_of_mem _ hg) b hb

theorem read?_lines {lines : List String} (h : ∀ line ∈ lines, '\n' ∉ line.toList) :
    read? (String.join (lines.map (· ++ "\n"))) =
      (readLines [] (lines.map String.toList)).map List.reverse := by
  have htext : (String.join (lines.map (· ++ "\n"))).toList =
      (lines.map String.toList).flatMap fun line => line ++ ['\n'] := by
    rw [String.toList_join, List.flatMap_map, List.flatMap_map]
    simp
  have hlines : ∀ l ∈ lines.map String.toList, '\n' ∉ l := by simpa using h
  rw [read?, htext, Text.parts_ended hlines]
  simp

/-- **A page is read back.** -/
theorem read?_families {fs : List Family} (hfs : ∀ f ∈ fs, Readable f)
    (hnodup : (fs.map Family.name).Nodup) :
    read? (String.join ((fs.flatMap Family.lines).map (· ++ "\n"))) = some (fs.map block) := by
  rw [read?_lines, readLines_families hfs hnodup (by simp)]
  · simp
  · intro line hline
    obtain ⟨f, hf, hline⟩ := List.mem_flatMap.mp hline
    exact not_mem_lines (hfs f hf).name line hline

example : read? "# a page\n\nx 1\ny\x7ba=\"1\", b=\"\\\"\\n\" ,\x7d 2.5e1 -7\n" =
    some [⟨"x", none, none, [⟨[], "1"⟩]⟩,
      ⟨"y", none, none, [⟨[("a", "1"), ("b", "\"\n")], "2.5e1"⟩]⟩] := by
  cbv

end RingCache.Metrics.Format

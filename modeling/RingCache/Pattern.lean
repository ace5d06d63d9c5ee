/-!
# Patterns of text

A pattern describes texts: by characters, sets of characters, repetition, choice and groups. This
module has patterns as they are written down, and how deep their parts lie inside each other.
-/

namespace RingCache

/-- A character that stands for itself. -/
structure Literal where
  char : Char
  /-- whether it is written as a byte, by two digits -/
  isByte : Bool
  deriving DecidableEq

/-- A set of characters. -/
inductive CharSet where
  | empty
  | literal (l : Literal)
  | range (first last : Literal)
  /-- a class by its name, as in `[:alpha:]` -/
  | named (negated : Bool)
  /-- digits, blanks or letters by one letter, as in `\d` -/
  | short (negated : Bool)
  /-- a set between brackets -/
  | bracket (negated : Bool) (set : CharSet)
  /-- sets side by side, of which there are at least two -/
  | union (sets : List CharSet)
  /-- what an operator makes of the sets on its sides -/
  | combine (left right : CharSet)

/-- One set for sets side by side. -/
def CharSet.side : List CharSet → CharSet
  | [] => .empty
  | [set] => set
  | sets => .union sets

/-- The set of what stands behind an operator, or after the opening bracket, the last one first. -/
def CharSet.close (left : Option CharSet) (sets : List CharSet) : CharSet :=
  match left with
  | none => .side sets.reverse
  | some left => .combine left (.side sets.reverse)

/-- What a pattern may switch on and off. -/
inductive Pattern.Flag where
  | ignoreCase
  | multiLine
  | dotMatchesAll
  | lazy
  | unicode
  | carriageReturn
  /-- blanks and comments in the pattern mean nothing -/
  | spaced
  deriving DecidableEq

/-- Flags that are switched on and off; none is in both lists. -/
structure Pattern.Change where
  on : List Pattern.Flag
  off : List Pattern.Flag

/-- A pattern of text. -/
inductive Pattern where
  | empty
  /-- flags for the rest of the group -/
  | change (c : Pattern.Change)
  | literal (l : Literal)
  /-- any character -/
  | any
  /-- a place between characters, perhaps one where a word begins or ends -/
  | anchor (isWordEdge : Bool)
  | set (s : CharSet)
  | repeated (p : Pattern)
  | group (c : Pattern.Change) (p : Pattern)
  /-- patterns one after the other, of which there are at least two -/
  | concat (ps : List Pattern)
  /-- a choice between at least two patterns -/
  | choice (ps : List Pattern)

/-! ### Flags -/

namespace Pattern

def Change.none : Change := ⟨[], []⟩

/-- The state of a flag after a change, from its state before. -/
def Change.apply (c : Change) (flag : Flag) (before : Bool) : Bool :=
  if flag ∈ c.on then true else if flag ∈ c.off then false else before

def Flag.ofChar? : Char → Option Flag
  | 'i' => some .ignoreCase
  | 'm' => some .multiLine
  | 's' => some .dotMatchesAll
  | 'U' => some .lazy
  | 'u' => some .unicode
  | 'R' => some .carriageReturn
  | 'x' => some .spaced
  | _ => Option.none

end Pattern

/-! ### Depth -/

mutual

/-- How deep the parts of a set lie inside each other. -/
def CharSet.depth : CharSet → Nat
  | .bracket _ set => set.depth + 1
  | .union sets => CharSet.depths sets + 1
  | .combine left right => max left.depth right.depth + 1
  | _ => 0

def CharSet.depths : List CharSet → Nat
  | [] => 0
  | set :: sets => max set.depth (CharSet.depths sets)

end

mutual

/-- How deep the parts of a pattern lie inside each other. -/
def Pattern.depth : Pattern → Nat
  | .set s => s.depth
  | .repeated p => p.depth + 1
  | .group _ p => p.depth + 1
  | .concat ps => Pattern.depths ps + 1
  | .choice ps => Pattern.depths ps + 1
  | _ => 0

def Pattern.depths : List Pattern → Nat
  | [] => 0
  | p :: ps => max p.depth (Pattern.depths ps)

end

end RingCache

import RingCache.Pattern.Read

/-!
# Patterns that can be used

A pattern is used on texts of Unicode characters, without data about them at hand. So a pattern
cannot ask for all digits, blanks or letters, nor for characters without regard to their case, unless
it switches to bytes with the flag `-u`. Then in turn it cannot ask for bytes that are no character.
Word edges among Unicode characters are known, but not to be found by a machine that reads one byte
after the other.

`fault?` says what is wrong with a text as a pattern, if anything is.
-/

namespace RingCache.Pattern

/-- What the flags make of characters. -/
structure Mode where
  unicode : Bool
  ignoreCase : Bool

namespace Mode

/-- The mode at the beginning of a pattern. -/
def standard : Mode := ⟨true, false⟩

/-- The mode after a change of flags. -/
def change (m : Mode) (c : Change) : Mode :=
  ⟨c.apply .unicode m.unicode, c.apply .ignoreCase m.ignoreCase⟩

/-- Whether a character can be asked for. Written as a byte it must be one character alone. -/
def allows (m : Mode) (l : Literal) : Bool :=
  if m.unicode then !m.ignoreCase else !l.isByte || l.char.toNat < 128

/-- Whether a character can be in a set. Sets of bytes have bytes below 128 only. -/
def allowsInSet (m : Mode) (l : Literal) : Bool :=
  if m.unicode then !m.ignoreCase else l.char.toNat < 128

mutual

/-- Whether a set can be asked for. The complement of a set of bytes has bytes that are no
character. -/
def allowsSet (m : Mode) : CharSet → Bool
  | .empty => true
  | .literal l => m.allowsInSet l
  | .range first last => m.allowsInSet first && m.allowsInSet last
  | .named negated => if m.unicode then !m.ignoreCase else !negated
  | .short negated => !m.unicode && !negated
  | .bracket negated inner => (m.unicode || !negated) && m.allowsSet inner
  | .union sets => m.allowsSets sets
  | .combine left right => m.allowsSet left && m.allowsSet right

/-- Whether all of some sets can be asked for. -/
def allowsSets (m : Mode) : List CharSet → Bool
  | [] => true
  | first :: others => m.allowsSet first && m.allowsSets others

end

end Mode

mutual

/-- Goes through a pattern in a mode: the mode behind it, and whether the pattern asks for word edges
among Unicode characters. Nothing comes of a pattern that cannot be used. -/
def scan (m : Mode) : Pattern → Option (Mode × Bool)
  | .empty => some (m, false)
  | .change c => some (m.change c, false)
  | .literal l => if m.allows l then some (m, false) else none
  | .any => if m.unicode then some (m, false) else none
  | .anchor isWordEdge => some (m, isWordEdge && m.unicode)
  | .set s => if m.allowsSet s then some (m, false) else none
  | .repeated p => scan m p
  | .group c p => (scan (m.change c) p).map fun (_, edges) => (m, edges)
  | .concat ps => scanAll m ps
  | .choice ps => scanAll m ps

/-- Goes through patterns from left to right. -/
def scanAll (m : Mode) : List Pattern → Option (Mode × Bool)
  | [] => some (m, false)
  | p :: ps => do
    let (m, edges) ← scan m p
    let (m, others) ← scanAll m ps
    some (m, edges || others)

end

/-- Why a text is no pattern that can be used. -/
inductive Fault where
  /-- it is no pattern, or asks for what cannot be asked for -/
  | unusable
  /-- it asks for word edges among Unicode characters -/
  | wordEdge
  deriving DecidableEq

def Fault.message : Fault → String
  | .unusable => "error building NFA"
  | .wordEdge => "unsupported regex feature for DFAs: cannot build DFAs for regexes with Unicode " ++
      "word boundaries; switch to ASCII word boundaries, or heuristically enable Unicode word " ++
      "boundaries or use a different regex engine"

/-- How deep the parts of a pattern may lie inside each other. -/
def maxDepth : Nat := 250

/-- What is wrong with a text as a pattern. -/
def fault? (text : String) : Option Fault :=
  match read? text with
  | none => some .unusable
  | some p =>
    if maxDepth < p.depth then some .unusable
    else
      match scan .standard p with
      | none => some .unusable
      | some (_, true) => some .wordEdge
      | some (_, false) => none

end RingCache.Pattern

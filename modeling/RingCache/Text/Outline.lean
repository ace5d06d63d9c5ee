import RingCache.Text.Quoted

/-!
# Outlines: descriptions of values for people

An outline is the shape in which a value is described in logs and debugging output: words, quoted
texts, records with named fields, variants with positional items, and lists. It is printed on one
line (`compact`) or with one field per line, four blanks per level and a comma after every item
(`pretty`).
-/

namespace RingCache

/-- The description of a value. -/
inductive Outline where
  /-- a word that is printed as it is: a number, a truth value, a duration -/
  | word (text : String)
  /-- a text, printed between quotes -/
  | text (content : String)
  /-- a record: its name and its fields in order -/
  | record (name : String) (fields : List (String × Outline))
  /-- a case of a variant with positional items -/
  | variant (name : String) (items : List Outline)
  /-- a sequence of values -/
  | list (items : List Outline)

namespace Outline

def nat (n : Nat) : Outline := .word (toString n)

def u64 (n : UInt64) : Outline := .nat n.toNat

def bool (b : Bool) : Outline := .word (if b then "true" else "false")

/-! ### On one line -/

mutual

/-- The outline on one line. -/
def compact : Outline → String
  | .word w => w
  | .text content => Text.quote content
  | .record name fields => name ++ " \x7b " ++ compactFields fields ++ " \x7d"
  | .variant name items => name ++ "(" ++ compactItems items ++ ")"
  | .list items => "[" ++ compactItems items ++ "]"

def compactItems : List Outline → String
  | [] => ""
  | [item] => item.compact
  | item :: items => item.compact ++ ", " ++ compactItems items

def compactFields : List (String × Outline) → String
  | [] => ""
  | [(name, value)] => name ++ ": " ++ value.compact
  | (name, value) :: fields => name ++ ": " ++ value.compact ++ ", " ++ compactFields fields

end

/-! ### One field per line -/

/-- The blanks before an item that stands `depth` levels deep. -/
def indent (depth : Nat) : String := String.ofList (List.replicate (4 * depth) ' ')

mutual

/-- The outline over several lines, its first line standing `depth` levels deep. -/
def prettyAt (depth : Nat) : Outline → String
  | .word w => w
  | .text content => Text.quote content
  | .record name fields =>
    name ++ " \x7b\n" ++ prettyFields (depth + 1) fields ++ indent depth ++ "\x7d"
  | .variant name items =>
    name ++ "(\n" ++ prettyItems (depth + 1) items ++ indent depth ++ ")"
  | .list [] => "[]"
  | .list items => "[\n" ++ prettyItems (depth + 1) items ++ indent depth ++ "]"

/-- Items, one per line and each with its comma. -/
def prettyItems (depth : Nat) : List Outline → String
  | [] => ""
  | item :: items =>
    indent depth ++ item.prettyAt depth ++ ",\n" ++ prettyItems depth items

/-- Named fields, one per line and each with its comma. -/
def prettyFields (depth : Nat) : List (String × Outline) → String
  | [] => ""
  | (name, value) :: fields =>
    indent depth ++ name ++ ": " ++ value.prettyAt depth ++ ",\n" ++ prettyFields depth fields

end

/-- The outline with one field per line. -/
def pretty (o : Outline) : String := o.prettyAt 0

end RingCache.Outline

import RingCache.Number.Numeral
import RingCache.Number.Shortest
import RingCache.Text.Quoted

/-!
# JSON text

A value of the data format and its compact text: no blanks, entries of objects in the order in which
they are given. The name of an entry must be a text; a structure whose names are something else has
no JSON text, which is the one way in which rendering fails.
-/

namespace RingCache

/-- A value of the data format. Names of entries are values too, as a structure may have any. -/
inductive Json where
  | null
  | bool (b : Bool)
  | whole (n : Int)
  | real (x : Binary64)
  | text (s : String)
  | array (items : List Json)
  | object (entries : List (Json × Json))

namespace Json

/-- Why a value has no text. -/
inductive Fault where
  /-- an entry of an object is named by something other than a text -/
  | nameNotText
  deriving DecidableEq

def Fault.message : Fault → String
  | .nameNotText => "key must be a string"

def u64 (n : UInt64) : Json := .whole n.toNat

/-- An object with the entries in the order given. -/
def record (entries : List (String × Json)) : Json :=
  .object (entries.map fun (name, value) => (.text name, value))

/-- An object with the entries in increasing order of their names. -/
def sorted (entries : List (String × Json)) : Json :=
  record (entries.mergeSort fun a b => decide (a.1 ≤ b.1))

/-! ### Texts -/

/-- The written form of one character of a text: quote and backslash escaped, control characters by
a letter or by four hexadecimal digits. -/
def encodeChar (c : Char) : List Char :=
  match c with
  | '"' => ['\\', '"']
  | '\\' => ['\\', '\\']
  | '\x08' => ['\\', 'b']
  | '\t' => ['\\', 't']
  | '\n' => ['\\', 'n']
  | '\x0c' => ['\\', 'f']
  | '\r' => ['\\', 'r']
  | c =>
    if c.toNat < 32 then
      ['\\', 'u', '0', '0', Text.hexDigit (c.toNat / 16), Text.hexDigit (c.toNat % 16)]
    else [c]

/-- A text between quotes, escaped. -/
def quote (s : String) : String :=
  String.ofList ('"' :: s.toList.flatMap encodeChar ++ ['"'])

/-! ### Numbers -/

/-- A binary number in shortest digits: with a point and at least one digit on each side of it for
magnitudes from `10 ^ -5` up to `10 ^ 16`, else with an exponent, which has a sign. -/
def realText (x : Binary64) : String :=
  let d := x.shortest
  let digits := toString d.digits
  let before : Int := digits.length + d.scale
  let text :=
    if d.digits = 0 then "0.0"
    else if 0 ≤ d.scale ∧ before ≤ 16 then digits ++ Binary64.zeros d.scale.toNat ++ ".0"
    else if -5 < before ∧ before ≤ 16 then Binary64.pointed digits before
    else
      let fraction := if digits.length = 1 then digits else Binary64.pointed digits 1
      fraction ++ (if 0 < before then "e+" else "e") ++ toString (before - 1)
  if x.negative then "-" ++ text else text

/-- A written number as a value: whole where it is written so and fits a machine word, with a sign
if it is negative; else a binary number, if it is not too large. Zero with a sign is a binary
number. -/
def ofNumeral? (n : Numeral) : Option Json :=
  let v := n.wholeValue
  if n.isWhole && !n.negative && v < UInt64.size then some (.whole v)
  else if n.isWhole && n.negative && 0 < v && v ≤ UInt64.size / 2 then some (.whole (-(v : Int)))
  else n.read?.map .real

/-! ### Values -/

mutual

/-- The compact text of a value. -/
def render : Json → Except Fault String
  | .null => .ok "null"
  | .bool b => .ok (if b then "true" else "false")
  | .whole n => .ok (toString n)
  | .real x => .ok (realText x)
  | .text s => .ok (quote s)
  | .array items => do
    let inner ← renderItems items
    pure ("[" ++ inner ++ "]")
  | .object entries => do
    let inner ← renderEntries entries
    pure ("\x7b" ++ inner ++ "\x7d")

def renderItems : List Json → Except Fault String
  | [] => .ok ""
  | [item] => item.render
  | item :: items => do
    let first ← item.render
    let others ← renderItems items
    pure (first ++ "," ++ others)

def renderEntries : List (Json × Json) → Except Fault String
  | [] => .ok ""
  | [(name, value)] => renderEntry name value
  | (name, value) :: entries => do
    let first ← renderEntry name value
    let others ← renderEntries entries
    pure (first ++ "," ++ others)

/-- One entry: a name that is a text, and a value. -/
def renderEntry : Json → Json → Except Fault String
  | .text name, value => do
    let inner ← value.render
    pure (quote name ++ ":" ++ inner)
  | _, _ => .error .nameNotText

end

end RingCache.Json

import RingCache.Text.Parts
import RingCache.Text.Percent

/-!
# Fields of a query

A query is a row of fields between ampersands, each a name and, after the first equals sign, a
value. In a value a plus sign stands for a blank, and percent encoding for any byte; names stand as
they are written. A field without an equals sign has the empty value.
-/

namespace RingCache.Text.Form

/-- The text of a value, if its bytes are one. -/
def decode? (value : List Char) : Option String :=
  (Percent.decode (String.ofList (value.map fun c => if c = '+' then ' ' else c))).toOption

/-- The text of the first field that has the name and whose value is a text. -/
def field? (name query : String) : Option String :=
  (parts '&' query.toList).findSome? fun field =>
    let (n, value) := cut '=' field
    if n = name.toList then decode? (value.getD []) else none

end RingCache.Text.Form

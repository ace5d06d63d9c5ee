/-!
# Decimal numbers in text

Whole numbers are digits and nothing else, perhaps with a plus sign in front (`unsigned?`). Numbers
of any kind (`isNumber`) may have another sign, a point and a power of ten.
-/

namespace RingCache.Text

/-- The number that digits make, of which there must be at least one and nothing else. -/
def digits? (cs : List Char) : Option Nat :=
  if cs.isEmpty || !cs.all Char.isDigit then none
  else some (cs.foldl (fun n c => n * 10 + (c.toNat - 48)) 0)

/-- A number from zero up to `most`; a plus sign may stand before it. -/
def unsigned? (most : Nat) (s : String) : Option Nat := do
  let n ← digits? (match s.toList with
    | '+' :: cs => cs
    | cs => cs)
  if n ≤ most then some n else none

/-- A text without a sign in front. -/
def unsign : List Char → List Char
  | '+' :: cs => cs
  | '-' :: cs => cs
  | cs => cs

/-- Whether a text is empty or a power of ten. -/
def isPower : List Char → Bool
  | [] => true
  | c :: cs => (c = 'e' || c = 'E') && (digits? (unsign cs)).isSome

/-- Whether a text is a number: digits with at most one point, which may stand first or last, and
perhaps a power of ten; or a word for what is no finite number. -/
def isNumber (s : String) : Bool :=
  let cs := unsign s.toList
  let whole := cs.takeWhile Char.isDigit
  let (places, rest) := match cs.dropWhile Char.isDigit with
    | '.' :: rest => (rest.takeWhile Char.isDigit, rest.dropWhile Char.isDigit)
    | rest => ([], rest)
  (!(whole.isEmpty && places.isEmpty) && isPower rest) ||
    (String.ofList cs).toLower ∈ ["inf", "infinity", "nan"]

end RingCache.Text

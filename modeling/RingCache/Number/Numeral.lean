import RingCache.Number.Binary64

/-!
# Written numbers

A numeral is a number as it is written: digits, a point with more digits, a power of ten. It is read
as a binary number in three roundings. Its digits make a significand that fits a machine word, and
digits that do not fit are left out; the significand and the power of ten are each rounded to a
binary number, and so is their product or quotient. With up to fifteen digits and a power of ten up
to 22 both parts are exact, and the result is the nearest binary number; otherwise it may be a
neighbour of that.
-/

namespace RingCache

/-- A number as it is written. -/
structure Numeral where
  negative : Bool
  /-- the digits before the point -/
  whole : List Nat
  /-- the digits after the point, if there is one -/
  places : Option (List Nat)
  /-- the power of ten, if there is one -/
  exponent : Option Int

/-- The number `value · 10 ^ scale`, without a sign. -/
structure Significand where
  value : Nat
  scale : Int

namespace Significand

/-- Takes digits before the point. From the first one on that does not fit, they only count. -/
def takeWhole (s : Significand) : List Nat → Significand
  | [] => s
  | digit :: digits =>
    let value := s.value * 10 + digit
    if value < UInt64.size then takeWhole ⟨value, s.scale⟩ digits
    else ⟨s.value, s.scale + (digits.length + 1)⟩

/-- Takes digits after the point. From the first one on that does not fit, they are left out. -/
def takePlaces (s : Significand) : List Nat → Significand
  | [] => s
  | digit :: digits =>
    let value := s.value * 10 + digit
    if value < UInt64.size then takePlaces ⟨value, s.scale - 1⟩ digits else s

end Significand

namespace Binary64

/-- `x · 10 ^ scale`, if that is not too large. Powers of ten up to 308 are numbers of the format; a
smaller one is divided by in steps, until nothing is left to divide. -/
def scaled? (x : Binary64) (scale : Int) : Option Binary64 :=
  if 0 ≤ scale then
    if scale ≤ 308 then
      let y := x.mul (ofNat (pow10 scale))
      if y.isFinite then some y else none
    else if x.mantissa = 0 then some x
    else none
  else if -308 ≤ scale then some (x.div (ofNat (pow10 (-scale))))
  else if x.mantissa = 0 then some x
  else scaled? (x.div (ofNat (pow10 308))) (scale + 308)
termination_by scale.natAbs
decreasing_by omega

end Binary64

namespace Numeral

/-- Whether a numeral has neither a point nor a power of ten. -/
def isWhole (n : Numeral) : Bool := n.places.isNone && n.exponent.isNone

/-- The number before the point. -/
def wholeValue (n : Numeral) : Nat := n.whole.foldl (fun v digit => v * 10 + digit) 0

def significand (n : Numeral) : Significand :=
  let s := (Significand.takeWhole ⟨0, 0⟩ n.whole).takePlaces (n.places.getD [])
  ⟨s.value, s.scale + n.exponent.getD 0⟩

/-- The binary number that a numeral is read as; none if it is too large. -/
def read? (n : Numeral) : Option Binary64 :=
  let s := n.significand
  ((Binary64.ofNat s.value).scaled? s.scale).map fun x => { x with negative := n.negative }

end Numeral

end RingCache

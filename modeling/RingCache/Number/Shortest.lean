import RingCache.Number.Binary64

/-!
# The fewest decimal digits that read back

A binary number stands for every real number that rounds to it: those nearer to it than to its
neighbours, and the points half-way if its mantissa is even. Of the decimal numbers in this interval
the ones with the fewest digits are taken, and of those the nearest; of two equally near ones, the
one with the even last digit.

Multiples of `10 ^ k` form a grid. If any of them lies in the interval, so does one of the two next
to the number; so the coarsest grid with a hit gives the fewest digits.
-/

namespace RingCache.Binary64

/-- `digits · 10 ^ scale`. -/
structure Decimal where
  digits : Nat
  scale : Int
  deriving DecidableEq

/-- The multiple of `10 ^ k` that reads back as the positive number `x`, if there is one: the nearer
one of the two next to `x`. Lengths are counted in quarters of the distance to the next larger
number; below a power of two the distance to the next smaller one is half as long. -/
def onGrid? (x : Binary64) (k : Int) : Option Nat :=
  let e := x.exponent - 2
  let unit := pow2 e * pow10 (-k)
  let step := pow2 (-e) * pow10 k
  let value := 4 * x.mantissa * unit
  let down := if x.mantissa = fullMantissa ∧ -1074 < x.exponent then 1 else 2
  let reads (c : Nat) : Bool :=
    let low := (4 * x.mantissa - down) * unit
    let high := (4 * x.mantissa + 2) * unit
    if x.mantissa % 2 = 0 then low ≤ c * step && c * step ≤ high
    else low < c * step && c * step < high
  let c := value / step
  let nearest := divRound value step
  if reads nearest then some nearest
  else if reads c then some c
  else if reads (c + 1) then some (c + 1)
  else none

/-- The first grid with a hit among those from `10 ^ k` down, `count` of them. -/
def coarsest (x : Binary64) : Nat → Int → Decimal
  | 0, k => ⟨0, k⟩
  | count + 1, k =>
    match x.onGrid? k with
    | some digits => if digits = 0 then coarsest x count (k - 1) else ⟨digits, k⟩
    | none => coarsest x count (k - 1)

/-- The shortest decimal that reads back as `x`, without the sign. The first grid is coarser than the
number is large, and 17 digits are always enough. -/
def shortest (x : Binary64) : Decimal :=
  if x.mantissa = 0 then ⟨0, 0⟩
  else
    let bits := (x.mantissa.log2 : Int) + 1 + x.exponent
    coarsest x 20 ((bits * 30103).fdiv 100000 + 1)

def zeros (n : Nat) : String := String.ofList (List.replicate n '0')

/-- The digits with a point after the first `before` of them, which may be none or fewer. -/
def pointed (digits : String) (before : Int) : String :=
  if before ≤ 0 then "0." ++ zeros (-before).toNat ++ digits
  else
    String.ofList (digits.toList.take before.toNat) ++ "." ++
      String.ofList (digits.toList.drop before.toNat)

/-- The number in shortest digits, without an exponent and without a point where it is whole. -/
def positional (x : Binary64) : String :=
  let d := x.shortest
  let digits := toString d.digits
  let sign := if x.negative then "-" else ""
  if 0 ≤ d.scale then sign ++ digits ++ zeros (if d.digits = 0 then 0 else d.scale.toNat)
  else sign ++ pointed digits (digits.length + d.scale)

end RingCache.Binary64

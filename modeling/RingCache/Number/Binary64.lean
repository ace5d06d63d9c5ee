/-!
# Binary floating-point numbers of 64 bits

The finite numbers `± mantissa · 2 ^ exponent` with a mantissa below `2 ^ 53` and exponents from
-1074 to 971, and their bit patterns. Numbers come from exact ratios of natural numbers, rounded to
the nearest number of the format; of two equally near ones, to that with the even mantissa.
All arithmetic here is exact arithmetic on natural numbers.
-/

namespace RingCache

/-- A finite binary floating-point number. The mantissa is below `2 ^ 53`, and at least `2 ^ 52`
unless the exponent is -1074. -/
structure Binary64 where
  negative : Bool
  mantissa : Nat
  exponent : Int
  deriving DecidableEq

namespace Binary64

def zero : Binary64 := ⟨false, 0, -1074⟩

/-- `2 ^ e`, or one where `e` is negative. -/
def pow2 (e : Int) : Nat := Nat.pow 2 e.toNat

/-- `10 ^ k`, or one where `k` is negative. -/
def pow10 (k : Int) : Nat := Nat.pow 10 k.toNat

/-- `2 ^ 52`, the least mantissa of a number that is not among the smallest. -/
def fullMantissa : Nat := 4503599627370496

/-- The nearest natural number to `num / den`; of two, the even one. -/
def divRound (num den : Nat) : Nat :=
  let q := num / den
  let twice := 2 * (num % den)
  if twice < den then q
  else if den < twice then q + 1
  else q + q % 2

/-- The exponent of the number nearest to `num / den`, rounding apart: the quotient by its power of
two is at least `2 ^ 52` and below `2 ^ 53`, or the exponent is the least. -/
def exponentOf (num den : Nat) : Int :=
  let e := (num.log2 : Int) - den.log2 - 52
  let e := if num * pow2 (-e) / (den * pow2 e) < fullMantissa then e - 1 else e
  max e (-1074)

/-- Whether a number is not above the largest one of the format. -/
def isFinite (x : Binary64) : Bool := x.exponent ≤ 971

/-- The number nearest to `num / den`; one that is not `isFinite` where that is too large. -/
def ofRatio (num den : Nat) : Binary64 :=
  if num = 0 ∨ den = 0 then zero
  else
    let e := exponentOf num den
    let m := divRound (num * pow2 (-e)) (den * pow2 e)
    if m = 2 * fullMantissa then ⟨false, fullMantissa, e + 1⟩ else ⟨false, m, e⟩

/-- The number nearest to a natural number. -/
def ofNat (n : Nat) : Binary64 := ofRatio n 1

/-- The product of two numbers that are not negative; one that is not `isFinite` where it is too
large. -/
def mul (a b : Binary64) : Binary64 :=
  let e := a.exponent + b.exponent
  ofRatio (a.mantissa * b.mantissa * pow2 e) (pow2 (-e))

/-- The quotient of two numbers that are not negative; zero where the divisor is zero. -/
def div (a b : Binary64) : Binary64 :=
  ofRatio (a.mantissa * pow2 (a.exponent - b.exponent))
    (b.mantissa * pow2 (b.exponent - a.exponent))

/-- The bit pattern: sign, biased exponent and fraction. -/
def toBits (x : Binary64) : UInt64 :=
  let sign := if x.negative then 9223372036854775808 else 0
  let magnitude :=
    if x.mantissa < fullMantissa then x.mantissa
    else (x.exponent + 1075).toNat * fullMantissa + (x.mantissa - fullMantissa)
  UInt64.ofNat (sign + magnitude)

end RingCache.Binary64

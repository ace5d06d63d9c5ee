/-!
# Tables of characters

A large class of characters is a table of closed ranges of codes, in increasing order and apart from
each other. Membership (`Ranges.covers`) is decided by halving.
-/

namespace RingCache.Text

/-- Closed ranges of codes, in increasing order and apart from each other. -/
abbrev Ranges := Array (Nat × Nat)

namespace Ranges

/-- Whether `n` lies in one of the ranges from index `lo` up to, and without, index `hi`. Each step
halves the stretch, so `fuel` may be any number with `hi - lo < 2 ^ fuel`. -/
def search (ranges : Ranges) (n : Nat) : Nat → Nat → Nat → Bool
  | 0, _, _ => false
  | fuel + 1, lo, hi =>
    if lo < hi then
      let mid := (lo + hi) / 2
      match ranges[mid]? with
      | none => false
      | some (first, last) =>
        if n < first then search ranges n fuel lo mid
        else if last < n then search ranges n fuel (mid + 1) hi
        else true
    else false

/-- Whether a character is in one of the ranges. -/
def covers (ranges : Ranges) (c : Char) : Bool :=
  search ranges c.toNat (ranges.size.log2 + 1) 0 ranges.size

end Ranges

end RingCache.Text

import RingCache.Ring.Crc32

/-!
# Hash functions of a ring

A ring takes any function from bytes to 32-bit words. CRC-32 is what nodes use; the others place
keys by eye: by a decimal number, by length, by the sum of the bytes, or all at one point.
-/

namespace RingCache.Ring

/-- A function that places bytes on the ring. -/
abbrev Hash := ByteArray → UInt32

namespace Hash

/-- CRC-32, the hash of every node. -/
def crc32 : Hash := Crc32.ofBytes

/-- The number that decimal digits write, if there is at least one and the number is below `2^32`. -/
def readDecimal? (digits : List UInt8) : Option Nat :=
  if digits.isEmpty then none
  else digits.foldlM (fun n b =>
    if 48 ≤ b ∧ b ≤ 57 then
      let n := n * 10 + (b.toNat - 48)
      if n < UInt32.size then some n else none
    else none) 0

/-- The decimal number that the bytes write, with an optional plus sign in front; zero for anything
that is no such number or is `2^32` or more. -/
def decimal : Hash := fun bytes =>
  let digits := match bytes.data.toList with
    | 43 :: rest => rest
    | all => all
  UInt32.ofNat ((readDecimal? digits).getD 0)

def length : Hash := fun bytes => UInt32.ofNat bytes.size

def sum : Hash := fun bytes => bytes.foldl (fun n b => n + b.toUInt32) 0

/-- The same point for all bytes. -/
def constant (n : UInt32) : Hash := fun _ => n

end RingCache.Ring.Hash

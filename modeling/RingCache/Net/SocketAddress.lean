import RingCache.Text.Parts

/-!
# Socket addresses

An internet address and a port, in the usual notations: `127.0.0.1:80` and `[::1]:80`. In version 4
there are four decimal numbers without leading zeros. In version 6 there are eight groups of up to
four hexadecimal digits, of which one run of zeros may be left out, the last two may be written as
an address of version 4, and the number of an interface may follow a percent sign. A port has
decimal digits only. Nothing may stand before or after the address.
-/

namespace RingCache.Net

/-- An internet address. -/
inductive Ip where
  /-- four numbers below 256 -/
  | v4 (a b c d : UInt8)
  /-- eight groups below 65536, and the number of an interface, or zero for none -/
  | v6 (groups : List UInt16) (scope : Nat)
  deriving DecidableEq

/-- An internet address and a port. -/
structure SocketAddress where
  ip : Ip
  port : UInt16
  deriving DecidableEq

namespace SocketAddress

/-! ### Reading

Each reader takes its part off the front and gives the part and the rest, or nothing. -/

/-- The value of a digit to a base up to sixteen. -/
def digit? (base : Nat) (c : Char) : Option Nat :=
  let value :=
    if '0' ≤ c ∧ c ≤ '9' then some (c.toNat - 48)
    else if 'a' ≤ c ∧ c ≤ 'f' then some (c.toNat - 87)
    else if 'A' ≤ c ∧ c ≤ 'F' then some (c.toNat - 55)
    else none
  value.filter (· < base)

/-- A number below `bound`, in all digits that stand there, which must be at least one. -/
def number (base bound : Nat) (cs : List Char) : Option (Nat × List Char) :=
  let digits := cs.takeWhile fun c => (digit? base c).isSome
  let value := digits.foldl (fun n c => n * base + (digit? base c).getD 0) 0
  if digits.isEmpty ∨ bound ≤ value then none else some (value, cs.drop digits.length)

/-- One number of an address of version 4: at most three digits, and no leading zero. -/
def octet (cs : List Char) : Option (UInt8 × List Char) := do
  let (n, rest) ← number 10 256 cs
  let digits := cs.length - rest.length
  if 3 < digits ∨ (1 < digits ∧ cs.head? = some '0') then none
  else some (UInt8.ofNat n, rest)

def mark (c : Char) : List Char → Option (List Char)
  | d :: rest => if c = d then some rest else none
  | [] => none

def v4 (cs : List Char) : Option ((UInt8 × UInt8 × UInt8 × UInt8) × List Char) := do
  let (a, cs) ← octet cs
  let (b, cs) ← octet (← mark '.' cs)
  let (c, cs) ← octet (← mark '.' cs)
  let (d, cs) ← octet (← mark '.' cs)
  some ((a, b, c, d), cs)

/-- One group of an address of version 6: at most four digits. -/
def group (cs : List Char) : Option (UInt16 × List Char) := do
  let (n, rest) ← number 16 65536 cs
  if 4 < cs.length - rest.length then none else some (UInt16.ofNat n, rest)

/-- As many groups as there are, but at most `room`; the flag says that the last two were written as
an address of version 4. Colons stand between groups. -/
def groups : Nat → Bool → List Char → List UInt16 × Bool × List Char
  | 0, _, cs => ([], false, cs)
  | room + 1, isFirst, cs =>
    match if isFirst then some cs else mark ':' cs with
    | none => ([], false, cs)
    | some inner =>
      match if room = 0 then none else v4 inner with
      | some ((a, b, c, d), rest) =>
        ([a.toUInt16 * 256 + b.toUInt16, c.toUInt16 * 256 + d.toUInt16], true, rest)
      | none =>
        match group inner with
        | none => ([], false, cs)
        | some (g, rest) =>
          let (others, mapped, rest) := groups room false rest
          (g :: others, mapped, rest)

/-- The eight groups of an address of version 6. -/
def v6 (cs : List Char) : Option ((List UInt16) × List Char) := do
  let (head, mapped, rest) := groups 8 true cs
  if head.length = 8 then some (head, rest)
  else if mapped then none
  else
    let rest ← mark ':' (← mark ':' rest)
    let (tail, _, rest) := groups (7 - head.length) true rest
    some (head ++ List.replicate (8 - head.length - tail.length) 0 ++ tail, rest)

/-- The number of an interface after a percent sign, if one stands there. -/
def scope (cs : List Char) : Nat × List Char :=
  match mark '%' cs >>= number 10 UInt32.size with
  | some read => read
  | none => (0, cs)

def readPort (cs : List Char) : Option UInt16 := do
  let (n, rest) ← number 10 65536 (← mark ':' cs)
  if rest.isEmpty then some (UInt16.ofNat n) else none

def parse? (s : String) : Option SocketAddress :=
  let asV4 := do
    let ((a, b, c, d), rest) ← v4 s.toList
    let p ← readPort rest
    some ⟨.v4 a b c d, p⟩
  let asV6 := do
    let (gs, rest) ← v6 (← mark '[' s.toList)
    let (scope, rest) := scope rest
    let p ← readPort (← mark ']' rest)
    some ⟨.v6 gs scope, p⟩
  asV4 <|> asV6

/-! ### Writing -/

def v4Text (a b c d : UInt8) : String :=
  s!"{a.toNat}.{b.toNat}.{c.toNat}.{d.toNat}"

/-- Groups in lower-case hexadecimal digits, between colons. -/
def groupsText (gs : List UInt16) : String :=
  ":".intercalate (gs.map fun g => String.ofList (Nat.toDigits 16 g.toNat))

/-- The first of the longest runs of zeros: where it starts and how long it is. -/
def longestZeros : Nat → List UInt16 → Nat × Nat
  | _, [] => (0, 0)
  | i, g :: gs =>
    let here := ((g :: gs).takeWhile (· = 0)).length
    let later := longestZeros (i + 1) gs
    if later.2 ≤ here ∧ 0 < here then (i, here) else later

/-- The text of an address of version 6: the longest run of at least two zeros is left out, and an
address of version 4 in the last two groups is written as one. -/
def v6Text (gs : List UInt16) : String :=
  match gs with
  | [0, 0, 0, 0, 0, 0xFFFF, g, h] =>
    "::ffff:" ++ v4Text (g / 256).toUInt8 (g % 256).toUInt8 (h / 256).toUInt8 (h % 256).toUInt8
  | gs =>
    let (start, length) := longestZeros 0 gs
    if 1 < length then groupsText (gs.take start) ++ "::" ++ groupsText (gs.drop (start + length))
    else groupsText gs

def text (a : SocketAddress) : String :=
  match a.ip with
  | .v4 p q r s => v4Text p q r s ++ ":" ++ toString a.port.toNat
  | .v6 gs 0 => "[" ++ v6Text gs ++ "]:" ++ toString a.port.toNat
  | .v6 gs scope => "[" ++ v6Text gs ++ "%" ++ toString scope ++ "]:" ++ toString a.port.toNat

end RingCache.Net.SocketAddress

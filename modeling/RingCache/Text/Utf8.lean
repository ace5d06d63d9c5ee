/-!
# UTF-8, its faults, and reading it anyway

`scan` looks at the front of a byte list and finds a whole character, an ill-formed part, or the cut
off beginning of a character. A part is *ill-formed* up to and without the first byte that no
character could have there; so the part is as long as it can be while it is still the beginning of
some character, and at least one byte.

* `text?` reads bytes as text or names the first fault.
* `mend` reads bytes as text with U+FFFD in the place of each ill-formed or cut-off part.
-/

namespace RingCache.Text.Utf8

/-- What a lead byte announces: how many bytes follow it, and the range of the first of those. -/
structure Form where
  /-- how many bytes are still to come -/
  rest : Nat
  /-- the least value of the next byte -/
  low : UInt8
  /-- the greatest value of the next byte -/
  high : UInt8
  /-- the bits of the code point that have been read -/
  bits : Nat

/-- The form that a lead byte announces. The narrowed ranges shut out overlong forms, surrogates and
code points past U+10FFFF. -/
def Form.ofLead? (b : UInt8) : Option Form :=
  if b < 0x80 then some ⟨0, 0x80, 0xBF, b.toNat⟩
  else if b < 0xC2 then none
  else if b < 0xE0 then some ⟨1, 0x80, 0xBF, b.toNat - 0xC0⟩
  else if b = 0xE0 then some ⟨2, 0xA0, 0xBF, 0⟩
  else if b = 0xED then some ⟨2, 0x80, 0x9F, 0xD⟩
  else if b < 0xF0 then some ⟨2, 0x80, 0xBF, b.toNat - 0xE0⟩
  else if b = 0xF0 then some ⟨3, 0x90, 0xBF, 0⟩
  else if b < 0xF4 then some ⟨3, 0x80, 0xBF, b.toNat - 0xF0⟩
  else if b = 0xF4 then some ⟨3, 0x80, 0x8F, 4⟩
  else none

/-- What stands at the front of a byte list. -/
inductive Part where
  /-- a character and the number of its bytes -/
  | whole (c : Char) (size : Nat)
  /-- bytes that begin no character, or begin one that does not go on -/
  | illFormed (size : Nat)
  /-- the beginning of a character, up to the end of the list -/
  | cutOff

/-- Reads what must follow according to a form, after `size` bytes. -/
def follow : Nat → UInt8 → UInt8 → Nat → Nat → List UInt8 → Part
  | 0, _, _, bits, size, _ => .whole (Char.ofNat bits) size
  | _ + 1, _, _, _, _, [] => .cutOff
  | rest + 1, low, high, bits, size, b :: bs =>
    if low ≤ b ∧ b ≤ high then
      follow rest 0x80 0xBF (bits * 64 + (b.toNat - 0x80)) (size + 1) bs
    else .illFormed size

/-- The part at the front of `b :: bs`. -/
def scan (b : UInt8) (bs : List UInt8) : Part :=
  match Form.ofLead? b with
  | none => .illFormed 1
  | some form => follow form.rest form.low form.high form.bits 1 bs

/-! ### The first fault -/

/-- Why bytes are not text. -/
inductive Fault where
  /-- an ill-formed part of `size` bytes at `start` -/
  | illFormed (size start : Nat)
  /-- the beginning of a character at `start`, and nothing after it -/
  | cutOff (start : Nat)
  deriving DecidableEq

def Fault.message : Fault → String
  | .illFormed size start => s!"invalid utf-8 sequence of {size} bytes from index {start}"
  | .cutOff start => s!"incomplete utf-8 byte sequence from index {start}"

/-- The first fault at or after `start`, where `bytes` begin. Text without a fault counts as cut off
at its end. -/
def faultFrom (start : Nat) : List UInt8 → Fault
  | [] => .cutOff start
  | b :: bs =>
    match scan b bs with
    | .whole _ size => faultFrom (start + size) (bs.drop (size - 1))
    | .illFormed size => .illFormed size start
    | .cutOff => .cutOff start
termination_by bytes => bytes.length
decreasing_by simp only [List.length_drop, List.length_cons]; omega

/-- The text that the bytes encode, or their first fault. -/
def text? (bytes : ByteArray) : Except Fault String :=
  match String.fromUTF8? bytes with
  | some s => .ok s
  | none => .error (faultFrom 0 bytes.data.toList)

/-! ### Reading anyway -/

/-- Appends what the bytes encode to `out`, with U+FFFD for each part that is no character. -/
def mendFrom (out : String) : List UInt8 → String
  | [] => out
  | b :: bs =>
    match scan b bs with
    | .whole c size => mendFrom (out.push c) (bs.drop (size - 1))
    | .illFormed size => mendFrom (out.push '\uFFFD') (bs.drop (size - 1))
    | .cutOff => out.push '\uFFFD'
termination_by bytes => bytes.length
decreasing_by all_goals (simp only [List.length_drop, List.length_cons]; omega)

/-- The bytes as text, with U+FFFD for each part that is no character. -/
def mend (bytes : ByteArray) : String := mendFrom "" bytes.data.toList

end RingCache.Text.Utf8

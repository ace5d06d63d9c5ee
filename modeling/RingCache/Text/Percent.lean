import RingCache.Text.Utf8

/-!
# Percent encoding

A segment of a path or a value of a query holds any text: letters, digits and `-_.~` stand for
themselves, and every other byte of the UTF-8 form is written as `%` and two upper-case hexadecimal
digits. `bytes` undoes this, in either case of the digits; a `%` that two digits do not follow
stands for itself.
-/

namespace RingCache.Text.Percent

/-- Whether a byte stands for itself. -/
def isPlain (b : UInt8) : Bool :=
  (48 ≤ b && b ≤ 57) || (65 ≤ b && b ≤ 90) || (97 ≤ b && b ≤ 122) ||
    b == 45 || b == 46 || b == 95 || b == 126

/-- The upper-case hexadecimal digit for `n` below sixteen. -/
def digit (n : UInt8) : UInt8 := if n < 10 then 48 + n else 55 + n

def encodeByte (b : UInt8) : List UInt8 :=
  if isPlain b then [b] else [37, digit (b / 16), digit (b % 16)]

def encode (s : String) : String :=
  String.ofList ((s.toUTF8.data.toList.flatMap encodeByte).map fun b => Char.ofNat b.toNat)

/-- The value of a hexadecimal digit. -/
def value? (b : UInt8) : Option UInt8 :=
  if 48 ≤ b ∧ b ≤ 57 then some (b - 48)
  else if 65 ≤ b ∧ b ≤ 70 then some (b - 55)
  else if 97 ≤ b ∧ b ≤ 102 then some (b - 87)
  else none

/-- The bytes that a written form stands for. -/
def decodeBytes : List UInt8 → List UInt8
  | [] => []
  | 37 :: hi :: lo :: rest =>
    match value? hi, value? lo with
    | some h, some l => (h * 16 + l) :: decodeBytes rest
    | _, _ => 37 :: decodeBytes (hi :: lo :: rest)
  | b :: rest => b :: decodeBytes rest

/-- The bytes that the text of a segment stands for. -/
def bytes (segment : String) : ByteArray :=
  ⟨(decodeBytes segment.toUTF8.data.toList).toArray⟩

/-- The text that the text of a segment stands for, or why its bytes are no text. -/
def decode (segment : String) : Except Utf8.Fault String := Utf8.text? (bytes segment)

end RingCache.Text.Percent

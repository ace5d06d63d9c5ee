import RingCache.Text.Escaped

/-!
# Quoted text

How a text is shown inside a description of a value: between double quotes, with the quote, the
backslash and the common control characters as two-character escapes, and every other character
that would not show (`isEscaped`) as `\u{…}` with the lower-case hexadecimal digits of its code.
-/

namespace RingCache.Text

/-- The digit for `n` below sixteen, in lower case. -/
def hexDigit (n : Nat) : Char :=
  if n < 10 then Char.ofNat (48 + n) else Char.ofNat (87 + n)

/-- The lower-case hexadecimal digits of `n`, without leading zeros. -/
def hexDigits (n : Nat) : List Char := Nat.toDigits 16 n

/-- The two lower-case hexadecimal digits of a byte. -/
def hexByte (b : UInt8) : List Char := [hexDigit (b.toNat / 16), hexDigit (b.toNat % 16)]

namespace Quoted

def encodeChar (c : Char) : List Char :=
  match c with
  | '\x00' => ['\\', '0']
  | '\t' => ['\\', 't']
  | '\n' => ['\\', 'n']
  | '\r' => ['\\', 'r']
  | '"' => ['\\', '"']
  | '\\' => ['\\', '\\']
  | c => if isEscaped c then ['\\', 'u', '{'] ++ hexDigits c.toNat ++ ['}'] else [c]

/-- The written form of a text, without the quotes around it. -/
def encode (cs : List Char) : List Char := cs.flatMap encodeChar

end Quoted

/-- A text between quotes, escaped. -/
def quote (s : String) : String :=
  String.ofList ('"' :: Quoted.encode s.toList ++ ['"'])

end RingCache.Text

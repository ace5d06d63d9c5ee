import RingCache.Text.Outline
import RingCache.Text.Utf8

/-!
# Cached values

A value is a sequence of bytes that nobody changes once it is made. Its description shows its length
only, so that no content reaches a log.
-/

namespace RingCache

/-- A sequence of bytes. -/
structure Value where
  bytes : ByteArray

/-- Values are equal if their bytes are. -/
instance : DecidableEq Value := fun a b =>
  match ByteArray.instDecidableEq a.bytes b.bytes with
  | isTrue h => isTrue (by cases a; cases b; cases h; rfl)
  | isFalse h => isFalse (fun e => h (congrArg Value.bytes e))

/-- Things whose size in bytes counts against a budget. -/
class ByteSize (α : Type) where
  byteSize : α → Nat

namespace Value

/-- The bytes of a text. -/
def ofString (s : String) : Value := ⟨s.toUTF8⟩

def empty : Value := ⟨ByteArray.empty⟩

instance : Inhabited Value := ⟨empty⟩

def length (v : Value) : Nat := v.bytes.size

def isEmpty (v : Value) : Bool := v.length == 0

instance : ByteSize Value := ⟨length⟩

/-- The value as text, with U+FFFD where it is not UTF-8. -/
def toText (v : Value) : String := Text.Utf8.mend v.bytes

/-- The description of a value: its length, and nothing of its content. -/
def outline (v : Value) : Outline := .record "ByteView" [("len", .nat v.length)]

end RingCache.Value

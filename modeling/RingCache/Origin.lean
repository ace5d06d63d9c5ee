import RingCache.CacheError
import RingCache.Value

/-!
# Origins: where values come from

An origin answers each call for a key with a value or a failure. What it answers may depend on the
number of the call, counted from one; so an origin is a function of that number and the key, and the
calls that were made are kept beside it.
-/

namespace RingCache

/-- What an origin answers to its call of a given number for a key. -/
abbrev Source := Nat → String → Except CacheError Value

namespace Source

/-- A fixed table; a key that is not in it does not exist. -/
def table (entries : List (String × Value)) : Source := fun _ key =>
  match entries.lookup key with
  | some value => .ok value
  | none => .error (.loader s!"{key} not exist")

def echo : Source := fun _ key => .ok (.ofString key)

/-- The key with bytes after it. -/
def suffix (tail : Value) : Source := fun _ key => .ok ⟨key.toUTF8 ++ tail.bytes⟩

/-- The same value for all keys. -/
def constant (value : Value) : Source := fun _ _ => .ok value

/-- The key and the number of the call. -/
def counter : Source := fun n key => .ok (.ofString s!"{key}#{n}")

/-- The same failure for all keys. -/
def failing (e : CacheError) : Source := fun _ _ => .error e

/-- The answers in order, whatever the key; the last one again and again. -/
def script (answers : List (Except CacheError Value)) : Source := fun n _ =>
  match answers[min (n - 1) (answers.length - 1)]? with
  | some answer => answer
  | none => .error (.loader "no answer")

/-- The same answers, but every failure as one of the origin, in its words. -/
def worded (source : Source) : Source := fun n key =>
  match source n key with
  | .ok value => .ok value
  | .error e => .error (.loader e.message)

end Source

/-- An origin and the keys that it was called with, in order. -/
structure Origin where
  source : Source
  calls : List String

namespace Origin

def fresh (source : Source) : Origin := ⟨source, []⟩

def call (o : Origin) (key : String) : Except CacheError Value × Origin :=
  (o.source (o.calls.length + 1) key, { o with calls := o.calls ++ [key] })

end Origin

end RingCache

import Std.Data.HashMap
import RingCache.Value

/-!
# The slot store: entries in recency order under a byte budget

Entries stand in an array of slots. Each slot knows the index of its next newer and its next older
neighbour, the store knows the newest and the oldest slot, and a hash map leads from a key to its
slot; so every operation but a sweep over all entries takes constant time. Removing an entry moves
the last slot into the hole.

An entry counts with the bytes of its key and of its value. While a budget other than zero is
exceeded, `add` pushes out the oldest entry; so an entry that is larger than the whole budget is put
in and pushed out again, after all others. A budget of zero sets no limit. Replacing a value reports
nothing.

Every step that could reach outside the slots is checked and answers a `Fault` instead. So is every
step that would take more bytes away than are counted, unless the count may wrap (`Counting`).
-/

namespace RingCache.Lru

/-- One entry and its neighbours in the order of use. -/
structure Slot (α : Type) where
  key : String
  value : α
  /-- the slot that was used next after this one -/
  newer : Option Nat
  /-- the slot that was used last before this one -/
  older : Option Nat

/-- Why a step of the store cannot be made. -/
inductive Fault where
  /-- there is no slot at that index -/
  | noSlot (index : Nat)
  /-- more bytes are taken away than are counted -/
  | underflow
  /-- the budget is exceeded, and nothing is left to push out -/
  | nothingLeft
  deriving DecidableEq

/-- Entries in recency order under a byte budget. -/
structure Store (α : Type) where
  slots : Array (Slot α)
  newest : Option Nat
  oldest : Option Nat
  /-- from each key to the index of its slot -/
  index : Std.HashMap String Nat
  /-- the bytes of all entries -/
  used : UInt64
  /-- the most bytes that may be in use, or zero for no limit -/
  budget : UInt64

/-- What an operation leaves: its result, the entries it pushed out in order, and the store. -/
structure Outcome (α β : Type) where
  result : β
  pushed : List (String × α)
  store : Store α

/-- What becomes of the count of bytes where more are taken away than are counted. -/
inductive Counting where
  /-- a fault -/
  | checked
  /-- the count wraps at 64 bits -/
  | wrapping
  deriving DecidableEq

/-- Takes bytes away from those that are counted. -/
def Counting.discount : Counting → UInt64 → UInt64 → Except Fault UInt64
  | .checked, used, size => if used < size then .error .underflow else .ok (used - size)
  | .wrapping, used, size => .ok (used - size)

/-- The bytes that an entry counts. -/
def entrySize {α : Type} [ByteSize α] (key : String) (value : α) : UInt64 :=
  UInt64.ofNat (key.utf8ByteSize + ByteSize.byteSize value)

namespace Store

variable {α : Type}

def empty (budget : UInt64) : Store α where
  slots := #[]
  newest := none
  oldest := none
  index := ∅
  used := 0
  budget := budget

def size (s : Store α) : Nat := s.slots.size

def isEmpty (s : Store α) : Bool := s.slots.isEmpty

/-! ### Slots and their links -/

def slot (s : Store α) (i : Nat) : Except Fault (Slot α) :=
  match s.slots[i]? with
  | some e => .ok e
  | none => .error (.noSlot i)

def modifySlot (s : Store α) (i : Nat) (f : Slot α → Slot α) : Except Fault (Store α) :=
  if i < s.slots.size then .ok { s with slots := s.slots.modify i f }
  else .error (.noSlot i)

/-- Makes two slots neighbours. Where one is missing, the other stands at that end of the order. -/
def join (s : Store α) (newer older : Option Nat) : Except Fault (Store α) := do
  let s ← match newer with
    | some i => s.modifySlot i fun e => { e with older := older }
    | none => pure { s with newest := older }
  match older with
  | some i => s.modifySlot i fun e => { e with newer := newer }
  | none => pure { s with oldest := newer }

/-- Takes the slot at `i` out of the order, without emptying it. -/
def unlink (s : Store α) (i : Nat) : Except Fault (Store α) := do
  let e ← s.slot i
  s.join e.newer e.older

/-- Puts the slot at `i`, which stands nowhere in the order, before the newest. -/
def linkNewest (s : Store α) (i : Nat) : Except Fault (Store α) := do
  let older := s.newest
  let s ← s.join none (some i)
  s.join (some i) older

/-- Makes the slot at `i` the newest. -/
def renew (s : Store α) (i : Nat) : Except Fault (Store α) :=
  if s.newest = some i then .ok s
  else do
    let s ← s.unlink i
    s.linkNewest i

/-- Moves the last slot to index `i`, over the slot that stands there. -/
def dropSlot (s : Store α) (i : Nat) : Store α :=
  { s with slots := (s.slots.swapIfInBounds i (s.slots.size - 1)).pop }

/-- Leads the neighbours and the key of the slot at `i` to `i`. -/
def readdress (s : Store α) (i : Nat) : Except Fault (Store α) := do
  let e ← s.slot i
  let s ← s.join e.newer (some i)
  let s ← s.join (some i) e.older
  pure { s with index := s.index.insert e.key i }

/-- Removes the slot at `i`, and answers it. -/
def take [ByteSize α] (s : Store α) (i : Nat) (counting : Counting := .checked) :
    Except Fault (Slot α × Store α) := do
  let e ← s.slot i
  let s ← s.unlink i
  let s := s.dropSlot i
  let s ← if i < s.slots.size then s.readdress i else pure s
  let used ← counting.discount s.used (entrySize e.key e.value)
  pure (e, { s with index := s.index.erase e.key, used := used })

/-! ### The operations -/

/-- The value of `key`, which becomes the newest entry. -/
def get (s : Store α) (key : String) : Except Fault (Outcome α (Option α)) :=
  match s.index[key]? with
  | none => .ok ⟨none, [], s⟩
  | some i => do
    let s ← s.renew i
    let e ← s.slot i
    pure ⟨some e.value, [], s⟩

/-- The value of `key`, whose place in the order stays. -/
def peek (s : Store α) (key : String) : Except Fault (Option α) :=
  match s.index[key]? with
  | none => .ok none
  | some i => do
    let e ← s.slot i
    pure (some e.value)

def contains (s : Store α) (key : String) : Bool := s.index.contains key

def removeOldest [ByteSize α] (s : Store α) (counting : Counting := .checked) :
    Except Fault (Outcome α (Option (String × α))) :=
  match s.oldest with
  | none => .ok ⟨none, [], s⟩
  | some i => do
    let (e, s) ← s.take i counting
    pure ⟨some (e.key, e.value), [(e.key, e.value)], s⟩

/-- Pushes out the entry of `key`. -/
def remove [ByteSize α] (s : Store α) (key : String) : Except Fault (Outcome α (Option α)) :=
  match s.index[key]? with
  | none => .ok ⟨none, [], s⟩
  | some i => do
    let (e, s) ← s.take i
    pure ⟨some e.value, [(e.key, e.value)], s⟩

/-- Whether the entries take more bytes than the budget allows. -/
def overBudget (s : Store α) : Bool := s.budget != 0 && s.budget < s.used

/-- Pushes out oldest entries until the rest fits the budget. Each round takes one entry, so that
one more round than there are entries is enough. -/
def trim [ByteSize α] (counting : Counting) :
    Nat → Store α → Except Fault (List (String × α) × Store α)
  | 0, _ => .error .nothingLeft
  | rounds + 1, s =>
    if s.overBudget then do
      let out ← s.removeOldest counting
      match out.result with
      | none => throw .nothingLeft
      | some e =>
        let (rest, s) ← trim counting rounds out.store
        pure (e :: rest, s)
    else .ok ([], s)

/-- Makes `key` the newest entry, with `value`, whatever the budget. -/
def put [ByteSize α] (s : Store α) (key : String) (value : α) (counting : Counting := .checked) :
    Except Fault (Store α) :=
  match s.index[key]? with
  | some i => do
    let s ← s.renew i
    let e ← s.slot i
    let used ← counting.discount s.used (UInt64.ofNat (ByteSize.byteSize e.value))
    let s ← s.modifySlot i fun e => { e with value := value }
    pure { s with used := used + UInt64.ofNat (ByteSize.byteSize value) }
  | none => do
    let i := s.slots.size
    let s := { s with slots := s.slots.push ⟨key, value, none, none⟩
                      index := s.index.insert key i }
    let s ← s.linkNewest i
    pure { s with used := s.used + entrySize key value }

/-- Makes `key` the newest entry, with `value`, and pushes out what no longer fits. -/
def add [ByteSize α] (s : Store α) (key : String) (value : α) (counting : Counting := .checked) :
    Except Fault (Outcome α Unit) := do
  let s ← s.put key value counting
  let (pushed, s) ← s.trim counting (s.slots.size + 1)
  pure ⟨(), pushed, s⟩

/-- Drops all entries, without pushing any out. -/
def clear (s : Store α) : Store α := empty s.budget

/-! ### Reading all entries -/

/-- The entries from slot `i` on towards the oldest, at most `limit` of them. -/
def walk (s : Store α) : Nat → Option Nat → List (String × α)
  | 0, _ => []
  | _, none => []
  | limit + 1, some i =>
    match s.slots[i]? with
    | none => []
    | some e => (e.key, e.value) :: s.walk limit e.older

/-- The entries, newest first. -/
def toList (s : Store α) : List (String × α) := s.walk s.slots.size s.newest

def keys (s : Store α) : List String := s.toList.map Prod.fst

/-- The description of a store: its budget, the bytes in use and the number of entries. -/
def outline (s : Store α) : Outline :=
  .record "LruCache" [("max_bytes", .u64 s.budget), ("used_bytes", .u64 s.used),
    ("entries", .nat s.size)]

end Store

/-! ### Operations as data -/

/-- One operation on a store. -/
inductive Op (α : Type) where
  | add (key : String) (value : α)
  | get (key : String)
  | peek (key : String)
  | contains (key : String)
  | remove (key : String)
  | removeOldest
  | clear

/-- What an operation answers. -/
inductive Answer (α : Type) where
  | done
  | value (v : Option α)
  | found (b : Bool)
  | entry (e : Option (String × α))

def Store.run {α : Type} [ByteSize α] (s : Store α) :
    Op α → Except Fault (Outcome α (Answer α))
  | .add key value => do
    let out ← s.add key value
    pure ⟨.done, out.pushed, out.store⟩
  | .get key => do
    let out ← s.get key
    pure ⟨.value out.result, out.pushed, out.store⟩
  | .peek key => do
    let v ← s.peek key
    pure ⟨.value v, [], s⟩
  | .contains key => .ok ⟨.found (s.contains key), [], s⟩
  | .remove key => do
    let out ← s.remove key
    pure ⟨.value out.result, out.pushed, out.store⟩
  | .removeOldest => do
    let out ← s.removeOldest
    pure ⟨.entry out.result, out.pushed, out.store⟩
  | .clear => .ok ⟨.done, [], s.clear⟩

end RingCache.Lru

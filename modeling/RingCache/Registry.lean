import RingCache.CacheError
import RingCache.Text.Outline

/-!
# Registries: members by name

A registry holds members of any type under distinct names and lists them in increasing order of
their names. A name that is taken cannot be taken again.
-/

namespace RingCache

/-- Members by name, in increasing order of the names. -/
structure Registry (μ : Type) where
  entries : List (String × μ)

namespace Registry

variable {μ : Type}

def empty : Registry μ := ⟨[]⟩

def find? (r : Registry μ) (name : String) : Option μ := r.entries.lookup name

/-- The member of that name, or the failure that there is none. -/
def require (r : Registry μ) (name : String) : Except CacheError μ :=
  match r.find? name with
  | some member => .ok member
  | none => .error (.groupNotFound name)

/-- Puts an entry before the first one with a greater name. -/
def insertSorted (name : String) (member : μ) : List (String × μ) → List (String × μ)
  | [] => [(name, member)]
  | (n, m) :: rest =>
    if name < n then (name, member) :: (n, m) :: rest
    else (n, m) :: insertSorted name member rest

/-- Registers a member under a name that is not empty and not taken. -/
def register (r : Registry μ) (name : String) (member : μ) : Except CacheError (Registry μ) :=
  if name.isEmpty then .error (.config "group name is required")
  else
    match r.find? name with
    | some _ => .error (.config s!"group {name} already registered")
    | none => .ok ⟨insertSorted name member r.entries⟩

/-- Puts another member in the place of the one of that name, if there is one. -/
def replace (r : Registry μ) (name : String) (member : μ) : Registry μ :=
  ⟨r.entries.map fun (n, m) => if n = name then (n, member) else (n, m)⟩

/-- The names, in increasing order. -/
def names (r : Registry μ) : List String := r.entries.map Prod.fst

/-- The members, in increasing order of their names. -/
def members (r : Registry μ) : List μ := r.entries.map Prod.snd

def size (r : Registry μ) : Nat := r.entries.length

def isEmpty (r : Registry μ) : Bool := r.entries.isEmpty

def outline (r : Registry μ) : Outline :=
  .record "GroupRegistry" [("groups", .list (r.names.map .text))]

end RingCache.Registry

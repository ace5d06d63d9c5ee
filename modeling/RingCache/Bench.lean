import RingCache.CacheError
import RingCache.Value

/-!
# Suspended tasks, resumed by hand

A task runs until it has to wait: for a call whose answer has not come, or for another task. On the
bench nothing happens by itself. A task is resumed by hand, and a call is answered by hand, so that
every interleaving can be laid out step by step; each resumption is one atomic step.

* `Bench.step` carries out one atomic step: start a task, resume one, answer a call, drop a task.
* `Bench.settle` resumes all tasks in the order of their start, again and again, until a whole round
  finishes none.
-/

namespace RingCache

/-- What a call or a task comes to. -/
abbrev Answer (α : Type := Value) := Except CacheError α

/-! ### Calls that are answered by hand -/

/-- A call: what was asked, and the answer once it is given. -/
structure Gate (α : Type := Value) where
  label : String
  answer : Option (Answer α)

/-- All calls in the order in which they were made. -/
structure Gates (α : Type := Value) where
  calls : Array (Gate α)

namespace Gates

variable {α : Type}

def empty : Gates α := ⟨#[]⟩

/-- Makes a call; its number is the count of earlier calls. -/
def place (g : Gates α) (label : String) : Nat × Gates α :=
  (g.calls.size, ⟨g.calls.push ⟨label, none⟩⟩)

def answer? (g : Gates α) (call : Nat) : Option (Answer α) := do
  let gate ← g.calls[call]?
  gate.answer

/-- Answers a call; refused where there is no such call or it has its answer already. -/
def give? (g : Gates α) (call : Nat) (answer : Answer α) : Option (Gates α) :=
  match g.calls[call]? with
  | some ⟨label, none⟩ => some ⟨g.calls.setIfInBounds call ⟨label, some answer⟩⟩
  | _ => none

def labels (g : Gates α) : List String := g.calls.toList.map Gate.label

end Gates

/-! ### Tasks -/

/-- Tasks of type `τ` over a shared state of type `σ`, which come to a result of type `ρ` and whose
calls are answered with an `α`. -/
class Resumable (σ τ : Type) (ρ : outParam Type) (α : Type := Value) where
  /-- runs a task until it has to wait again, or to its end -/
  resume : σ → Gates α → τ → σ × Gates α × (τ ⊕ ρ)
  /-- gives a waiting task up -/
  abandon : σ → τ → σ

/-- What has become of a task. -/
inductive Fate (τ ρ : Type) where
  | waiting (task : τ)
  | finished (result : ρ)
  | dropped

/-- A task that was started under a number of the caller's choice. -/
structure Bench.Entry (τ ρ : Type) where
  id : Int
  fate : Fate τ ρ

/-- A shared state, the calls made over it, and all tasks in the order of their start. -/
structure Bench (σ τ ρ : Type) (α : Type := Value) where
  state : σ
  gates : Gates α
  entries : Array (Bench.Entry τ ρ)

namespace Bench

variable {σ τ ρ α : Type}

def empty (state : σ) : Bench σ τ ρ α := ⟨state, .empty, #[]⟩

def waiting? (b : Bench σ τ ρ α) (i : Nat) : Option τ :=
  match b.entries[i]? with
  | some ⟨_, .waiting task⟩ => some task
  | _ => none

/-- Writes down what has become of the task at index `i`. -/
def setFate (b : Bench σ τ ρ α) (i : Nat) (fate : Fate τ ρ) : Bench σ τ ρ α :=
  { b with entries := b.entries.modify i fun e => { e with fate := fate } }

/-- The numbers of the tasks that are still waiting, in the order of their start. -/
def waitingIds (b : Bench σ τ ρ α) : List Int :=
  b.entries.toList.filterMap fun e =>
    match e.fate with
    | .waiting _ => some e.id
    | _ => none

/-- A task that came to its end, with the number it was started under. -/
structure Finish (ρ : Type) where
  id : Int
  result : ρ

/-- Resumes the task at index `i`, if it is waiting. -/
def resume [Resumable σ τ ρ α] (b : Bench σ τ ρ α) (i : Nat) : List (Finish ρ) × Bench σ τ ρ α :=
  match b.entries[i]? with
  | some ⟨id, .waiting task⟩ =>
    let (state, gates, next) := Resumable.resume b.state b.gates task
    let b := { b with state := state, gates := gates }
    match next with
    | .inl task => ([], b.setFate i (.waiting task))
    | .inr result => ([⟨id, result⟩], b.setFate i (.finished result))
  | _ => ([], b)

/-- Starts a task and runs it until it has to wait. -/
def start [Resumable σ τ ρ α] (b : Bench σ τ ρ α) (id : Int) (task : τ) :
    List (Finish ρ) × Bench σ τ ρ α :=
  { b with entries := b.entries.push ⟨id, .waiting task⟩ }.resume b.entries.size

def give? (b : Bench σ τ ρ α) (call : Nat) (answer : Answer α) : Option (Bench σ τ ρ α) :=
  (b.gates.give? call answer).map fun gates => { b with gates := gates }

/-- Drops the task at index `i`, if it is waiting. -/
def drop [Resumable σ τ ρ α] (b : Bench σ τ ρ α) (i : Nat) : Bench σ τ ρ α :=
  match b.waiting? i with
  | some task => { b with state := Resumable.abandon α b.state task }.setFate i .dropped
  | none => b

/-! ### Atomic steps as data -/

/-- One atomic step. -/
inductive Step (τ : Type) (α : Type := Value) where
  | start (id : Int) (task : τ)
  | resume (i : Nat)
  | give (call : Nat) (answer : Answer α)
  | drop (i : Nat)

def step [Resumable σ τ ρ α] (b : Bench σ τ ρ α) : Step τ α → List (Finish ρ) × Bench σ τ ρ α
  | .start id task => b.start id task
  | .resume i => b.resume i
  | .give call answer => ([], (b.give? call answer).getD b)
  | .drop i => ([], b.drop i)

/-! ### Rounds -/

/-- Resumes the tasks at the given indices, in order. -/
def sweep [Resumable σ τ ρ α] : List Nat → Bench σ τ ρ α → List (Finish ρ) × Bench σ τ ρ α
  | [], b => ([], b)
  | i :: is, b =>
    let (first, b) := b.resume i
    let (others, b) := sweep is b
    (first ++ others, b)

/-- Rounds over all tasks until one finishes none, at most `rounds` of them. -/
def rounds [Resumable σ τ ρ α] : Nat → Bench σ τ ρ α → List (Finish ρ) × Bench σ τ ρ α
  | 0, b => ([], b)
  | n + 1, b =>
    let (done, b) := sweep (List.range b.entries.size) b
    if done.isEmpty then ([], b)
    else
      let (others, b) := rounds n b
      (done ++ others, b)

/-- Rounds over all tasks until one finishes none. Every round but the last finishes a task, so that
one round more than there are tasks is enough. -/
def settle [Resumable σ τ ρ α] (b : Bench σ τ ρ α) : List (Finish ρ) × Bench σ τ ρ α :=
  rounds (b.entries.size + 1) b

/-! ### Moves: an atomic step, and what follows by itself -/

/-- What a person at the bench does. -/
inductive Move (τ : Type) (α : Type := Value) where
  /-- start a task under a number -/
  | start (id : Int) (task : τ)
  /-- answer a call -/
  | give (call : Nat) (answer : Answer α)
  /-- drop the first waiting task with that number -/
  | cancel (id : Int)
  /-- only let the tasks go on -/
  | wait

/-- Carries out what a move does at once. The answer is whether it could be made at all. -/
def begin [Resumable σ τ ρ α] (b : Bench σ τ ρ α) : Move τ α → Bool × List (Finish ρ) × Bench σ τ ρ α
  | .start id task => (true, b.start id task)
  | .give call answer =>
    match b.give? call answer with
    | some b => (true, [], b)
    | none => (false, [], b)
  | .cancel id =>
    let found := b.entries.findIdx? fun e =>
      match e.fate with
      | .waiting _ => e.id == id
      | _ => false
    match found with
    | some i => (true, [], b.drop i)
    | none => (false, [], b)
  | .wait => (true, [], b)

/-- Carries out a move, and then, where `settles` says so, lets all tasks go on as far as they can. -/
def move [Resumable σ τ ρ α] (b : Bench σ τ ρ α) (m : Move τ α) (settles : Bool) :
    Bool × List (Finish ρ) × Bench σ τ ρ α :=
  let (accepted, first, b) := b.begin m
  if settles then
    let (others, b) := b.settle
    (accepted, first ++ others, b)
  else (accepted, first, b)

end RingCache.Bench

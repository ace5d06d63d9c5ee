import RingCache.Pattern
import RingCache.Text.Alphanumeric
import RingCache.Text.Blank

/-!
# Reading patterns

Reads a pattern from its text. A pattern stands between braces, which it cannot close itself; so a
count in braces is never complete, and neither is a code or a name in braces. Patterns that ask for
a property of characters are not read either.

Readers take their part off the front of a text and give what is left, or nothing where the text is
at fault. If the flag `spaced` is set, blanks and comments may stand between the parts. Every step
takes at least one character, so `fuel` may be any number above the number of characters.
-/

namespace RingCache.Pattern

/-! ### Blanks -/

/-- A text from the first character on that is neither blank nor in a comment. A comment goes from a
number sign to the end of its line. -/
def skipFrom (inComment : Bool) : List Char → List Char
  | [] => []
  | c :: cs =>
    if inComment then skipFrom (c ≠ '\n') cs
    else if Text.isBlank c then skipFrom false cs
    else if c = '#' then skipFrom true cs
    else c :: cs

/-- Skips blanks and comments where they mean nothing. -/
def skip (spaced : Bool) (cs : List Char) : List Char := if spaced then skipFrom false cs else cs

/-- The first character that is no blank and not the first number sign. -/
def afterSign (seen : Bool) : List Char → Option Char
  | [] => none
  | c :: cs =>
    if Text.isBlank c then afterSign seen cs
    else if c = '#' && !seen then afterSign true cs
    else some c

/-- The character that follows a dash in a set. Unlike elsewhere a comment hides its number sign
alone. -/
def peek (spaced : Bool) (cs : List Char) : Option Char :=
  if spaced then (afterSign false cs).or cs.head? else cs.head?

/-! ### Characters -/

def hexValue? (c : Char) : Option Nat :=
  if '0' ≤ c ∧ c ≤ '9' then some (c.toNat - 48)
  else if 'a' ≤ c ∧ c ≤ 'f' then some (c.toNat - 87)
  else if 'A' ≤ c ∧ c ≤ 'F' then some (c.toNat - 55)
  else none

def readHex (spaced : Bool) : Nat → Nat → List Char → Option (Nat × List Char)
  | 0, n, cs => some (n, cs)
  | _ + 1, _, [] => none
  | count + 1, n, c :: cs => do readHex spaced count (n * 16 + (← hexValue? c)) (skip spaced cs)

/-- Reads a character by the digits of its code. -/
def readCode (spaced : Bool) (count : Nat) (cs : List Char) : Option (Pattern × List Char) := do
  let (n, rest) ← readHex spaced count 0 (skip spaced cs)
  if n.isValidChar then some (.literal ⟨Char.ofNat n, count == 2⟩, rest) else none

/-- Reads what follows a backslash. Before a character that is no letter or digit it takes the
special meaning away. -/
def readEscape (spaced : Bool) : List Char → Option (Pattern × List Char)
  | [] => none
  | c :: cs =>
    let code (n : Nat) : Option (Pattern × List Char) :=
      some (.literal ⟨Char.ofNat n, false⟩, cs)
    match c with
    | 'x' => readCode spaced 2 cs
    | 'u' => readCode spaced 4 cs
    | 'U' => readCode spaced 8 cs
    | 'a' => code 7
    | 't' => code 9
    | 'n' => code 10
    | 'v' => code 11
    | 'f' => code 12
    | 'r' => code 13
    | 'd' => some (.set (.short false), cs)
    | 's' => some (.set (.short false), cs)
    | 'w' => some (.set (.short false), cs)
    | 'D' => some (.set (.short true), cs)
    | 'S' => some (.set (.short true), cs)
    | 'W' => some (.set (.short true), cs)
    | 'A' => some (.anchor false, cs)
    | 'z' => some (.anchor false, cs)
    | 'b' => some (.anchor true, cs)
    | 'B' => some (.anchor true, cs)
    | '<' => some (.anchor true, cs)
    | '>' => some (.anchor true, cs)
    | c => if c.toNat < 128 && !c.isAlphanum then some (.literal ⟨c, false⟩, cs) else none

/-! ### Sets of characters -/

def classNames : List String :=
  ["alnum", "alpha", "ascii", "blank", "cntrl", "digit", "graph", "lower", "print", "punct",
    "space", "upper", "word", "xdigit"]

/-- Reads a class by its name, after the bracket that opens it. -/
def readNamed : List Char → Option (CharSet × List Char)
  | ':' :: cs =>
    let (negated, cs) := match cs with
      | '^' :: cs => (true, cs)
      | cs => (false, cs)
    match cs.dropWhile (· ≠ ':') with
    | ':' :: ']' :: rest =>
      if String.ofList (cs.takeWhile (· ≠ ':')) ∈ classNames then some (.named negated, rest)
      else none
    | _ => none
  | _ => none

/-- Reads the dashes at the beginning of a set. They stand for themselves. -/
def readDashes (spaced : Bool) : Nat → List CharSet → List Char → List CharSet × List Char
  | 0, sets, cs => (sets, cs)
  | fuel + 1, sets, cs =>
    match cs with
    | '-' :: rest => readDashes spaced fuel (.literal ⟨'-', false⟩ :: sets) (skip spaced rest)
    | cs => (sets, cs)

/-- Reads what follows an opening bracket: the sign of a negated set, dashes, and, if there are none,
a closing bracket that stands for itself. -/
def readOpening (spaced : Bool) (fuel : Nat) (cs : List Char) : Bool × List CharSet × List Char :=
  let cs := skip spaced cs
  let (negated, cs) := match cs with
    | '^' :: rest => (true, skip spaced rest)
    | cs => (false, cs)
  match readDashes spaced fuel [] cs with
  | ([], ']' :: rest) => (negated, [.literal ⟨']', false⟩], skip spaced rest)
  | (sets, rest) => (negated, sets, rest)

/-- Reads one character of a set, or a set by one letter. -/
def readMember (spaced : Bool) : List Char → Option (CharSet × List Char)
  | [] => none
  | '\\' :: cs =>
    match readEscape spaced cs with
    | some (.literal l, rest) => some (.literal l, rest)
    | some (.set inner, rest) => some (inner, rest)
    | _ => none
  | c :: cs => some (.literal ⟨c, false⟩, cs)

/-- Reads a member of a set, or a range: two characters in order with a dash between them. A dash
before the closing bracket or before another dash makes no range. -/
def readRange (spaced : Bool) (cs : List Char) : Option (CharSet × List Char) := do
  let (first, rest) ← readMember spaced cs
  match skip spaced rest with
  | '-' :: behind =>
    if peek spaced behind = some ']' || peek spaced behind = some '-' then
      some (first, '-' :: behind)
    else
      match first, ← readMember spaced (skip spaced behind) with
      | .literal a, (.literal b, rest) => if a.char ≤ b.char then some (.range a b, rest) else none
      | _, _ => none
  | rest => some (first, rest)

/-- Reads a set up to its closing bracket, after what was read of it: the part before an operator,
and the sets behind that, the last one first. -/
def readSet (spaced : Bool) : Nat → Option CharSet → List CharSet → List Char →
    Option (CharSet × List Char)
  | 0, _, _, _ => none
  | fuel + 1, left, sets, cs =>
    match skip spaced cs with
    | [] => none
    | ']' :: rest => some (.close left sets, rest)
    | '&' :: '&' :: rest => readSet spaced fuel (some (.close left sets)) [] rest
    | '-' :: '-' :: rest => readSet spaced fuel (some (.close left sets)) [] rest
    | '~' :: '~' :: rest => readSet spaced fuel (some (.close left sets)) [] rest
    | '[' :: rest =>
      match readNamed rest with
      | some (named, rest) => readSet spaced fuel left (named :: sets) rest
      | none => do
        let (negated, inner, rest) := readOpening spaced fuel rest
        let (inner, rest) ← readSet spaced fuel none inner rest
        readSet spaced fuel left (.bracket negated inner :: sets) rest
    | cs => do
      let (member, rest) ← readRange spaced cs
      readSet spaced fuel left (member :: sets) rest

/-- Reads a set after its opening bracket. -/
def readBracket (spaced : Bool) (fuel : Nat) (cs : List Char) : Option (Pattern × List Char) := do
  let (negated, sets, rest) := readOpening spaced fuel cs
  let (inner, rest) ← readSet spaced fuel none sets rest
  some (.set (.bracket negated inner), rest)

/-! ### Groups -/

/-- Whether a name of a group may begin with a character. -/
def beginsName (c : Char) : Bool := c = '_' || Text.isAlphabetic c

/-- Whether a name of a group may go on with a character. -/
def continuesName (c : Char) : Bool :=
  c = '_' || c = '.' || c = '[' || c = ']' || Text.isAlphanumeric c

/-- Reads the name of a group and the bracket behind it. -/
def readName (cs : List Char) : Option (List Char × List Char) :=
  match cs.takeWhile (· ≠ '>'), cs.dropWhile (· ≠ '>') with
  | c :: name, _ :: rest =>
    if beginsName c && name.all continuesName then some (c :: name, rest) else none
  | _, _ => none

/-- Reads flags up to a colon or a closing bracket: those switched on, and after a dash those
switched off, each flag at most once. The dash may not be the last. -/
def readFlags (negated afterDash : Bool) (c : Change) : List Char →
    Option (Change × Char × List Char)
  | [] => none
  | ':' :: cs => if afterDash then none else some (c, ':', cs)
  | ')' :: cs => if afterDash then none else some (c, ')', cs)
  | '-' :: cs => if negated then none else readFlags true true c cs
  | letter :: cs =>
    match Flag.ofChar? letter with
    | none => none
    | some flag =>
      if flag ∈ c.on || flag ∈ c.off then none
      else readFlags negated false (if negated then { c with off := flag :: c.off }
        else { c with on := flag :: c.on }) cs

/-- What an opening bracket begins. -/
inductive Opening where
  /-- flags for the rest of the group -/
  | flags (c : Change)
  /-- a group, perhaps with flags or with a name of its own -/
  | group (c : Change) (name : Option (List Char))

/-- Reads what follows an opening bracket. It may not look around. -/
def readGroup (spaced : Bool) (cs : List Char) : Option (Opening × List Char) :=
  let named (cs : List Char) : Option (Opening × List Char) :=
    (readName cs).map fun (name, rest) => (.group .none (some name), rest)
  match skip spaced cs with
  | '?' :: 'P' :: '<' :: rest => named rest
  | '?' :: '<' :: rest => named rest
  | '?' :: rest =>
    match readFlags false false .none rest with
    | some (c, ':', rest) => some (.group c none, rest)
    | some (⟨[], []⟩, _, _) => none
    | some (c, _, rest) => some (.flags c, rest)
    | none => none
  | rest => some (.group .none none, rest)

/-! ### Patterns -/

/-- One pattern for patterns one after the other, the last one first. -/
def join (ps : List Pattern) : Pattern :=
  match ps.reverse with
  | [] => .empty
  | [p] => p
  | ps => .concat ps

/-- One pattern for the branches of a choice, the last one first. -/
def choose (branches : List Pattern) : Pattern :=
  match branches.reverse with
  | [p] => p
  | ps => .choice ps

/-- Repeats the last one of some patterns; nothing and flags cannot be repeated. -/
def repeatLast : List Pattern → Option (List Pattern)
  | [] => none
  | .change _ :: _ => none
  | p :: ps => some (.repeated p :: ps)

/-- What is read of a group: its branches and the patterns after them, the last one first, and the
names that groups have so far. -/
structure Draft where
  branches : List Pattern
  patterns : List Pattern
  names : List (List Char)

namespace Draft

def push (d : Draft) (p : Pattern) : Draft := { d with patterns := p :: d.patterns }

def split (d : Draft) : Draft := { d with branches := join d.patterns :: d.branches, patterns := [] }

/-- The pattern of the whole group. -/
def close (d : Draft) : Pattern := choose d.split.branches

end Draft

/-- Reads a group up to its closing bracket or to the end of the text, after what was read of it, and
gives the names of groups too. -/
def readFrom : Nat → Bool → Draft → List Char → Option (Draft × List Char)
  | 0, _, _, _ => none
  | fuel + 1, spaced, d, cs =>
    match skip spaced cs with
    | [] => some (d, [])
    | ')' :: rest => some (d, ')' :: rest)
    | '|' :: rest => readFrom fuel spaced d.split rest
    | '{' :: _ => none
    | '(' :: rest =>
      match readGroup spaced rest with
      | none => none
      | some (.flags c, rest) => readFrom fuel (c.apply .spaced spaced) (d.push (.change c)) rest
      | some (.group c name, rest) =>
        if name.any (d.names.contains ·) then none
        else
          match readFrom fuel (c.apply .spaced spaced) ⟨[], [], name.toList ++ d.names⟩ rest with
          | some (inner, ')' :: rest) =>
            readFrom fuel spaced { d.push (.group c inner.close) with names := inner.names } rest
          | _ => none
    | '[' :: rest => do
      let (p, rest) ← readBracket spaced fuel rest
      readFrom fuel spaced (d.push p) rest
    | '\\' :: rest => do
      let (p, rest) ← readEscape spaced rest
      readFrom fuel spaced (d.push p) rest
    | c :: rest =>
      if c = '?' || c = '*' || c = '+' then do
        let patterns ← repeatLast d.patterns
        -- a question mark right behind makes the repetition a lazy one
        let rest := match rest with
          | '?' :: rest => rest
          | rest => rest
        readFrom fuel spaced { d with patterns := patterns } rest
      else
        let p := if c = '.' then .any else if c = '^' || c = '$' then .anchor false
          else .literal ⟨c, false⟩
        readFrom fuel spaced (d.push p) rest

def read? (text : String) : Option Pattern :=
  let cs := text.toList
  match readFrom (cs.length + 1) false ⟨[], [], []⟩ cs with
  | some (d, []) => some d.close
  | _ => none

end RingCache.Pattern

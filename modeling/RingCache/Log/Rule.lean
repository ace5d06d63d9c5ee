import RingCache.Log
import RingCache.Pattern.Fault
import RingCache.Text.Alphanumeric
import RingCache.Text.Blank
import RingCache.Text.Decimal

/-!
# Rules of a log

A rule says which lines of the log pass. It may be for the lines of one part of a program only: for
those whose origin begins with a given name, for those inside a span of a given name, or for those
that have a given field. The most specific rule that is for a line decides about it.

Rules are written `origin[span{field=value}]=level` and separated by commas. Every part may be
missing; a level alone is a rule for all lines. The value of a field is a number or a pattern. A
piece that is no rule is left out, and said so.
-/

namespace RingCache.Log

/-- Which lines pass: none, or those that are at least as grave as a level. -/
inductive Threshold where
  | off
  | atLeast (level : Level)
  deriving DecidableEq

namespace Threshold

def admits : Threshold → Level → Bool
  | .off, _ => false
  | .atLeast least, level => least.rank ≤ level.rank

/-- The threshold of a rank: nothing passes for zero, everything for five. -/
def ofRank? : Nat → Option Threshold
  | 0 => some .off
  | 1 => some (.atLeast .error)
  | 2 => some (.atLeast .warn)
  | 3 => some (.atLeast .info)
  | 4 => some (.atLeast .debug)
  | 5 => some (.atLeast .trace)
  | _ => none

/-- The threshold that a text names: by its rank, as the name of a level, or as `off`. -/
def ofText? (s : String) : Option Threshold :=
  match (Text.unsigned? 5 s).bind ofRank? with
  | some threshold => some threshold
  | none => if s.toLower = "off" then some .off else (Level.ofName? s).map .atLeast

end Threshold

/-- A field that lines must have, and its value if that is given. -/
structure Field where
  name : String
  value : Option String
  deriving DecidableEq

/-- A rule of a log. -/
structure Rule where
  /-- what the origin of a line must begin with -/
  origin : Option String
  /-- the span in which a line must be -/
  span : Option String
  field : Option Field
  threshold : Threshold
  deriving DecidableEq

namespace Rule

/-- The rule for all lines. -/
def general (threshold : Threshold) : Rule := ⟨none, none, none, threshold⟩

/-! ### Reading -/

/-- Why a piece is no rule. -/
inductive Fault where
  /-- it does not have the form of a rule -/
  | form
  /-- what stands for its level is none -/
  | level
  /-- what stands for the value of its field is none -/
  | value (fault : Pattern.Fault)
  deriving DecidableEq

def Fault.message : Fault → String
  | .form => "invalid filter directive"
  | .level => "error parsing level filter: expected one of " ++
      "\"off\", \"error\", \"warn\", \"info\", \"debug\", \"trace\", or a number 0-5"
  | .value fault => "invalid field filter: " ++ fault.message

/-- A place of a piece. The form of a rule is read from the piece without the blanks at its ends,
and the words are taken from the piece as it stands, at the same places. So the two characters of a
place are the same, unless the piece begins with a blank: then words are cut too far to the left. -/
structure Place where
  form : Char
  word : Char

/-- The places of a piece, and what stands behind the last one; a word that goes on to the end takes
that in. -/
def places (piece : String) : List Place × List Char :=
  let cs := piece.toList
  let form := Text.strip Text.isBlank cs
  (List.zipWith Place.mk form cs, cs.drop form.length)

/-- The word at some places. -/
def word (ps : List Place) : String := String.ofList (ps.map Place.word)

/-- The word at some places and behind them. -/
def wordToEnd (ps : List Place) (behind : List Char) : String :=
  String.ofList (ps.map Place.word ++ behind)

/-- Places up to the first one with a character that ends them, and those from there on. -/
def upTo (ends : Char → Bool) (ps : List Place) : List Place × List Place :=
  (ps.takeWhile fun p => !ends p.form, ps.dropWhile fun p => !ends p.form)

/-- Reads a field: a name, and a value after an equals sign, which ends at another one. The value is
a number or a pattern. -/
def readField (text : String) : Except Fault Field :=
  let (name, rest) := Text.cut '=' text.toList
  let value := rest.map fun cs => String.ofList (Text.cut '=' cs).1
  match (value.filter fun v => !Text.isNumber v).bind Pattern.fault? with
  | some fault => .error (.value fault)
  | none => .ok ⟨String.ofList name, value⟩

/-- Reads the level of a rule, which goes on to the end; everything passes where there is none. -/
def readLevel (rule : Rule) (ps : List Place) (behind : List Char) : Except Fault Rule :=
  match wordToEnd ps behind with
  | "" => .ok rule
  | text =>
    match Threshold.ofText? text with
    | some threshold => .ok { rule with threshold := threshold }
    | none => .error .level

/-- Reads what follows a closing bracket: a level after an equals sign, or nothing. -/
def readEnd (rule : Rule) (ps : List Place) (behind : List Char) : Except Fault Rule :=
  match ps with
  | [] => .ok rule
  | p :: ps => if p.form = '=' then rule.readLevel ps behind else .error .form

/-- Reads what follows an opening brace: a field, and a brace and a bracket that close. -/
def readFields (rule : Rule) (ps : List Place) (behind : List Char) : Except Fault Rule :=
  match upTo (· = '}') ps with
  | (first :: places, _ :: rest) => do
    let rule := { rule with field := some (← readField (word (first :: places))) }
    match rest with
    | [] => .error .form
    | p :: rest => if p.form = ']' then rule.readEnd rest behind else .error .form
  | _ => .error .form

/-- Reads what follows an opening bracket: the name of a span, and a field if a brace opens. No name
before a brace stands for any span. -/
def readSpan (rule : Rule) (ps : List Place) (behind : List Char) : Except Fault Rule :=
  match upTo (fun c => c = ']' || c = '{') ps with
  | (_, []) => .error .form
  | (name, p :: rest) =>
    if p.form = ']' then { rule with span := some (word name) }.readEnd rest behind
    else if name.isEmpty then rule.readFields rest behind
    else { rule with span := some (word name) }.readFields rest behind

/-- Whether a rule may begin with a character. -/
def isFirst (c : Char) : Bool := Text.isAlphanumeric c || c = '-' || c = ':' || c = '_' || c = '['

/-- Reads a piece. A word alone is a level if it names one, else an origin. -/
def read (piece : String) : Except Fault Rule :=
  let (ps, behind) := places piece
  let rule := general (.atLeast .trace)
  match ps with
  | [] => .error .form
  | p :: _ =>
    if !isFirst p.form then .error .form
    else
      match upTo (fun c => c = '=' || c = '[') ps with
      | (first, []) =>
        let text := wordToEnd first behind
        match Threshold.ofText? text with
        | some threshold => .ok { rule with threshold := threshold }
        | none => .ok { rule with origin := some text }
      | ([], _ :: rest) => rule.readSpan rest behind
      | (first, p :: rest) =>
        let rule := { rule with origin := some (word first) }
        if p.form = '=' then rule.readLevel rest behind else rule.readSpan rest behind

/-- The line that says why a piece is left out. -/
def Fault.line (fault : Fault) (piece : String) : String :=
  "ignoring \x60" ++ piece ++ "\x60: " ++ fault.message ++ "\n"

/-- The rules of a text, and the lines about the pieces that are none, both in order. -/
def readAll (text : String) : List Rule × List String :=
  let pieces := (Text.split ',' text).filter fun piece => !piece.isEmpty
  (pieces.filterMap fun piece => (read piece).toOption,
    pieces.filterMap fun piece =>
      match read piece with
      | .ok _ => none
      | .error fault => some (fault.line piece))

/-! ### Deciding -/

/-- Whether a rule is for the lines of an origin that are outside all spans and have a message
alone. A rule that asks for a span or for a value is for lines inside spans. -/
def isFor (rule : Rule) (origin : String) : Bool :=
  rule.span.isNone &&
    (match rule.origin with
      | none => true
      | some start => start.toList.isPrefixOf origin.toList) &&
    (match rule.field with
      | none => true
      | some field => field.name = "message" && field.value.isNone)

/-- How specific a rule is: a longer origin counts before a field. -/
def rank (rule : Rule) : Nat :=
  2 * (match rule.origin with
    | none => 0
    | some start => start.length + 1) + (if rule.field.isSome then 1 else 0)

/-- The rule that decides about the lines of an origin: the most specific one that is for them, and
of equally specific ones the last. -/
def decisive (rules : List Rule) (origin : String) : Option Rule :=
  (rules.filter (·.isFor origin)).foldl (fun best rule =>
    match best with
    | none => some rule
    | some other => if other.rank ≤ rule.rank then some rule else some other) none

/-- The lines of an origin that the rules let through; none where no rule is for them. -/
def visible (rules : List Rule) (origin : String) (lines : List Line) : List Line :=
  match decisive rules origin with
  | none => []
  | some rule => lines.filter fun line => rule.threshold.admits line.level

end Rule

end RingCache.Log

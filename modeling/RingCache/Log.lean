import RingCache.Json

/-!
# Log lines

A log is a list of lines, each with a level that says how grave it is. It is written in words or as
values of the data format. A log in words is read by people at a terminal, one line per message: so
the characters that begin an order to the terminal are written by their codes, and a message ends at
its first line end. In the data format a message needs neither.
-/

namespace RingCache.Log

/-! ### Levels -/

/-- How grave a line of the log is. -/
inductive Level where
  | trace
  | debug
  | info
  | warn
  | error
  deriving DecidableEq

namespace Level

def name : Level → String
  | .trace => "TRACE"
  | .debug => "DEBUG"
  | .info => "INFO"
  | .warn => "WARN"
  | .error => "ERROR"

/-- The rank of a level: graver levels have higher ranks. -/
def rank : Level → Nat
  | .trace => 0
  | .debug => 1
  | .info => 2
  | .warn => 3
  | .error => 4

def ofName? (s : String) : Option Level :=
  match s.toLower with
  | "trace" => some .trace
  | "debug" => some .debug
  | "info" => some .info
  | "warn" => some .warn
  | "error" => some .error
  | _ => none

/-- The level that a setting names; what names no level stands for `info`. -/
def ofSetting (s : String) : Level := (ofName? s).getD .info

end Level

/-! ### Lines -/

/-- A line of the log. -/
structure Line where
  level : Level
  message : String
  deriving DecidableEq

namespace Line

def info (message : String) : Line := ⟨.info, message⟩

/-- A character of a message in words: escape, bell, backspace, form feed and delete by two digits,
the control characters from U+0080 on by their digits in braces. -/
def encodeChar (c : Char) : List Char :=
  if c ∈ ['\x1b', '\x07', '\x08', '\x0c', '\x7f'] then
    ['\\', 'x', Text.hexDigit (c.toNat / 16), Text.hexDigit (c.toNat % 16)]
  else if 0x80 ≤ c.toNat ∧ c.toNat ≤ 0x9f then
    ['\\', 'u', '{'] ++ Text.hexDigits c.toNat ++ ['}']
  else [c]

/-- A text up to its first line end; a carriage return before that belongs to it. -/
def firstLine (cs : List Char) : List Char :=
  let line := cs.takeWhile (· ≠ '\n')
  if line.getLast? = some '\r' then line.dropLast else line

/-- A line as a reader of the log finds it. -/
def shown (asJson : Bool) (line : Line) : Line :=
  if asJson then line
  else { line with message := String.ofList (firstLine (line.message.toList.flatMap encodeChar)) }

/-- A line as it is written. -/
def text (asJson : Bool) (line : Line) : String :=
  let line := line.shown asJson
  if asJson then
    let value := Json.record [("level", .text line.level.name), ("message", .text line.message)]
    match value.render with
    | .ok text => text
    | .error fault => fault.message
  else s!"{line.level.name} {line.message}"

end Line

end RingCache.Log

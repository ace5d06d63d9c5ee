import RingCache.Cli.Session

/-!
# The program

A thin outer layer: it takes the arguments and the environment, prints what a session says, and
passes on requests, one per line of its input. The end of the input shuts the node down.
-/

namespace RingCache.Cli

/-- The variables that are set in the environment of the program. -/
def readEnvironment : IO Environment := do
  let found ← variableNames.mapM fun name => do
    let value ← IO.getEnv name
    pure (value.map fun v => (name, v))
  pure (found.filterMap fun entry => entry)

/-- Prints the lines of the log that the rules let through. -/
def printLines (settings : Settings) (rules : List Log.Rule) (lines : List Log.Line) : IO Unit :=
  for line in Log.Rule.visible rules origin lines do
    IO.println (line.text settings.logJson)

/-- Answers one request per line until the input ends. -/
partial def converse (settings : Settings) (rules : List Log.Rule) (session : Session) :
    IO Unit := do
  let line ← (← IO.getStdin).getLine
  if line.isEmpty then return ()
  match Session.Request.ofLine? line with
  | none =>
    IO.println "a request is a port, a method and a target"
    converse settings rules session
  | some r =>
    let (reply, lines, session) := session.request r
    printLines settings rules lines
    IO.println reply.text
    converse settings rules session

end RingCache.Cli

open RingCache.Cli in
def main (args : List String) : IO UInt32 := do
  let env ← readEnvironment
  match Invocation.read args env with
  | .help =>
    IO.println "Usage: peercache [OPTIONS]"
    return 0
  | .version =>
    IO.print versionLine
    return 0
  | .misuse =>
    IO.eprintln "error: the command line cannot be read; for more, try --help"
    return 2
  | .run settings =>
    let (rules, faults) := logRules env settings
    for fault in faults do
      IO.eprint fault
    printLines settings rules (Session.banner settings)
    match Session.start .up settings with
    | .error e =>
      IO.eprint (failureLine e)
      return 1
    | .ok session =>
      converse settings rules session
      printLines settings rules Session.farewell
      return 0

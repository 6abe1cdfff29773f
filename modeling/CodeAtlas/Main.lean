import CodeAtlas.Command.Run

/-!
# The command line

Reads the two files that a command needs, runs it, and prints what it comes to. Reports go to the standard
output, everything else to the standard error output.
-/

namespace CodeAtlas

/-- How the program is called. -/
def usageLines : List String :=
  ["Usage: code-hierarchy <COMMAND>",
    "",
    "Commands:",
    "  tree <GRAPH> <ENTITY>   print the hierarchy tree rooted at an entity",
    "  refs <GRAPH> <ENTITY>   list files whose entities use the selected symbol",
    "  filter <GRAPH>          filter the whole graph by category",
    "  stats <GRAPH> <ENTITY>  count the tree rooted at an entity",
    "",
    "Options:",
    "  --depth <N>             how far to walk (tree, refs, stats)",
    "  --category <LIST>       categories to keep (tree, filter)",
    "  --skip-filtered         bridge entities that are filtered out (tree, filter)",
    "  --expand-depth <N>      expand nodes above this depth (tree)",
    "  --format <FORMAT>       compact, table or json"]

/-- Does the system's code say that the path leads through something that is no directory? The code comes
negated where the call that failed returned it. -/
def isNoDirectory (code : UInt32) : Bool := code = 20 || 0 - code = 20

/-- Read a file. -/
def readFile (path : String) : IO FileContent := do
  try
    return .text (← IO.FS.readFile path)
  catch
    | .noFileOrDirectory .. => return .missing
    | .inappropriateType _ code _ => return if isNoDirectory code then .missing else .unreadable
    | _ => return .unreadable

/-- Run the program with arguments. -/
def runArguments (args : List String) : IO Outcome := do
  match Arguments.command args with
  | .error reason => return .stopped reason
  | .ok c =>
    return c.runOn UsageRule.unlimited (← readFile (Settings.pathFor c.graphPath)) (← readFile c.graphPath)

/-- Print what a run comes to. -/
def Outcome.print (outcome : Outcome) : IO Unit := do
  let errors ← IO.getStderr
  for warning in outcome.warnings do
    errors.putStrLn ("WARN " ++ warning.message)
  IO.print outcome.output
  match outcome with
  | .stopped .rejected => errors.putStr (Report.ofLines usageLines)
  | .stopped .help => IO.print (Report.ofLines usageLines)
  | .failed _ failure => errors.putStrLn ("Error: " ++ failure.message)
  | _ => return

end CodeAtlas

/-- The program. -/
def main (args : List String) : IO UInt32 := do
  let outcome ← CodeAtlas.runArguments args
  outcome.print
  return UInt32.ofNat outcome.exitCode

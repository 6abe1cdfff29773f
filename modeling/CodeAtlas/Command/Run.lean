import CodeAtlas.Command.Arguments
import CodeAtlas.Command.Files
import CodeAtlas.Filter.Apply
import CodeAtlas.Hierarchy.Expansion
import CodeAtlas.Reference.Analyze
import CodeAtlas.Report.Filter
import CodeAtlas.Report.Reference
import CodeAtlas.Report.Tree
import CodeAtlas.Settings.Exclude

/-!
# Running a command

A command reads a graph and the settings next to it. Settings that cannot be read or make no sense are
passed over with a warning. A command fails if the graph cannot be read, is no graph, or does not hold the
entity asked for once the excluded files are left out.
-/

namespace CodeAtlas

open Arguments (Stop)

/-- What is worth a warning. -/
inductive Warning where
  /-- The settings cannot be read. -/
  | unreadableSettings
  /-- The settings make no sense. -/
  | invalidSettings
  /-- A pattern of files to leave out makes no sense. -/
  | invalidPattern (text : String)
  /-- A filter without categories hides nothing. -/
  | noCategories
  deriving DecidableEq, Repr

/-- A warning in words. -/
def Warning.message : Warning → String
  | .unreadableSettings => "failed to read config, using defaults"
  | .invalidSettings => "failed to parse config, using defaults"
  | .invalidPattern _ => "ignoring invalid exclude pattern"
  | .noCategories => "no categories given, graph is returned unfiltered"

/-- Why a command fails. -/
inductive Failure where
  /-- The graph cannot be read. -/
  | unreadableGraph (path : String)
  /-- The file holds no graph. -/
  | invalidGraph (path : String)
  /-- The graph has no such entity. -/
  | noEntity (query : String)
  deriving DecidableEq, Repr

/-- A failure in words. -/
def Failure.message : Failure → String
  | .unreadableGraph path => "failed to read graph file " ++ path
  | .invalidGraph path => "invalid graph file " ++ path
  | .noEntity query => "no entity matching '" ++ query ++ "'"

/-- What a run comes to. -/
inductive Outcome where
  /-- No command was run. -/
  | stopped (reason : Stop)
  /-- The command failed. -/
  | failed (warnings : List Warning) (failure : Failure)
  /-- The command has a report. -/
  | done (warnings : List Warning) (report : String)
  deriving DecidableEq, Repr

namespace Outcome

/-- The program's name and version. -/
def versionLine (command : Option String) : String :=
  "code-hierarchy" ++ ((command.map ("-" ++ ·)).getD "") ++ " 0.1.0"

/-- The code with which the program ends. -/
def exitCode : Outcome → Nat
  | .stopped .rejected => 2
  | .stopped _ => 0
  | .failed _ _ => 1
  | .done _ _ => 0

/-- What the program prints. -/
def output : Outcome → String
  | .stopped (.version command) => Report.ofLines [versionLine command]
  | .done _ report => report
  | _ => ""

/-- The warnings in order. -/
def warnings : Outcome → List Warning
  | .stopped _ => []
  | .failed warnings _ => warnings
  | .done warnings _ => warnings

/-- The failure, if there is one. -/
def failure? : Outcome → Option Failure
  | .failed _ failure => some failure
  | _ => none

end Outcome

/-! ### Reading -/

/-- The name of the file with settings. -/
def Settings.fileName : String := "code-hierarchy.toml"

/-- The file with the settings for a graph: it stands in the same directory. -/
def Settings.pathFor (graphPath : String) : String :=
  let directory := ((Text.Path.parent? graphPath.toList).filter (· ≠ [])).getD ['.']
  String.ofList (directory ++ '/' :: fileName.toList)

/-- The settings in a file, with a warning if they are not usable. -/
def Settings.ofContent : FileContent → List Warning × Settings
  | .missing => ([], .unset)
  | .unreadable => ([.unreadableSettings], .unset)
  | .text content =>
    match ofText? content with
    | some settings => ([], settings)
    | none => ([.invalidSettings], .unset)

/-- The graph in a file. -/
def Graph.ofContent (path : String) : FileContent → Except Failure Graph
  | .text content =>
    match Json.decode Graph.reader content with
    | .ok g => .ok g
    | .error _ => .error (.invalidGraph path)
  | _ => .error (.unreadableGraph path)

/-! ### Running -/

namespace Command

/-- How far to walk if nothing says otherwise. -/
def defaultDepth : Nat := 3

/-- How far to walk: the option, or else the setting. -/
def depthOf (option : Option Nat) (settings : Settings) : Nat :=
  (option <|> settings.maxDepth).getD defaultDepth

/-- What to filter: the options, or else the settings for what the options leave open. -/
def filterOptions (categories : List String) (skipFiltered : Bool) (settings : Settings) :
    FilterOptions :=
  let given := if categories.isEmpty then settings.categories.getD [] else categories
  let trimmed := given.map fun c => String.ofList (Text.trim c.toList)
  .ofList (trimmed.filter (· ≠ "")) (skipFiltered || settings.skipFiltered.getD false)

/-- The entity that a query names. -/
def select (g : Graph) (query : String) : Except Failure Entity :=
  match g.find? query with
  | some e => .ok e
  | none => .error (.noEntity query)

/-- The report of a command on a graph without excluded files, with the warnings on the way. -/
def reportOn (fits : UsageRule.Capacity) (settings : Settings) (g : Graph) :
    Command → Except Failure (List Warning × String)
  | .tree _ entity depth categories skipFiltered expandDepth layout => do
    let selected ← select g entity
    let options := filterOptions categories skipFiltered settings
    let tree := Tree.buildFiltered selected g (depthOf depth settings) options
    let shown := (expandDepth.map tree.expandToDepth).getD tree
    return ([], shown.report layout)
  | .refs _ entity depth layout => do
    let selected ← select g entity
    let find := Usage.find fits
    let files := ReferenceFile.analyze find settings.projectRoot selected g (depthOf depth settings)
    return ([], ReferenceFile.report layout files)
  | .filter _ categories skipFiltered layout =>
    let options := filterOptions categories skipFiltered settings
    let warnings := if options.active then [] else [Warning.noCategories]
    .ok (warnings, (g.filterByCategory options).report layout)
  | .stats _ entity depth layout => do
    let selected ← select g entity
    let tree := Tree.buildFiltered selected g (depthOf depth settings) (filterOptions [] false settings)
    return ([], TreeStats.report layout tree)

/-- Run a command on the contents of the file with settings and of the file with the graph. -/
def runOn (fits : UsageRule.Capacity) (settingsContent graphContent : FileContent) (c : Command) : Outcome :=
  let (warnings, settings) := Settings.ofContent settingsContent
  match Graph.ofContent c.graphPath graphContent with
  | .error failure => .failed warnings failure
  | .ok g =>
    let warnings := warnings ++ settings.invalidPatterns.map Warning.invalidPattern
    match reportOn fits settings (settings.applyExcludes g) c with
    | .error failure => .failed warnings failure
    | .ok (more, report) => .done (warnings ++ more) report

/-- Run a command, reading files by `read`. -/
def run (fits : UsageRule.Capacity) (read : String → FileContent) (c : Command) : Outcome :=
  c.runOn fits (read (Settings.pathFor c.graphPath)) (read c.graphPath)

end Command

/-- Run the program with arguments, reading files by `read`. -/
def Outcome.ofArguments (fits : UsageRule.Capacity) (read : String → FileContent) (args : List String) :
    Outcome :=
  match Arguments.command args with
  | .error reason => .stopped reason
  | .ok c => c.run fits read

end CodeAtlas

import CodeAtlas.Command.Basic
import CodeAtlas.Number.Word

/-!
# Reading arguments

The first argument names a command, and the others are read from left to right. An argument that starts
with two dashes is an option; its value is attached behind an equals sign or is the next argument, which
then must not start with a dash, except that a lone dash is a value. Behind two dashes that stand alone
nothing is an option any more.

Reading stops at the first problem, or when help or the version is asked for. Whether something is
missing is only seen at the end.
-/

namespace CodeAtlas.Arguments

/-- Why no command results. -/
inductive Stop where
  /-- The arguments make no sense. -/
  | rejected
  /-- Help is asked for. -/
  | help
  /-- The version is asked for, of the program or of one of its commands. -/
  | version (command : Option String)
  deriving DecidableEq, Repr

/-- The commands by name. -/
inductive Name where
  | tree
  | refs
  | filter
  | stats
  deriving DecidableEq, Repr

/-- The options by name. -/
inductive Flag where
  | depth
  | category
  | skipFiltered
  | expandDepth
  | format
  deriving DecidableEq, Repr

namespace Name

/-- The command with a name. -/
def ofText? : String → Option Name
  | "tree" => some .tree
  | "refs" => some .refs
  | "filter" => some .filter
  | "stats" => some .stats
  | _ => none

/-- The name of a command. -/
def text : Name → String
  | .tree => "tree"
  | .refs => "refs"
  | .filter => "filter"
  | .stats => "stats"

/-- The options of a command. -/
def flags : Name → List Flag
  | .tree => [.depth, .category, .skipFiltered, .expandDepth, .format]
  | .refs => [.depth, .format]
  | .filter => [.category, .skipFiltered, .format]
  | .stats => [.depth, .format]

/-- How many arguments a command takes that are no options: a graph, and an entity for most. -/
def arity : Name → Nat
  | .filter => 1
  | _ => 2

end Name

/-- The option with a name. -/
def Flag.ofText? : String → Option Flag
  | "depth" => some .depth
  | "category" => some .category
  | "skip-filtered" => some .skipFiltered
  | "expand-depth" => some .expandDepth
  | "format" => some .format
  | _ => none

/-! ### Values of options -/

/-- The number that a text of digits spells, if there is at least one. -/
def digits? (l : List Char) : Option Nat :=
  if l.isEmpty || !l.all Char.isDigit then none
  else some (l.foldl (fun n c => n * 10 + (c.toNat - '0'.toNat)) 0)

/-- A number below `2 ^ 64`, with or without a plus sign. -/
def natural? (text : String) : Option Nat :=
  let digits :=
    match text.toList with
    | '+' :: rest => rest
    | l => l
  (digits? digits).filter (· < Number.bound64)

/-- A number of 32 bits with or without a sign. -/
def integer? (text : String) : Option Int :=
  let n : Option Int :=
    match text.toList with
    | '+' :: rest => (digits? rest).map Int.ofNat
    | '-' :: rest => (digits? rest).map fun n => -(n : Int)
    | l => (digits? l).map Int.ofNat
  n.filter (Number.fitsSigned Number.bound31)

/-- A layout by name. -/
def layout? : String → Option Layout
  | "compact" => some .compact
  | "table" => some .table
  | "json" => some .json
  | _ => none

/-! ### Reading from left to right -/

/-- What has been read so far. -/
structure Draft where
  /-- The arguments that are no options, last one first. -/
  positional : List String
  depth : Option Nat
  categories : List String
  skipFiltered : Bool
  expandDepth : Option Int
  layout : Option Layout
  /-- The option that waits for its value. -/
  waiting : Option Flag
  /-- Have two lone dashes been read? -/
  literal : Bool
  deriving DecidableEq, Repr

namespace Draft

/-- Nothing read yet. -/
def blank : Draft :=
  { positional := [], depth := none, categories := [], skipFiltered := false, expandDepth := none,
    layout := none, waiting := none, literal := false }

/-- Set a value that is not set yet, if it can be read. -/
def once {α : Type} (old new : Option α) : Except Stop (Option α) :=
  match old, new with
  | none, some a => .ok (some a)
  | _, _ => .error .rejected

/-- Give an option its value. -/
def assign (d : Draft) (flag : Flag) (value : String) : Except Stop Draft :=
  let d := { d with waiting := none }
  match flag with
  | .depth => do return { d with depth := ← once d.depth (natural? value) }
  | .expandDepth => do return { d with expandDepth := ← once d.expandDepth (integer? value) }
  | .format => do return { d with layout := ← once d.layout (layout? value) }
  | .category => .ok { d with categories := d.categories ++ value.splitOn "," }
  | .skipFiltered => .error .rejected

/-- Read an argument that is no option. A graph has a name. -/
def place (d : Draft) (name : Name) (arg : String) : Except Stop Draft :=
  if d.positional.length < name.arity ∧ (d.positional ≠ [] ∨ arg ≠ "") then
    .ok { d with positional := arg :: d.positional }
  else .error .rejected

/-- Read an option by its name, with the value attached to it if there is one. -/
def option (d : Draft) (name : Name) (option : String) (value : Option String) :
    Except Stop Draft :=
  match option, value with
  | "help", none => .error .help
  | "version", none => .error (.version (some name.text))
  | option, value =>
    match (Flag.ofText? option).filter name.flags.contains, value with
    | none, _ => .error .rejected
    | some .skipFiltered, none =>
      if d.skipFiltered then .error .rejected else .ok { d with skipFiltered := true }
    | some flag, some value => d.assign flag value
    | some flag, none => .ok { d with waiting := some flag }

/-- An option's name and the value attached to it. -/
def splitOption (l : List Char) : String × Option String :=
  let value :=
    match l.dropWhile (· ≠ '=') with
    | [] => none
    | _ :: value => some (String.ofList value)
  (String.ofList (l.takeWhile (· ≠ '=')), value)

/-- Does the argument look like an option? -/
def isOption (arg : String) : Bool := ['-'].isPrefixOf arg.toList && arg ≠ "-"

/-- Read one more argument. -/
def read (name : Name) (d : Draft) (arg : String) : Except Stop Draft :=
  match d.waiting with
  | some flag => if isOption arg then .error .rejected else d.assign flag arg
  | none =>
    if d.literal then d.place name arg
    else
      match arg.toList with
      | ['-', '-'] => .ok { d with literal := true }
      | '-' :: '-' :: rest => d.option name (splitOption rest).1 (splitOption rest).2
      | '-' :: 'h' :: _ => .error .help
      | '-' :: 'V' :: _ => .error (.version (some name.text))
      | '-' :: _ :: _ => .error .rejected
      | _ => d.place name arg

/-- The command, if nothing is missing. -/
def finish (name : Name) (d : Draft) : Except Stop Command :=
  let layout := d.layout.getD .compact
  match d.waiting, name, d.positional with
  | none, .tree, [entity, graph] =>
    .ok (.tree graph entity d.depth d.categories d.skipFiltered d.expandDepth layout)
  | none, .refs, [entity, graph] => .ok (.refs graph entity d.depth layout)
  | none, .filter, [graph] => .ok (.filter graph d.categories d.skipFiltered layout)
  | none, .stats, [entity, graph] => .ok (.stats graph entity d.depth layout)
  | _, _, _ => .error .rejected

end Draft

/-- Help on the program, on one of its commands, or on help itself. -/
def helpOn : List String → Stop
  | [] => .help
  | [topic] => if topic = "help" || (Name.ofText? topic).isSome then .help else .rejected
  | _ => .rejected

/-- The command that arguments ask for. -/
def command : List String → Except Stop Command
  | [] => .error .rejected
  | first :: rest =>
    match Name.ofText? first with
    | some name => do (← rest.foldlM (Draft.read name) .blank).finish name
    | none =>
      match first.toList with
      | ['h', 'e', 'l', 'p'] => .error (helpOn rest)
      | '-' :: 'h' :: _ => .error .help
      | '-' :: 'V' :: _ => .error (.version none)
      | '-' :: '-' :: option =>
        if option = "help".toList then .error .help
        else if option = "version".toList then .error (.version none)
        else .error .rejected
      | _ => .error .rejected

end CodeAtlas.Arguments

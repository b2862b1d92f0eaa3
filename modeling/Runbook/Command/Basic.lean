import Runbook.Command.Arguments

/-!
# Commands

The commands of the command line and their grammars. The words behind the name of a command are read
by a grammar of their own; what neither grammar knows is left over and refused.
-/

set_option autoImplicit false

namespace Runbook

/-- A command. -/
inductive Command where
  | listWorkflows
  | showWorkflow (id : String)
  | importWorkflow (path : String)
  | deleteWorkflow (id : String)
  | listVariables
  /-- The value `none` stands for a divider in its place. -/
  | setVariable (name : String) (value : Option String) (description : String)
  | deleteVariable (name : String)
  | validate (id : String) (assignments : List String)
  | run (id : String) (assignments : List String)
  deriving DecidableEq, Repr

namespace Command

/-- The name of the program. -/
def programName : String := "devops-workflows"

/-- The flag for an assignment. -/
def assignmentFlag : Flag := ⟨["--var"], .value⟩

/-- The flag for the description of a global variable. -/
def descriptionFlag : Flag := ⟨["--description"], .value⟩

/-- The commands, each with its flags and operands. -/
def table : List (String × List Flag × List String) :=
  [("list-workflows", [], []),
    ("show-workflow", [], ["workflow_id"]),
    ("import-workflow", [], ["path"]),
    ("delete-workflow", [], ["workflow_id"]),
    ("list-vars", [], []),
    ("set-var", [descriptionFlag], ["name", "value"]),
    ("delete-var", [], ["name"]),
    ("validate", [assignmentFlag], ["workflow_id"]),
    ("run", [assignmentFlag], ["workflow_id"])]

/-- The grammar of the whole command line. -/
def grammar : Grammar :=
  { program := programName, flags := [.help, ⟨["--version"], .version⟩]
    operands := [.command "command" (table.map (·.1))] }

/-- The grammar of the words behind the name of a command. -/
def grammarOf (name : String) : Grammar :=
  let (flags, operands) := (table.lookup name).getD ([], [])
  { program := s!"{programName} {name}", flags := .help :: flags, operands := operands.map .one }

/-- The command of a name with what was read behind it. -/
def ofReading (name : String) (r : Reading) : Command :=
  let first := (r.operand 0).getD ""
  match name with
  | "list-workflows" => .listWorkflows
  | "show-workflow" => .showWorkflow first
  | "import-workflow" => .importWorkflow first
  | "delete-workflow" => .deleteWorkflow first
  | "list-vars" => .listVariables
  | "set-var" =>
    .setVariable first (r.operand 1) (((r.valuesOf descriptionFlag).getLast?).getD "")
  | "delete-var" => .deleteVariable first
  | "validate" => .validate first (r.valuesOf assignmentFlag)
  | _ => .run first (r.valuesOf assignmentFlag)

/-- Why there is no command, and the program or command whose grammar says so. -/
structure Refused where
  program : String
  why : Stop
  deriving DecidableEq, Repr

/-- Reads a command line. -/
def read (words : List String) : Except Refused Command := do
  let outer ← (grammar.read words).mapError (⟨programName, ·⟩)
  let name := outer.command.headD ""
  let inner := grammarOf name
  let reading ← (inner.read outer.command.tail).mapError (⟨inner.program, ·⟩)
  match outer.leftOver ++ reading.leftOver with
  | [] => return ofReading name reading
  | words => throw ⟨programName, .misuse (.leftOver words)⟩

end Command

end Runbook

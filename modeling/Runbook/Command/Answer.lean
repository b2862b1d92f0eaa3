import Runbook.Checked.Report
import Runbook.Command.Assignment
import Runbook.Command.Basic
import Runbook.Run.Stores

/-!
# Carrying out commands

A command is carried out in a world whose stores are open. Its answer is what it prints and an exit
code. What is not there, what is unfit, and what goes wrong have exit codes of their own; only what
goes wrong is told to the journal instead of the user.

The run of a workflow is printed line by line. The user may interrupt the printing behind a line:
then the run is asked to stop, and the lines that are left are printed too.
-/

set_option autoImplicit false

namespace Runbook.Command

open Run (World Live)

/-! ## Exit codes -/

/-- Something went wrong. -/
def exitFailed : Int := 1

/-- The settings or something given are unfit. -/
def exitUnfit : Int := 2

/-- There is no such workflow or variable. -/
def exitNotFound : Int := 3

/-- Some placeholders have no value. -/
def exitPlaceholders : Int := 5

/-- The exit code for the end of a run. -/
def exitOfStatus : Status → Int
  | .completed => 0
  | .cancelled => 130
  | _ => 4

/-! ## Answers -/

/-- What a command prints, each text with a line feed behind it, and its exit code. -/
structure Answer where
  exitCode : Int := 0
  out : List String := []
  err : List String := []
  deriving DecidableEq, Repr

/-- Why a command is not carried out. -/
inductive Problem where
  | assignment (fault : NotAnAssignment)
  | invalid (surface : Surface) (kind : String) (faults : List Fault)
  | store (fault : Store.Fault)
  deriving Repr

/-- The part of the program that answers command lines. -/
def commandLogger : String := "devops_workflows.engine.main"

/-- The name under which the journal knows a fault. -/
def journalKind : Store.Fault → String
  | .failed failure => s!"devops_workflows.engine.errors.{failure.kind}"
  | fault => fault.kind

/-- The record for a fault that was not foreseen. -/
def failedRecord (fault : Store.Fault) : Journal.Record :=
  { level := 40, logger := commandLogger, message := "Command failed"
    error := some (Journal.errorLine (journalKind fault) fault.message) }

/-- Whether a fault is that something is not there. -/
def isNotFound : Store.Fault → Bool
  | .failed failure => failure.families.contains .notFound
  | _ => false

/-- The answer to a problem. -/
def Problem.answer (w : World) : Problem → World × Answer
  | assignment fault => (w, { exitCode := exitUnfit, err := [fault.message] })
  | invalid surface kind faults =>
    (w, { exitCode := exitUnfit, err := [report surface kind faults] })
  | store fault =>
    if isNotFound fault then (w, { exitCode := exitNotFound, err := [fault.message] })
    else if fault.isUnfit then (w, { exitCode := exitUnfit, err := [fault.message] })
    else (w.note (failedRecord fault), { exitCode := exitFailed })

/-! ## Workflows and variables -/

/-- The line for a workflow in the list of all. -/
def workflowLine (w : Workflow) : String :=
  let category := if w.category == "" then "" else s!" [{w.category}]"
  s!"{w.id}\t{w.name}{category}\t{w.steps.length} steps"

/-- The line for a step with placeholders that have no value. -/
def placeholdersLine (entry : String × List String) : String :=
  s!"{entry.1}: " ++ ", ".intercalate entry.2

/-- The workflow in a file. -/
def readWorkflowFile (w : World) (path : Path) : Except Problem Workflow := do
  let bytes ← (w.disk.read path).mapError fun t => .store (.trouble t)
  let text ← (Store.readText bytes).mapError fun f => .store (.undecodable f)
  (Store.readDefinition Workflow.read text).mapError (.invalid .text "Workflow")

/-- Reads the workflow in a file and keeps it. -/
def importFile (w : World) (path : Path) : World × Except Problem Answer :=
  match readWorkflowFile w path with
  | .error problem => (w, .error problem)
  | .ok workflow =>
    match w.save workflow with
    | (w, .error fault) => (w, .error (.store fault))
    | (w, .ok saved) => (w, .ok { out := [s!"Saved workflow {saved.id} ({saved.name})"] })

/-- Keeps a global variable of which the parts are given. -/
def setGlobal (w : World) (name : String) (value : Option String) (description : String) :
    World × Except Problem Answer :=
  let given : Json :=
    .obj [("name", .str name), ("value", (value.map Json.str).getD (.arr [])),
      ("description", .str description)]
  match GlobalVariable.read given with
  | .error faults => (w, .error (.invalid .value "GlobalVariable" faults))
  | .ok variable_ =>
    match w.setVariable variable_ with
    | (w, .error fault) => (w, .error (.store fault))
    | (w, .ok _) => (w, .ok { out := [s!"Set {name}"] })

/-- The answer to a look ahead. -/
def lookAhead (w : World) (id : String) (assignments : List String) : Except Problem Answer := do
  let inputs ← (readAssignments assignments).mapError .assignment
  let missing ← (w.preflight id inputs).mapError fun f => .store (.failed f)
  if missing.isEmpty then return { out := ["All placeholders resolve"] }
  else return { exitCode := exitPlaceholders, out := missing.map placeholdersLine }

/-! ## Runs -/

/-- The record for a run that has ended. -/
def endedRecord (workflowId : String) (record : Run.Record) : Journal.Record :=
  { logger := commandLogger, message := "Execution ended"
    extra := [("execution_id", .str record.id), ("workflow_id", .str workflowId),
      ("status", .str record.status.name)] }

/-- The lines that are printed before the user interrupts, and those that are left. -/
def splitAtInterrupt (interruptOn : Option String) (lines : List String) :
    List String × Option (List String) :=
  match lines.span (some · != interruptOn) with
  | (before, line :: left) => (before ++ [line], some left)
  | (before, []) => (before, none)

/-- Prints the lines of a run. -/
def printRun (interruptOn : Option String) (live : Live) : Answer :=
  let (printed, left) := splitAtInterrupt interruptOn live.stream.drain.1
  { exitCode := exitOfStatus live.record.status
    out := printed ++ left.getD []
    err := if left.isSome then ["Cancelling..."] else [] }

/-- Runs a workflow and prints what it logs. -/
def runAndPrint (w : World) (interruptOn : Option String) (id : String)
    (assignments : List String) : World × Except Problem Answer :=
  match readAssignments assignments with
  | .error fault => (w, .error (.assignment fault))
  | .ok inputs =>
    match w.runWhole id inputs (Live.fresh false interruptOn) with
    | (w, .error failure) => (w, .error (.store (.failed failure)))
    | (w, .ok live) => (w.note (endedRecord id live.record), .ok (printRun interruptOn live))

/-! ## All commands -/

/-- Carries out a command. -/
def carryOut (w : World) (interruptOn : Option String) : Command → World × Except Problem Answer
  | listWorkflows => (w, .ok { out := w.workflows.list.map workflowLine })
  | showWorkflow id =>
    match w.workflows.get id with
    | .error failure => (w, .error (.store (.failed failure)))
    | .ok workflow => (w, .ok { out := [workflow.toJson.indented] })
  | importWorkflow path => importFile w (Path.ofString path)
  | deleteWorkflow id =>
    match w.deleteWorkflow id with
    | (w, .error fault) => (w, .error (.store fault))
    | (w, .ok ()) => (w, .ok { out := [s!"Deleted workflow {id}"] })
  | listVariables => (w, .ok { out := w.globals.list.map fun v => s!"{v.name}={v.value}" })
  | setVariable name value description => setGlobal w name value description
  | deleteVariable name =>
    match w.deleteVariable name with
    | (w, .error fault) => (w, .error (.store fault))
    | (w, .ok ()) => (w, .ok { out := [s!"Deleted {name}"] })
  | validate id assignments => (w, lookAhead w id assignments)
  | run id assignments => runAndPrint w interruptOn id assignments

/-- Answers a command. -/
def answer (w : World) (interruptOn : Option String) (command : Command) : World × Answer :=
  match command.carryOut w interruptOn with
  | (w, .ok answer) => (w, answer)
  | (w, .error problem) => problem.answer w

end Runbook.Command

import Runbook.Definition.Step
import Runbook.Definition.Variable
import Runbook.Text.Quoted

/-!
# Workflows

A workflow is a list of steps with declared variables. Its id is trimmed when it is read and must
not hold a path separator or be `.` or `..`, because the workflow is stored in a file of that name.
No two steps may have the same id.
-/

set_option autoImplicit false

namespace Runbook

/-- A workflow. -/
structure Workflow where
  id : String := ""
  name : String := ""
  description : String := ""
  category : String := ""
  declared : List Variable := []
  steps : List Step := []
  createdAt : Option Timestamp := none
  updatedAt : Option Timestamp := none
  deriving DecidableEq, Repr, Inhabited

namespace Workflow

/-- Whether an id can be the name of a file. -/
def isFileName (id : String) : Bool :=
  !(id.toList.any fun c => c == '/' || c == '\\') && id != "." && id != ".."

/-- Reads the id of a workflow. -/
def readId (value : Json) : Checked String :=
  (Checked.text value).andThen fun id =>
    let id := Text.strip id
    if isFileName id then .ok id
    else .fail (.rejected s!"workflow id cannot be used as a file name: {Text.quoted id}") value

/-- The first step id that an earlier step has too. -/
def duplicateId? : List String → List Step → Option String
  | _, [] => none
  | seen, step :: rest => if seen.contains step.id then some step.id
    else duplicateId? (step.id :: seen) rest

/-- Refuses a workflow two of whose steps share an id. -/
def checkStepIds (input : Json) (w : Workflow) : Checked Workflow :=
  match duplicateId? [] w.steps with
  | some id => .fail (.rejected s!"duplicate step id: {Text.quoted id}") input
  | none => .ok w

/-- Reads a workflow. -/
def read (input : Json) : Checked Workflow :=
  (Checked.model "Workflow" (fun fields =>
    pure Workflow.mk
      <*> Checked.optional fields "id" "" readId
      <*> Checked.optional fields "name" "" Checked.text
      <*> Checked.optional fields "description" "" Checked.text
      <*> Checked.optional fields "category" "" Checked.text
      <*> Checked.optional fields "variables" [] (Checked.nullAs [] (Checked.list Variable.read))
      <*> Checked.optional fields "steps" [] (Checked.nullAs [] (Checked.list Step.read))
      <*> Checked.optional fields "created_at" none (Checked.nullable Checked.timestamp)
      <*> Checked.optional fields "updated_at" none (Checked.nullable Checked.timestamp))
    input).andThen (checkStepIds input)

/-- A workflow as it is written. -/
def toJson (w : Workflow) : Json :=
  .obj [("id", .str w.id), ("name", .str w.name), ("description", .str w.description),
    ("category", .str w.category), ("variables", .arr (w.declared.map Variable.toJson)),
    ("steps", .arr (w.steps.map Step.toJson)),
    ("created_at", Timestamp.optionToJson w.createdAt),
    ("updated_at", Timestamp.optionToJson w.updatedAt)]

/-- The position of the step with an id. -/
def position? (w : Workflow) (id : String) : Option Nat := w.steps.findIdx? (·.id == id)

/-- The name under which a workflow is announced: its id if it has no name. -/
def title (w : Workflow) : String := if w.name == "" then w.id else w.name

end Workflow

end Runbook

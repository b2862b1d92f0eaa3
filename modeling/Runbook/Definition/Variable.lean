import Runbook.Checked.Reader
import Runbook.Text.Blank
import Runbook.Timestamp.Printer

/-!
# Variables

A workflow declares the variables it uses, with a default each; global variables have a value that
all workflows share. A global variable's name is trimmed when it is read and must not be blank.
-/

set_option autoImplicit false

namespace Runbook

/-- A variable declared by a workflow. -/
structure Variable where
  name : String
  description : String := ""
  type : String := "string"
  defaultValue : String := ""
  options : List String := []
  isGlobal : Bool := false
  required : Bool := false
  deriving DecidableEq, Repr, Inhabited

/-- Reads a declared variable. -/
def Variable.read : Json → Checked Variable :=
  Checked.model "Variable" fun fields =>
    pure Variable.mk
      <*> Checked.required fields "name" Checked.text
      <*> Checked.optional fields "description" "" Checked.text
      <*> Checked.optional fields "type" "string" Checked.text
      <*> Checked.optional fields "default_value" "" Checked.text
      <*> Checked.optional fields "options" [] (Checked.nullAs [] (Checked.list Checked.text))
      <*> Checked.optional fields "is_global" false Checked.bool
      <*> Checked.optional fields "required" false Checked.bool

/-- A declared variable as it is written. -/
def Variable.toJson (v : Variable) : Json :=
  .obj [("name", .str v.name), ("description", .str v.description), ("type", .str v.type),
    ("default_value", .str v.defaultValue), ("options", Json.strs v.options),
    ("is_global", .bool v.isGlobal), ("required", .bool v.required)]

/-- A point in time as it is written, null for none. -/
def Timestamp.optionToJson : Option Timestamp → Json
  | some t => .str t.print
  | none => .null

/-- A named value that all workflows share. -/
structure GlobalVariable where
  name : String
  value : String := ""
  description : String := ""
  createdAt : Option Timestamp := none
  updatedAt : Option Timestamp := none
  deriving DecidableEq, Repr, Inhabited

/-- Reads the name of a global variable. -/
def GlobalVariable.readName (value : Json) : Checked String :=
  (Checked.text value).andThen fun name =>
    let name := Text.strip name
    if name == "" then .fail (.rejected "variable name must not be empty") value else .ok name

/-- Reads a global variable. -/
def GlobalVariable.read : Json → Checked GlobalVariable :=
  Checked.model "GlobalVariable" fun fields =>
    pure GlobalVariable.mk
      <*> Checked.required fields "name" GlobalVariable.readName
      <*> Checked.optional fields "value" "" Checked.text
      <*> Checked.optional fields "description" "" Checked.text
      <*> Checked.optional fields "created_at" none (Checked.nullable Checked.timestamp)
      <*> Checked.optional fields "updated_at" none (Checked.nullable Checked.timestamp)

/-- A global variable as it is written. -/
def GlobalVariable.toJson (v : GlobalVariable) : Json :=
  .obj [("name", .str v.name), ("value", .str v.value), ("description", .str v.description),
    ("created_at", Timestamp.optionToJson v.createdAt),
    ("updated_at", Timestamp.optionToJson v.updatedAt)]

end Runbook

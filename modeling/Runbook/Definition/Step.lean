import Runbook.Checked.Reader

/-!
# Steps, conditions and actions

A step runs a command or another workflow. A condition on its outcome carries the action to take
when it holds; two more actions are taken on success and on failure. The kinds of steps, conditions
and actions are texts, and a text that names no kind is kept; `Action.verb` and `Step.work` say what
a text means.
-/

set_option autoImplicit false

namespace Runbook

/-- What to do after a step. -/
structure Action where
  type : String := "continue"
  target : String := ""
  deriving DecidableEq, Repr, Inhabited

/-- The meaning of an action. -/
inductive Verb where
  | goOn
  | stop
  | jumpTo (target : String)
  | executeStep (target : String)
  | unknown (type : String)
  deriving DecidableEq, Repr

/-- The meaning of an action's type text. -/
def Action.verb (a : Action) : Verb :=
  if a.type == "stop" then .stop
  else if a.type == "jump_to" then .jumpTo a.target
  else if a.type == "execute_step" then .executeStep a.target
  else if a.type == "continue" then .goOn
  else .unknown a.type

/-- Reads an action. -/
def Action.read : Json → Checked Action :=
  Checked.model "StepAction" fun fields =>
    pure Action.mk
      <*> Checked.optional fields "type" "continue" Checked.text
      <*> Checked.optional fields "target" "" Checked.text

/-- An action as it is written. -/
def Action.toJson (a : Action) : Json := .obj [("type", .str a.type), ("target", .str a.target)]

/-- An action or its absence as it is written. -/
def Action.optionToJson : Option Action → Json
  | some a => a.toJson
  | none => .null

/-- A test of a step's outcome and the action to take when it holds. -/
structure Condition where
  type : String
  value : String := ""
  operator : String := ""
  action : Action := {}
  deriving DecidableEq, Repr, Inhabited

/-- Reads a condition. -/
def Condition.read : Json → Checked Condition :=
  Checked.model "Condition" fun fields =>
    pure Condition.mk
      <*> Checked.required fields "type" Checked.text
      <*> Checked.optional fields "value" "" Checked.text
      <*> Checked.optional fields "operator" "" Checked.text
      <*> Checked.optional fields "action" {} Action.read

/-- A condition as it is written. -/
def Condition.toJson (c : Condition) : Json :=
  .obj [("type", .str c.type), ("value", .str c.value), ("operator", .str c.operator),
    ("action", c.action.toJson)]

/-- A step of a workflow. Steps run in the order of the list they stand in; `order` is only kept. -/
structure Step where
  id : String
  name : String := ""
  type : String := "command"
  order : Int := 0
  content : String := ""
  bindings : Scope := []
  conditions : List Condition := []
  onSuccess : Option Action := none
  onFailure : Option Action := none
  deriving DecidableEq, Repr, Inhabited

/-- The meaning of a step's type text. -/
inductive Work where
  | command
  | workflow
  | unknown (type : String)
  deriving DecidableEq, Repr

/-- What a step runs. -/
def Step.work (s : Step) : Work :=
  if s.type == "command" then .command
  else if s.type == "workflow_ref" then .workflow
  else .unknown s.type

/-- The name under which a step is shown: its id if it has no name. -/
def Step.displayName (s : Step) : String := if s.name == "" then s.id else s.name

/-- Reads a step. -/
def Step.read : Json → Checked Step :=
  Checked.model "Step" fun fields =>
    pure Step.mk
      <*> Checked.required fields "id" Checked.text
      <*> Checked.optional fields "name" "" Checked.text
      <*> Checked.optional fields "type" "command" Checked.text
      <*> Checked.optional fields "order" 0 Checked.int
      <*> Checked.optional fields "content" "" Checked.text
      <*> Checked.optional fields "variables" [] (Checked.nullAs [] Checked.scope)
      <*> Checked.optional fields "conditions" []
        (Checked.nullAs [] (Checked.list Condition.read))
      <*> Checked.optional fields "on_success" none (Checked.nullable Action.read)
      <*> Checked.optional fields "on_failure" none (Checked.nullable Action.read)

/-- A step as it is written. -/
def Step.toJson (s : Step) : Json :=
  .obj [("id", .str s.id), ("name", .str s.name), ("type", .str s.type), ("order", .int s.order),
    ("content", .str s.content), ("variables", Json.strFields s.bindings),
    ("conditions", .arr (s.conditions.map Condition.toJson)),
    ("on_success", Action.optionToJson s.onSuccess),
    ("on_failure", Action.optionToJson s.onFailure)]

/-- The scope of a step: that of its run, and every local name whose variable the run knows. -/
def Step.bind (s : Step) (scope : Scope) : Scope :=
  s.bindings.foldl (fun bound (localName, sourceName) =>
    match scope.get? sourceName with
    | some value => bound.put localName value
    | none => bound) scope

end Runbook

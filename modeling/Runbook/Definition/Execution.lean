import Runbook.Checked.Reader
import Runbook.Timestamp.Printer

/-!
# Executions

What is known of a run of a workflow: its status, its variables and its log. A run starts as
`running` and ends with one of three terminal statuses.
-/

set_option autoImplicit false

namespace Runbook

/-- The status of a run. -/
inductive Status where
  | running
  | completed
  | failed
  | cancelled
  deriving DecidableEq, Repr, Inhabited

namespace Status

/-- The word for a status. -/
def name : Status → String
  | running => "running"
  | completed => "completed"
  | failed => "failed"
  | cancelled => "cancelled"

/-- The status that a word names. -/
def ofName? (s : String) : Option Status :=
  [running, completed, failed, cancelled].find? (·.name == s)

/-- Whether a run with this status has ended. -/
def isTerminal : Status → Bool
  | running => false
  | _ => true

/-- Reads a status. -/
def read (value : Json) : Checked Status :=
  match value.str?.bind ofName? with
  | some s => .ok s
  | none => .fail .notStatus value

end Status

/-- The level of a log entry. -/
inductive Level where
  | info
  | error
  deriving DecidableEq, Repr, Inhabited

/-- The word for a level. -/
def Level.name : Level → String
  | .info => "info"
  | .error => "error"

/-- Reads a level. -/
def Level.read (value : Json) : Checked Level :=
  match value with
  | .str "info" => .ok .info
  | .str "error" => .ok .error
  | other => .fail .notAmong other

/-- An entry of a run's log: the step it belongs to, a level and a message. -/
structure Entry where
  stepId : String := ""
  level : Level := .info
  message : String
  deriving DecidableEq, Repr, Inhabited

/-- An entry with the time at which it was made. -/
structure TimedEntry where
  timestamp : Timestamp
  entry : Entry
  deriving DecidableEq, Repr

/-- Reads a log entry; `now` is the time of an entry that names none. -/
def TimedEntry.read (now : Timestamp) : Json → Checked TimedEntry :=
  Checked.model "ExecutionLog" fun fields =>
    pure (fun t s l m => TimedEntry.mk t ⟨s, l, m⟩)
      <*> Checked.optional fields "timestamp" now Checked.timestamp
      <*> Checked.optional fields "step_id" "" Checked.text
      <*> Checked.optional fields "level" .info Level.read
      <*> Checked.required fields "message" Checked.text

/-- A log entry as it is written. -/
def TimedEntry.toJson (e : TimedEntry) : Json :=
  .obj [("timestamp", .str e.timestamp.print), ("step_id", .str e.entry.stepId),
    ("level", .str e.entry.level.name), ("message", .str e.entry.message)]

/-- A picture of a run at one moment. -/
structure Execution where
  id : String
  workflowId : String
  status : Status := .running
  scope : Scope := []
  logs : List TimedEntry := []
  startTime : Timestamp
  endTime : Option Timestamp := none
  deriving DecidableEq, Repr

/-- Reads a picture of a run; `now` is the time of a start or entry that names none. -/
def Execution.read (now : Timestamp) : Json → Checked Execution :=
  Checked.model "WorkflowExecution" fun fields =>
    pure Execution.mk
      <*> Checked.required fields "id" Checked.text
      <*> Checked.required fields "workflow_id" Checked.text
      <*> Checked.optional fields "status" .running Status.read
      <*> Checked.optional fields "variables" [] Checked.scope
      <*> Checked.optional fields "logs" [] (Checked.list (TimedEntry.read now))
      <*> Checked.optional fields "start_time" now Checked.timestamp
      <*> Checked.optional fields "end_time" none (Checked.nullable Checked.timestamp)

/-- A picture of a run as it is written. -/
def Execution.toJson (e : Execution) : Json :=
  .obj [("id", .str e.id), ("workflow_id", .str e.workflowId), ("status", .str e.status.name),
    ("variables", Json.strFields e.scope), ("logs", .arr (e.logs.map TimedEntry.toJson)),
    ("start_time", .str e.startTime.print),
    ("end_time", match e.endTime with
      | some t => .str t.print
      | none => .null)]

end Runbook

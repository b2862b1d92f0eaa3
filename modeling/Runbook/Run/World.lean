import Runbook.Journal.Record
import Runbook.Run.Record
import Runbook.Run.Steps
import Runbook.Run.Stream
import Runbook.Shell.Launch
import Runbook.Store.Variables
import Runbook.Store.Workflows

/-!
# The world around runs

The world holds the disk, the stores, the way in which commands are started, and the journal. It
replies to what a run asks, and keeps the record and the log stream of the outermost run. `advance`
carries a run on until it has ended, until a given line is in its log, or until it would have to
wait.
-/

set_option autoImplicit false

namespace Runbook.Run

/-- The world around runs. -/
structure World where
  disk : Files.Disk
  workflows : Store.Workflows := ⟨⟨"", []⟩, []⟩
  globals : Store.Variables := ⟨⟨"", []⟩, []⟩
  commands : Shell.Commands
  shell : String := "sh"
  workingDir : Option Path := none
  journal : List Journal.Record := []
  /-- How many runs have begun. -/
  begun : Nat := 0
  /-- How many workflows got a fresh id. -/
  named : Nat := 0
  /-- How often the stores have read the clock. -/
  stamped : Nat := 0
  /-- How often runs have read the clock. -/
  ticks : Nat := 0

/-- The time when nothing has happened yet. -/
def World.dawn : Int := 1704067200

/-- The time that the stores read next. -/
def World.stamp (w : World) : Timestamp × World :=
  (Timestamp.ofUnix (World.dawn + w.stamped + 1) 0, { w with stamped := w.stamped + 1 })

/-- The time that runs read next. -/
def World.now (w : World) : Timestamp × World :=
  (Timestamp.ofUnix (World.dawn + w.ticks) 0, { w with ticks := w.ticks + 1 })

/-- Adds a record to the journal. -/
def World.note (w : World) (r : Journal.Record) : World := { w with journal := w.journal ++ [r] }

/-- The parts of the program that write to the journal. -/
def stepsLogger : String := "devops_workflows.engine.workflow.executor"

/-- The part that judges conditions. -/
def conditionsLogger : String := "devops_workflows.engine.workflow.conditions"

/-- The part that starts commands. -/
def shellLogger : String := "devops_workflows.engine.workflow.shell"

/-- The outermost run: its record and log stream, and the line upon which its reader asks it to
stop. -/
structure Live where
  record : Record
  stream : Stream := {}
  cancelOn : Option String := none
  deriving Repr

/-- Adds an entry to the log and the stream. -/
def Live.append (l : Live) (now : Timestamp) (e : Entry) : Live :=
  let l := { l with
    record := l.record.append now e
    stream := (l.stream.put e.message).getD l.stream }
  if l.cancelOn == some e.message then { l with record := l.record.cancel } else l

/-! ## What is written to the journal -/

/-- The values that say of which run a record speaks. -/
def Identity.extra (run : Identity) (stepId : String) : Assoc Json :=
  [("execution_id", .str run.executionId), ("workflow_id", .str run.workflowId),
    ("step_id", .str stepId)]

/-- The level of the record for a log entry. -/
def entryLevel (e : Entry) (isOutput : Bool) : Int :=
  if isOutput then 10
  else
    match e.level with
    | .error => 30
    | .info => 20

/-- The record for a condition that was passed over. -/
def passedOverRecord : Unusable → Journal.Record
  | .malformedPattern pattern fault =>
    { level := 30, logger := conditionsLogger, message := "Invalid condition regex"
      extra := [("pattern", .str pattern), ("error", .str (fault.message pattern))] }
  | .unknownType type =>
    { level := 30, logger := conditionsLogger, message := "Unknown condition type"
      extra := [("condition_type", .str type)] }

/-- The record for an event, if there is one. -/
def eventRecord? (run : Identity) : Event → Option Journal.Record
  | .entry e isOutput =>
    some { level := entryLevel e isOutput, logger := stepsLogger, message := e.message
           extra := run.extra e.stepId }
  | .passedOver why => some (passedOverRecord why)
  | .crashed crash =>
    some { level := 40, logger := stepsLogger, message := "Workflow execution crashed"
           extra := run.extra "", error := some (Journal.errorLine crash.kind crash.message) }
  | .finished status stepId =>
    some { logger := stepsLogger, message := "Workflow execution finished"
           extra := run.extra stepId ++ [("status", .str status.name)] }
  | .closed => none

/-- The record for a run that begins. -/
def beginRecord (run : Identity) : Journal.Record :=
  { logger := stepsLogger, message := "Starting workflow execution"
    extra := [("execution_id", .str run.executionId), ("workflow_id", .str run.workflowId),
      ("depth", .int run.depth)] }

/-! ## Replies -/

/-- The id of the run that begins as the `n`-th. -/
def executionId (n : Nat) : String := s!"exec-uuid-{n}"

/-- The record of a run that has just begun. -/
def newRecord (id workflowId : String) (scope : Scope) (now : Timestamp) : Record :=
  { id := id, workflowId := workflowId, scope := scope, startTime := now }

/-- What an event does to the outermost run. -/
def Live.see (l : Live) (now : Timestamp) (run : Identity) (event : Event) : Live :=
  if run.depth != 0 then l
  else
    match event with
    | .entry e _ => l.append now e
    | .finished status _ =>
      match l.record.finish now status with
      | .ok (record, _) => { l with record := record }
      | .error _ => l
    | .closed => { l with stream := l.stream.close.1, record := l.record.markDone }
    | _ => l

/-- The reply to a question. -/
def reply (w : World) (l : Live) : (q : Query) → q.Reply × World × Live
  | .cancelRequested => (l.record.cancelRequested, w, l)
  | .workflow id => (w.workflows.get? id, w, l)
  | .globals => (w.globals.scope, w, l)
  | .begin workflowId scope depth =>
    let id := executionId (w.begun + 1)
    let (now, w) := { w with begun := w.begun + 1 }.now
    let w := w.note (beginRecord ⟨id, workflowId, depth⟩)
    let l := if depth == 0 then
        { l with record := { newRecord id workflowId scope now with
          cancelRequested := l.record.cancelRequested } }
      else l
    (id, w, l)
  | .launch command =>
    let (launch, commands) := w.commands.launch w.disk w.workingDir w.shell command
    (launch, { w with commands := commands }, l)
  | .wait _ =>
    if l.record.cancelRequested then
      (true, w.note { logger := shellLogger, message := "Killing shell command",
                      extra := [("pid", .int 0)] }, l)
    else (false, w, l)
  | .cancel => ((), w, { l with record := l.record.cancel })
  | .write change => ((), { w with disk := change w.disk }, l)
  | .tell run event =>
    let (now, w) := w.now
    let w := match eventRecord? run event with
      | some r => w.note r
      | none => w
    ((), w, l.see now run event)

/-- Whether a run may go on. -/
inductive Patience where
  /-- To its end. -/
  | whole
  /-- As long as it need not wait. -/
  | instant
  /-- Until a line is in its log. -/
  | untilLine (message : String)
  deriving DecidableEq, Repr

/-- Whether a run stops in front of a question. -/
def Patience.stopsAt (p : Patience) (l : Live) : Query → Bool
  | .wait _ => p == .instant && !l.record.cancelRequested
  | _ =>
    match p with
    | .untilLine message => l.record.logs.any (·.entry.message == message)
    | _ => false

/-- Carries a run on. -/
def advance {α : Type} (p : Patience) (w : World) (l : Live) :
    Dialogue Query.Reply α → Dialogue Query.Reply α × World × Live
  | .done a => (.done a, w, l)
  | .ask q next =>
    if p.stopsAt l q then (.ask q next, w, l)
    else
      let (r, w, l) := reply w l q
      advance p w l (next r)

/-- How many rounds a run may make. -/
def roundLimit : Nat := 100000

/-- How deep runs may be nested. -/
def depthLimit : Nat := 2000

/-- The dialogue of an outermost run. -/
def outermost (id : String) (inputs : Scope) :
    Dialogue Query.Reply (Except Break (Except Failure Status)) :=
  (execute roundLimit depthLimit [] id inputs).run

/-- An outermost run that has not begun yet. -/
def Live.fresh (cancelled : Bool) (cancelOn : Option String) : Live :=
  let now := Timestamp.ofUnix World.dawn 0
  { record := { newRecord "" "" [] now with cancelRequested := cancelled }, cancelOn := cancelOn }

end Runbook.Run

import Runbook.Command.Line

/-!
# The demonstration

A small program that keeps a workflow of three steps, runs it against a target and prints what it
logs. It does not handle any fault.
-/

set_option autoImplicit false

namespace Runbook.Command.Demo

open Run (World Live StartFault)

/-- The flag for the target. -/
def targetFlag : Flag := ⟨["--target"], .value⟩

/-- The grammar of the demonstration. -/
def grammar : Grammar := { program := "demo", flags := [.help, targetFlag], operands := [] }

/-- The target that a command line names. -/
def readTarget (words : List String) : Except Refused String := do
  let reading ← (grammar.read words).mapError (⟨grammar.program, ·⟩)
  match reading.leftOver with
  | [] => return ((reading.valuesOf targetFlag).getLast?).getD "localhost"
  | words => throw ⟨grammar.program, .misuse (.leftOver words)⟩

/-- The step that looks at the target. -/
def probe : Step :=
  { id := "probe", name := "Probe target"
    content := "echo checking \x7bTARGET\x7d; echo status=ok"
    conditions := [{ type := "contains", value := "status=degraded"
                     action := { type := "execute_step", target := "alert" } }] }

/-- The step that tells that the target is well. -/
def healthy : Step :=
  { id := "report", name := "Report", content := "echo \x7bTARGET\x7d is healthy" }

/-- The step that tells that the target is not well. -/
def alert : Step :=
  { id := "alert", name := "Alert", content := "echo \x7bTARGET\x7d needs attention"
    onSuccess := some { type := "stop" } }

/-- The workflow of the demonstration. -/
def workflow : Workflow :=
  { id := "demo-health-check", name := "Demo health check", category := "examples"
    declared := [{ name := "TARGET", defaultValue := "localhost" }]
    steps := [probe, healthy, alert] }

/-- Prints the lines of the run. -/
def printRun (live : Live) : Answer :=
  let record := live.record
  { out := live.stream.drain.1 ++ [s!"Execution {record.id} ended {record.status.name}"] }

/-- Keeps the workflow and runs it. -/
def demonstrate (w : World) (settings : Settings) (target : String) :
    World × Except Escape Answer :=
  match w.start settings with
  | (w, .error fault) => (w, .error (.start (.stores fault)))
  | (w, .ok ()) =>
    match w.save workflow with
    | (w, .error fault) => (w, .error (.start (.stores fault)))
    | (w, .ok saved) =>
      match w.runWhole saved.id [("TARGET", target)] (Live.fresh false none) with
      | (w, .error failure) => (w, .error (.failure failure))
      | (w, .ok live) => (w, .ok (printRun live))

/-- Carries out a use of the demonstration in a world whose journal is empty. -/
def use (environment : Scope) (interruptOn : Option String) (words : List String) (w : World) :
    World × Except Escape Outcome :=
  match readTarget words with
  | .error refused => (w, .ok { answer := refused.answer })
  | .ok target =>
    match (do
      let settings ← w.readSettings environment
      return (settings, ← World.setUpJournal settings) : Except StartFault _) with
    | .error fault => (w, .error (.start fault))
    | .ok (settings, setup) =>
      match demonstrate w settings target with
      | (w, .error escape) => (w, .error escape)
      | (w, .ok answer) =>
        if isInterrupted interruptOn answer then (w, .error .interrupted)
        else (w, .ok ⟨answer, w.journal.filter setup.keeps, settings.logFormat⟩)

end Runbook.Command.Demo

import Runbook.Run.Start

/-!
# The service

The service holds a world, its settings, and the runs that were asked for. A run goes on by itself as
long as it need not wait; waiting for it carries it to its end. Runs are kept in the order in which
they began, under their ids.
-/

set_option autoImplicit false

namespace Runbook

open Run (World Live Dialogue StartFault)

/-- A run that was asked for: how far it is, and what is still to come. -/
structure Service.Ongoing where
  live : Live
  rest : Dialogue Run.Query.Reply (Except Run.Break (Except Failure Status))

/-- The state of the service. -/
structure Service where
  world : World
  settings : Settings
  runs : Assoc Service.Ongoing := []

namespace Service

/-- Starts the service. -/
def start (environment : Scope) (w : World) : World × Except StartFault Service :=
  match w.readSettings environment with
  | .error fault => (w, .error fault)
  | .ok settings =>
    match w.start settings with
    | (w, .error fault) => (w, .error (.stores fault))
    | (w, .ok ()) => (w, .ok { world := w, settings := settings })

/-- The part of the program that keeps the runs. -/
def runsLogger : String := "devops_workflows.server.execution_registry"

/-- Begins a run. -/
def begin (s : Service) (id : String) (inputs : Scope) : Service × Except Failure Execution :=
  match Run.advance .instant s.world (Live.fresh false none) (Run.outermost id inputs) with
  | (.done (.ok (.error failure)), w, _) => ({ s with world := w }, .error failure)
  | (rest, w, live) =>
    ({ s with world := w, runs := s.runs.put live.record.id ⟨live, rest⟩ },
      .ok live.record.snapshot)

/-- The run with an id. -/
def find (s : Service) (id : String) : Except Failure Ongoing :=
  match s.runs.get? id with
  | some run => .ok run
  | none => .error (.executionNotFound id)

/-- Carries a run on. -/
def carryOn (s : Service) (patience : Run.Patience) (id : String) (run : Ongoing) :
    Service × Ongoing :=
  let (rest, w, live) := Run.advance patience s.world run.live run.rest
  let run : Ongoing := ⟨live, rest⟩
  ({ s with world := w, runs := s.runs.put id run }, run)

/-- Waits for a run, to its end or until a line is in its log. -/
def wait (s : Service) (patience : Run.Patience) (id : String) :
    Service × Except Failure Execution :=
  match s.find id with
  | .error failure => (s, .error failure)
  | .ok run =>
    let (s, run) := s.carryOn patience id run
    (s, .ok run.live.record.snapshot)

/-- The record for a run that was asked to stop. -/
def cancelRecord (id : String) : Journal.Record :=
  { logger := runsLogger, message := "Cancellation requested"
    extra := [("execution_id", .str id)] }

/-- Asks a run to stop. -/
def cancel (s : Service) (id : String) : Service × Except Failure Execution :=
  match s.find id with
  | .error failure => (s, .error failure)
  | .ok run =>
    let live := { run.live with record := run.live.record.cancel }
    ({ s with
        world := s.world.note (cancelRecord id)
        runs := s.runs.put id { run with live := live } },
      .ok live.record.snapshot)

/-- Pictures of all runs, the newest first. -/
def executions (s : Service) : List Execution :=
  (s.runs.values.map fun run => run.live.record.snapshot).reverse

end Service

end Runbook

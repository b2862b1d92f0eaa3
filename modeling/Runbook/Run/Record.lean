import Runbook.Definition.Execution

/-!
# Records of runs

The record of a run grows while the run goes on: its log gets entries, its status changes once to a
terminal one, and it is marked when nothing more is to come. A picture of it is an `Execution`.
-/

set_option autoImplicit false

namespace Runbook.Run

/-- The record of a run. -/
structure Record where
  id : String
  workflowId : String
  scope : Scope
  startTime : Timestamp
  status : Status := .running
  logs : List TimedEntry := []
  endTime : Option Timestamp := none
  cancelRequested : Bool := false
  done : Bool := false
  deriving DecidableEq, Repr

/-- A run cannot end with a status that is not terminal. -/
structure NotTerminal where
  status : Status
  deriving DecidableEq, Repr

/-- The message for a status that is not terminal. -/
def NotTerminal.message (e : NotTerminal) : String := s!"not a terminal status: {e.status.name}"

namespace Record

/-- Adds an entry to the log. -/
def append (r : Record) (now : Timestamp) (e : Entry) : Record :=
  { r with logs := r.logs ++ [⟨now, e⟩] }

/-- Ends the run with a status; only the first one counts. -/
def finish (r : Record) (now : Timestamp) (status : Status) : Except NotTerminal (Record × Bool) :=
  if !status.isTerminal then .error ⟨status⟩
  else if r.status.isTerminal then .ok (r, false)
  else .ok ({ r with status := status, endTime := some now }, true)

/-- Marks that nothing more is to come. -/
def markDone (r : Record) : Record := { r with done := true }

/-- Asks the run to stop. -/
def cancel (r : Record) : Record := { r with cancelRequested := true }

/-- A picture of the run. -/
def snapshot (r : Record) : Execution :=
  ⟨r.id, r.workflowId, r.status, r.scope, r.logs, r.startTime, r.endTime⟩

end Record

end Runbook.Run

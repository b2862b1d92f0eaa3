import Runbook.Run.World

/-!
# The stores of a world

Opening the stores of a world, changing them, and looking ahead with what they hold. Each change
reads the clock once, whether it succeeds or not; a workflow without id gets a fresh one.
-/

set_option autoImplicit false

namespace Runbook.Run.World

open Store (Skipped Workflows Variables)

/-- The part of the program that keeps the stores, as it signs the journal. -/
def storesLogger : String := "devops_workflows.engine.stores"

/-- The record for a file that was passed over. -/
def skippedRecord (s : Skipped) : Journal.Record :=
  { level := 30, logger := storesLogger, message := "Skipping unreadable workflow file"
    extra := [("path", .str s.path.text), ("error", .str s.reason.message)] }

/-- The record for a folder that was read. -/
def loadedRecord (s : Workflows) : Journal.Record :=
  { logger := storesLogger, message := "Workflow repository loaded"
    extra := [("directory", .str s.folder.text), ("workflows", .int s.held.length)] }

/-- Reads the workflows in a folder. If that fails, the store stays as it is. -/
def openWorkflows (w : World) (folder : Path) : World × Except Store.Fault Unit :=
  match Workflows.load w.disk folder with
  | .error fault => (w, .error fault)
  | .ok loaded =>
    let records := loaded.skipped.map skippedRecord ++ [loadedRecord loaded.store]
    ({ w with disk := loaded.disk, workflows := loaded.store, journal := w.journal ++ records },
      .ok ())

/-- Reads the workflows anew. -/
def reload (w : World) : World × Except Store.Fault Unit := w.openWorkflows w.workflows.folder

/-- Reads the global variables in a file. If that fails, the store stays as it is. -/
def openVariables (w : World) (file : Path) : World × Except Store.Fault Unit :=
  match Variables.load w.disk file with
  | .error fault => (w, .error fault)
  | .ok store => ({ w with globals := store }, .ok ())

/-- The next fresh id. -/
def freshId (w : World) : String × World :=
  (s!"wf-uuid-{w.named + 1}", { w with named := w.named + 1 })

/-- Keeps a workflow. -/
def save (w : World) (workflow : Workflow) : World × Except Store.Fault Workflow :=
  let (now, w) := w.stamp
  let (id, w) := if workflow.id == "" then w.freshId else (workflow.id, w)
  let changed := w.workflows.save w.disk now id workflow
  ({ w with disk := changed.disk, workflows := changed.store }, changed.answer)

/-- Takes a workflow away. -/
def deleteWorkflow (w : World) (id : String) : World × Except Store.Fault Unit :=
  let changed := w.workflows.delete w.disk id
  ({ w with disk := changed.disk, workflows := changed.store }, changed.answer)

/-- Keeps a global variable. -/
def setVariable (w : World) (v : GlobalVariable) : World × Except Store.Fault GlobalVariable :=
  let (now, w) := w.stamp
  let changed := w.globals.set w.disk now v
  ({ w with disk := changed.disk, globals := changed.store }, changed.answer)

/-- Takes a global variable away. -/
def deleteVariable (w : World) (name : String) : World × Except Store.Fault Unit :=
  let changed := w.globals.delete w.disk name
  ({ w with disk := changed.disk, globals := changed.store }, changed.answer)

/-- The variables that a run of a workflow with these inputs would have. -/
def resolved (w : World) (workflow : Workflow) (inputs : Scope) : Scope :=
  resolve w.globals.scope workflow.declared inputs

/-- The placeholders of each step that would have no value in a run with these inputs. -/
def preflight (w : World) (id : String) (inputs : Scope) :
    Except Failure (Assoc (List String)) :=
  (w.workflows.get id).map fun workflow => missingByStep workflow (w.resolved workflow inputs)

/-- Runs a workflow to its end. -/
def runWhole (w : World) (id : String) (inputs : Scope) (live : Live) :
    World × Except Failure Live :=
  match advance .whole w live (outermost id inputs) with
  | (.done (.ok (.error failure)), w, _) => (w, .error failure)
  | (_, w, live) => (w, .ok live)

end Runbook.Run.World

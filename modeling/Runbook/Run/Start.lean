import Runbook.Run.Stores
import Runbook.Settings.Basic

/-!
# Starting up

The program starts by reading its settings, setting up the journal, and opening both stores. The
stores keep their files below the data folder that the settings name.
-/

set_option autoImplicit false

namespace Runbook.Run

/-- Why the program does not start. -/
inductive StartFault where
  | settings (faults : List Fault)
  | undecodable (fault : Text.Utf8.Fault)
  | unknownLevel (fault : Journal.UnknownLevel)
  | stores (fault : Store.Fault)
  deriving Repr

namespace World

/-- The file of settings. -/
def settingsFile : Path := Path.ofString ".env"

/-- The settings that the environment and the file of settings make. -/
def readSettings (w : World) (environment : Scope) : Except StartFault Settings := do
  let text ←
    match w.disk.isFile settingsFile, w.disk.read settingsFile with
    | true, .ok bytes => ((Store.readText bytes).map some).mapError StartFault.undecodable
    | _, _ => pure none
  (Settings.read environment (text.map String.ofList)).mapError .settings

/-- Sets up the journal. -/
def setUpJournal (settings : Settings) : Except StartFault Journal.Setup :=
  match ({} : Journal.Setup).configure settings.logLevel settings.logFormat.name with
  | (setup, none) => .ok setup
  | (_, some fault) => .error (.unknownLevel fault)

/-- The part of the program that starts it. -/
def startLogger : String := "devops_workflows.engine.runtime"

/-- The record for a start. -/
def startedRecord (settings : Settings) : Journal.Record :=
  { logger := startLogger, message := "Workflow engine initialized"
    extra := [("data_dir", .str settings.dataDir.text)] }

/-- Opens both stores, and takes over how commands are to be started. -/
def start (w : World) (settings : Settings) : World × Except Store.Fault Unit :=
  let w := { w with shell := settings.shell, workingDir := settings.workingDir }
  match w.openWorkflows settings.workflowsDir with
  | (w, .error fault) => (w, .error fault)
  | (w, .ok ()) =>
    match w.openVariables settings.variablesFile with
    | (w, .error fault) => (w, .error fault)
    | (w, .ok ()) => (w.note (startedRecord settings), .ok ())

end World

end Runbook.Run

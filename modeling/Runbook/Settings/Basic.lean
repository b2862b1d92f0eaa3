import Runbook.Checked.Basic
import Runbook.Files.Path
import Runbook.Journal.Setup
import Runbook.Settings.Dotenv

/-!
# Settings

The settings come from the environment, then from a file of settings, then from defaults. Their names
are compared without regard to case. The shell must not be blank, and the format of the journal is
one of two words.
-/

set_option autoImplicit false

namespace Runbook

/-- The version of the program. -/
def programVersion : String := "0.1.0"

/-- The settings. -/
structure Settings where
  dataDir : Path
  shell : String
  workingDir : Option Path
  logLevel : String
  logFormat : Journal.Format
  corsOrigins : String
  deriving DecidableEq, Repr

namespace Settings

/-- The folder with one file for each workflow. -/
def workflowsDir (s : Settings) : Path := s.dataDir.child "workflows"

/-- The file with all global variables. -/
def variablesFile (s : Settings) : Path := s.dataDir.child "global_variables.json"

/-- The origins from which browsers may call. -/
def allowedOrigins (s : Settings) : List String :=
  ((Path.splitAt ',' s.corsOrigins.toList).map fun part => Text.strip (String.ofList part)).filter
    (· != "")

/-- The values of names given in any case. -/
def fold {α : Type} (entries : Assoc α) : Assoc α :=
  entries.foldl (fun known (name, value) => known.put (Text.toLower name) value) []

/-- Checks the name of a shell. -/
def readShell (value : String) : Checked String :=
  let shell := Text.strip value
  if shell == "" then .fail (.rejected "WORKFLOW_SHELL must not be empty") (.str value)
  else .ok shell

/-- Checks the word for the journal's format. -/
def readFormat (value : String) : Checked Journal.Format :=
  if value == "json" then .ok .json
  else if value == "text" then .ok .text
  else .fail .notAmong (.str value)

/-- The settings that the environment and a file of settings make. -/
def read (environment : Scope) (dotenv : Option String) : Checked Settings :=
  let first := fold environment
  let second := fold ((dotenv.map (readDotenv environment)).getD [])
  let given (name : String) : Option String :=
    match first.get? (Text.toLower name) with
    | some value => some value
    | none => (second.get? (Text.toLower name)).join
  let checked {α : Type} (name : String) (default : α) (check : String → Checked α) : Checked α :=
    match given name with
    | some value => Checked.under (.field name) (check value)
    | none => .ok default
  pure Settings.mk
    <*> checked "WORKFLOW_DATA_DIR" ⟨"", ["data"]⟩ (fun v => .ok (Path.ofString v))
    <*> checked "WORKFLOW_SHELL" "sh" readShell
    <*> checked "WORKFLOW_WORKING_DIR" none (fun v => .ok (some (Path.ofString v)))
    <*> checked "LOG_LEVEL" "INFO" .ok
    <*> checked "LOG_FORMAT" .json readFormat
    <*> checked "WORKFLOW_CORS_ORIGINS" "http://localhost:5173,http://127.0.0.1:5173" .ok

end Settings

end Runbook

import Runbook.Shell.Evaluation
import Runbook.Shell.Rehearsal

/-!
# Starting commands

A command is started in a working folder by a shell, or rehearsed. Starting a shell fails if its
arguments cannot be handed over, if the folder cannot be entered, or if there is no such program.
-/

set_option autoImplicit false

namespace Runbook.Shell

open Run

/-! ## Programs -/

/-- The programs that can be started in place of a shell: what each does with a command. -/
def program? (name : String) (disk : Files.Disk) (folder : Path) (environment : Scope)
    (command : String) : Option Performance :=
  let base := programName name
  let byTool (action : Act Unit) : Performance :=
    perform ⟨Shell.start name folder environment, { disk := disk }⟩ action
  if shellNames.contains base then some (performCommand name disk folder environment command)
  else
    match base, Tools.named.lookup base with
    | "true", _ => some (byTool (Act.setStatus 0))
    | "false", _ => some (byTool (Act.setStatus 1))
    | _, some tool => some (byTool (tool ["-c", command]))
    | _, none => none

/-- Why a program cannot be started, if there is no such program. -/
def missingProgram (name : String) (disk : Files.Disk) (folder : Path) : Files.Trouble :=
  let path := Path.ofString name
  if name == "" then .refused .permission name
  else if !name.contains '/' && !disk.isWithin path then .refused .notFound name
  else
    let path := if disk.isWithin path then path else folder.join path
    match disk.query path Files.Node.find with
    | .ok _ => .refused .permission name
    | .error (.refused why _) =>
      .refused (if knownFolders.contains name then .permission else why) name
    | .error trouble => trouble

/-- The folder in which a program is to start. -/
def workingFolder (disk : Files.Disk) : Option Path → Except Files.Trouble Path
  | none => .ok disk.home
  | some path =>
    let there := (disk.inFull path).resolve
    if knownFolders.contains there.text then .ok there
    else
      match disk.query path Files.Node.find with
      | .ok (.folder _) => .ok there
      | .ok (.file _) => .error (.refused .notFolder path.text)
      | .error trouble => .error trouble

/-- Starts a shell with a command. -/
def startCommand (environment : Scope) (disk : Files.Disk) (workingDir : Option Path)
    (shell command : String) : Except Files.Trouble Process := do
  for text in [shell, command] do
    match Files.handoverTrouble? text with
    | some trouble => throw trouble
    | none => pure ()
  let folder ← workingFolder disk workingDir
  match program? shell disk folder environment command with
  | some performance => return performance.process
  | none => throw (missingProgram shell disk folder)

/-! ## Launching -/

/-- How commands are started. -/
inductive Commands where
  | rehearsed (rehearsal : Rehearsal)
  /-- By a shell, with these variables of the environment. -/
  | started (environment : Scope)

/-- Starts a command. -/
def Commands.launch (c : Commands) (disk : Files.Disk) (workingDir : Option Path)
    (shell command : String) : Launch × Commands :=
  match c with
  | .rehearsed r =>
    let (launch, r) := r.launch command
    (launch, .rehearsed r)
  | .started environment =>
    match startCommand environment disk workingDir shell command with
    | .ok process => (.started process, c)
    | .error trouble =>
      if trouble.isRefusal then (.refused trouble.message, c)
      else (.crashed ⟨trouble.kind, trouble.message⟩, c)

end Runbook.Shell

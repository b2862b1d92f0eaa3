import Runbook.Command.Line
import Std.Time.DateTime.Timestamp

/-!
# The program

The program takes a picture of the current folder, carries out its command line on it, and puts back
what has changed. Commands of workflows are run by the shell of this library on the picture, with
the variables of the environment that are passed on.
-/

set_option autoImplicit false

namespace Runbook.Program

open Files (Node Disk)

/-- A picture of what is at a path. -/
partial def gather (path : String) : IO Node := do
  let here ← IO.FS.realPath path
  if ← here.isDir then
    let mut entries : Assoc Node := []
    for entry in ← here.readDir do
      entries := (entry.fileName, ← gather s!"{path}/{entry.fileName}") :: entries
    return .folder entries
  else return .file (← IO.FS.readBinFile path).toList

/-- Takes away what is at a path. -/
def remove (path : String) : Node → IO Unit
  | .file _ => IO.FS.removeFile path
  | .folder _ => IO.FS.removeDirAll path

/-- Puts a picture back at a path, where it was `before`. -/
partial def putBack (path : String) (before : Option Node) (node : Node) : IO Unit := do
  match before, node with
  | some (.file old), .file bytes =>
    if old != bytes then IO.FS.writeBinFile path ⟨bytes.toArray⟩
  | some (.folder old), .folder entries =>
    for (name, gone) in old do
      if (Assoc.get? entries name).isNone then remove s!"{path}/{name}" gone
    for (name, entry) in entries do
      putBack s!"{path}/{name}" (Assoc.get? old name) entry
  | some other, node =>
    remove path other
    putBack path none node
  | none, .file bytes => IO.FS.writeBinFile path ⟨bytes.toArray⟩
  | none, .folder entries =>
    IO.FS.createDir path
    for (name, entry) in entries do
      putBack s!"{path}/{name}" none entry

/-- The variables of the environment that are passed on. -/
def passedOn : List String :=
  ["WORKFLOW_DATA_DIR", "WORKFLOW_SHELL", "WORKFLOW_WORKING_DIR", "WORKFLOW_CORS_ORIGINS",
    "LOG_LEVEL", "LOG_FORMAT", "PATH", "HOME", "USER", "LANG"]

/-- The environment. -/
def environment : IO Scope := do
  let mut given : Scope := []
  for name in passedOn do
    if let some value ← IO.getEnv name then given := given ++ [(name, value)]
  return given

/-- The world at the start: its clock shows the time, and ids are counted from a random number. -/
def world (top : Node) (home : String) (given : Scope) : IO Run.World := do
  let now := (← Std.Time.Timestamp.now).toSecondsSinceUnixEpoch.val
  let count ← IO.rand 0 1000000000
  return { disk := { home := Path.ofString home, top := top }, commands := .started given
           begun := count, named := count, stamped := (now - Run.World.dawn).toNat
           ticks := (now - Run.World.dawn).toNat }

/-- A record as a line of the journal. -/
def journalLine (now : Timestamp) (format : Journal.Format) (r : Journal.Record) : String :=
  let date := (String.ofList (now.printLog.toList.take 19)).replace "T" " "
  let line := match format with
    | .json => r.jsonLine now
    | .text => r.textLine.map fun text => s!"{date} - {text}"
  match line with
  | .ok line => line
  | .error misfit => misfit.message

/-- Prints what is seen of a use of the program. -/
def print (now : Timestamp) (o : Command.Outcome) : IO UInt32 := do
  for r in o.journal do
    IO.eprintln (journalLine now o.format r)
  for text in o.answer.out do
    IO.println text
  for text in o.answer.err do
    IO.eprintln text
  return UInt32.ofNat o.answer.exitCode.toNat

/-- The message for what the program does not answer. -/
def escapeMessage : Command.Escape → String
  | .start (.settings faults) => report .value "EngineSettings" faults
  | .start (.undecodable fault) => fault.message
  | .start (.unknownLevel fault) => fault.message
  | .start (.stores fault) => fault.message
  | .interrupted => "interrupted"
  | .failure failure => failure.message

end Runbook.Program

open Runbook in
/-- The program. -/
def main (arguments : List String) : IO UInt32 := do
  let here ← IO.currentDir
  let top ← Program.gather "."
  let given ← Program.environment
  let world ← Program.world top here.toString given
  let (after, outcome) := Command.use given none arguments world
  Program.putBack "." (some top) after.disk.top
  match outcome with
  | .ok outcome => Program.print after.now.1 outcome
  | .error escape =>
    IO.eprintln (Program.escapeMessage escape)
    return 1

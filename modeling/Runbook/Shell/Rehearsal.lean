import Runbook.Run.Dialogue

/-!
# Rehearsed commands

A rehearsal has prepared results for some commands and starts nothing. Each time a command is given
it takes its next result, and the last one again and again. A command without results writes itself
as a line. More than forty commands are refused.
-/

set_option autoImplicit false

namespace Runbook.Shell

open Run

/-- A prepared result. -/
structure Result where
  lines : List (Source × String) := []
  exitCode : Int := 0
  killed : Bool := false
  /-- The run is asked to stop behind the lines. -/
  cancels : Bool := false
  /-- Starting the command is refused. -/
  refusal : Option String := none
  /-- Starting the command crashes the run. -/
  crash : Option String := none
  deriving Repr, Inhabited

/-- The process that a result describes. -/
def Result.process (r : Result) : Process :=
  let ending : Process := .ended r.exitCode r.killed
  r.lines.foldr (fun (source, text) rest => .line source text rest)
    (if r.cancels then .cancels ending else ending)

/-- What starting a command with this result comes to. -/
def Result.launch (r : Result) : Launch :=
  match r.refusal, r.crash with
  | some reason, _ => .refused reason
  | none, some message => .crashed ⟨"RuntimeError", message⟩
  | none, none => .started r.process

/-- Prepared results, and what was used of them. -/
structure Rehearsal where
  results : Assoc (List Result)
  taken : Assoc Nat := []
  launched : Nat := 0
  deriving Repr

/-- The number of commands that are started. -/
def Rehearsal.limit : Nat := 40

/-- Starts a command. -/
def Rehearsal.launch (r : Rehearsal) (command : String) : Launch × Rehearsal :=
  let next := { r with launched := r.launched + 1 }
  if r.launched ≥ Rehearsal.limit then (.crashed ⟨"RuntimeError", "too many commands"⟩, next)
  else
    match r.results.get? command with
    | none => (.started (.line .stdout command (.ended 0 false)), next)
    | some results =>
      let count := (r.taken.get? command).getD 0
      let result := (results[min count (results.length - 1)]?).getD {}
      (result.launch, { next with taken := r.taken.put command (count + 1) })

end Runbook.Shell

import Runbook.Run.Dialogue

/-!
# Watching a command

A command that runs on its own, outside of any run, is watched to its end: the lines of each stream
are collected in their order. The watcher may stop it upon a line.
-/

set_option autoImplicit false

namespace Runbook.Shell

open Run

/-- What was seen of a command, the last line first. -/
structure Sight where
  stdout : List String := []
  stderr : List String := []
  /-- Whether the watcher has asked it to stop. -/
  stopAsked : Bool := false
  deriving DecidableEq, Repr

/-- What a command came to. -/
structure Outcome where
  stdout : List String
  stderr : List String
  exitCode : Int
  killed : Bool
  deriving DecidableEq, Repr

/-- Takes a line; the line `stopOn` makes the watcher ask for a stop. -/
def Sight.take (s : Sight) (stopOn : Option String) (source : Source) (text : String) : Sight :=
  let s := { s with stopAsked := s.stopAsked || stopOn == some text }
  match source with
  | .stdout => { s with stdout := text :: s.stdout }
  | .stderr => { s with stderr := text :: s.stderr }

/-- Watches a command from some point on. -/
def watchFrom (stopOn : Option String) (s : Sight) : Process → Outcome
  | .line source text rest => watchFrom stopOn (s.take stopOn source text) rest
  | .lasts _ next => watchFrom stopOn s (next s.stopAsked)
  | .cancels rest => watchFrom stopOn { s with stopAsked := true } rest
  | .writes _ rest => watchFrom stopOn s rest
  | .ended exitCode killed => ⟨s.stdout.reverse, s.stderr.reverse, exitCode, killed⟩

/-- Watches a command to its end. -/
def watch (stopOn : Option String) (process : Process) : Outcome := watchFrom stopOn {} process

end Runbook.Shell

import Runbook.Command.Answer
import Runbook.Run.Start

/-!
# The command line

A use of the command line reads its words, starts up, carries out the command and answers it. Its
`Outcome` is what a user sees: the texts on both streams, the records that the journal keeps, and the
exit code. Faults that it does not answer escape.
-/

set_option autoImplicit false

namespace Runbook.Command

open Run (World StartFault)

/-- What is seen of a use of the program. -/
structure Outcome where
  answer : Answer
  /-- The records that the journal keeps. -/
  journal : List Journal.Record := []
  format : Journal.Format := .json
  deriving Repr

/-- What a use of the program does not answer. -/
inductive Escape where
  | start (fault : StartFault)
  /-- The user interrupted the program where it was not prepared for it. -/
  | interrupted
  | failure (failure : Failure)
  deriving Repr

/-- The answer to words that are no command. -/
def Refused.answer (r : Refused) : Answer :=
  match r.why with
  | .help => { out := [s!"usage: {r.program} [-h] ..."] }
  | .version => { out := [s!"{programName} {programVersion}"] }
  | .misuse misuse => { exitCode := exitUnfit, err := [s!"{r.program}: error: {misuse.message}"] }

/-- The answer to settings that are unfit. -/
def unfitSettings (faults : List Fault) : Answer :=
  { exitCode := exitUnfit
    err := ["Configuration error (check your .env):", report .value "EngineSettings" faults] }

/-- The record for stores that cannot be opened. -/
def cannotOpenRecord (fault : Store.Fault) : Journal.Record :=
  { level := 40, logger := commandLogger, message := "Cannot open workflow storage"
    extra := [("error", .str fault.message)] }

/-- Whether the user interrupts an answer that is printed. -/
def isInterrupted (interruptOn : Option String) (answer : Answer) : Bool :=
  answer.out.any (some · == interruptOn)

/-- Whether a command is prepared for interrupts. -/
def isInterruptible : Command → Bool
  | run .. => true
  | _ => false

/-- Answers a command once the journal is set up. -/
def answerStarted (w : World) (settings : Settings) (interruptOn : Option String)
    (command : Command) : World × Except Escape Answer :=
  match w.start settings with
  | (w, .error fault@(.failed _)) =>
    (w.note (cannotOpenRecord fault), .ok { exitCode := exitFailed, err := [fault.message] })
  | (w, .error fault) => (w, .error (.start (.stores fault)))
  | (w, .ok ()) =>
    let (w, answer) := command.answer w interruptOn
    if !command.isInterruptible && isInterrupted interruptOn answer then (w, .error .interrupted)
    else (w, .ok answer)

/-- Carries out a use of the program in a world whose journal is empty. -/
def use (environment : Scope) (interruptOn : Option String) (words : List String) (w : World) :
    World × Except Escape Outcome :=
  match read words with
  | .error refused => (w, .ok { answer := refused.answer })
  | .ok command =>
    match w.readSettings environment with
    | .error (.settings faults) => (w, .ok { answer := unfitSettings faults })
    | .error fault => (w, .error (.start fault))
    | .ok settings =>
      match World.setUpJournal settings with
      | .error fault => (w, .error (.start fault))
      | .ok setup =>
        match answerStarted w settings interruptOn command with
        | (w, .error escape) => (w, .error escape)
        | (w, .ok answer) =>
          (w, .ok ⟨answer, w.journal.filter setup.keeps, settings.logFormat⟩)

end Runbook.Command

import Runbook.Condition.Verdict
import Runbook.Definition.Execution
import Runbook.Definition.Workflow
import Runbook.Failure
import Runbook.Files.Disk

/-!
# Runs as dialogues

A run is a dialogue with the world around it: it has ended, or it asks something and goes on with the
reply. What it asks is a `Query`: whether it is to stop, for a workflow, to start a command, to make
known what happens. A started command is a `Process`, of which all that it does is known as soon as
the world tells how long it lasts.
-/

set_option autoImplicit false

namespace Runbook.Run

/-! ## Commands -/

/-- Where a command wrote a line. -/
inductive Source where
  | stdout
  | stderr
  deriving DecidableEq, Repr

/-- What a started command does, step by step. -/
inductive Process where
  /-- It writes a line. -/
  | line (source : Source) (text : String) (rest : Process)
  /-- It lasts for some milliseconds; `next` is told whether it was stopped meanwhile. -/
  | lasts (milliseconds : Nat) (next : Bool → Process)
  /-- It asks for its own run to be stopped. -/
  | cancels (rest : Process)
  /-- It changes files. -/
  | writes (change : Files.Disk → Files.Disk) (rest : Process)
  /-- It has ended; `killed` says that it was stopped because its run was to stop. -/
  | ended (exitCode : Int) (killed : Bool)

/-- An error that ends a run where it stands. -/
structure Crash where
  kind : String
  message : String
  deriving DecidableEq, Repr

/-- What starting a command comes to. -/
inductive Launch where
  | started (process : Process)
  | refused (reason : String)
  | crashed (crash : Crash)

/-! ## Questions and replies -/

/-- Which run something is said of; nested runs have a depth. -/
structure Identity where
  executionId : String
  workflowId : String
  depth : Nat
  deriving DecidableEq, Repr

/-- What a run makes known. -/
inductive Event where
  /-- A new entry of its log; `isOutput` says that a command wrote it. -/
  | entry (e : Entry) (isOutput : Bool)
  /-- A condition that can never hold was passed over. -/
  | passedOver (why : Unusable)
  /-- An error ended the run. -/
  | crashed (crash : Crash)
  /-- The status changed to a terminal one. -/
  | finished (status : Status) (stepId : String)
  /-- No more lines are to come. -/
  | closed
  deriving DecidableEq, Repr

/-- What a run asks. -/
inductive Query where
  /-- Is the run to stop? -/
  | cancelRequested
  /-- Which workflow has this id? -/
  | workflow (id : String)
  /-- What are the values of the global variables? -/
  | globals
  /-- A run of this workflow with these variables begins; what is its id? -/
  | begin (workflowId : String) (scope : Scope) (depth : Nat)
  /-- What comes of this command? -/
  | launch (command : String)
  /-- Is the run to stop before this time is over? -/
  | wait (milliseconds : Nat)
  /-- The run is to stop. -/
  | cancel
  /-- Files change. -/
  | write (change : Files.Disk → Files.Disk)
  /-- Something happened in a run. -/
  | tell (run : Identity) (event : Event)

/-- The replies to a question. -/
@[reducible] def Query.Reply : Query → Type
  | cancelRequested => Bool
  | workflow _ => Option Workflow
  | globals => Scope
  | begin .. => String
  | launch _ => Launch
  | wait _ => Bool
  | cancel => Unit
  | write _ => Unit
  | tell .. => Unit

/-- A dialogue that asks questions and ends with a result; `R q` holds the replies to `q`. -/
inductive Dialogue {Q : Type} (R : Q → Type) (α : Type) where
  | done (result : α)
  | ask (query : Q) (next : R query → Dialogue R α)

namespace Dialogue

variable {Q Q' : Type} {R : Q → Type} {R' : Q' → Type} {α β : Type}

/-- Goes on with the result of a dialogue. -/
def bind : Dialogue R α → (α → Dialogue R β) → Dialogue R β
  | done a, f => f a
  | ask q next, f => ask q fun reply => bind (next reply) f

instance : Monad (Dialogue R) where
  pure := done
  bind := bind

theorem bind_done (d : Dialogue R α) : d.bind done = d := by
  induction d with
  | done a => rfl
  | ask q next ih => exact congrArg (ask q) (funext ih)

theorem bind_assoc {γ : Type} (d : Dialogue R α) (f : α → Dialogue R β) (g : β → Dialogue R γ) :
    (d.bind f).bind g = d.bind fun a => (f a).bind g := by
  induction d with
  | done a => rfl
  | ask q next ih => exact congrArg (ask q) (funext ih)

instance : LawfulMonad (Dialogue R) :=
  LawfulMonad.mk' (Dialogue R) bind_done (fun _ _ => rfl) bind_assoc

/-- Asks one question. -/
def query (q : Q) : Dialogue R (R q) := ask q done

/-- Finds the reply to each question in a dialogue of another kind. -/
def serve (f : (q : Q) → Dialogue R' (R q)) : Dialogue R α → Dialogue R' α
  | done a => done a
  | ask q next => bind (f q) fun reply => serve f (next reply)

/-- Passes a question on; after a log entry of a run at one depth, `echo` makes it known again. -/
def passOn (depth : Nat) (echo : Entry → Dialogue Query.Reply Unit) :
    (q : Query) → Dialogue Query.Reply q.Reply
  | .tell run (.entry e isOutput) =>
    bind (query (.tell run (.entry e isOutput))) fun _ =>
      if run.depth == depth then echo e else done ()
  | q => query q

/-- Repeats the log entries of the runs at one depth. -/
def relay (depth : Nat) (echo : Entry → Dialogue Query.Reply Unit) :
    Dialogue Query.Reply α → Dialogue Query.Reply α :=
  serve (passOn depth echo)

end Dialogue

/-- Why a run breaks off: an error, or because too many rounds were made for its model. -/
inductive Break where
  | crash (crash : Crash)
  | outOfRounds
  deriving DecidableEq, Repr

/-- A part of a run. -/
abbrev Act (α : Type) := ExceptT Break (Dialogue Query.Reply) α

/-- Asks a question within a run. -/
def ask (q : Query) : Act q.Reply := ExceptT.lift (Dialogue.query q)

end Runbook.Run

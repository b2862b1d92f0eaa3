import Runbook.Run.Course
import Runbook.Template

/-!
# Running workflows

The tasks of a run are done in its context: commands are started with its variables, and a step that
names a workflow starts a nested run with the same variables, whose log is repeated in its own,
indented. A workflow that is already running further out is not started again.
-/

set_option autoImplicit false

namespace Runbook.Run

/-- What is fixed throughout a run. -/
structure Context where
  run : Identity
  workflow : Workflow
  scope : Scope
  /-- The ids of the runs around this one, from the outermost one, and its own. -/
  chain : List String

/-- How a nested run is started: the chain of runs around it, the id of its workflow, its inputs. The
result is the status with which it ended, or why it could not start. -/
abbrev Nested := List String → String → Scope → Act (Except Failure Status)

/-- Makes something known about this run. -/
def Context.tell (c : Context) (event : Event) : Act Unit := ask (.tell c.run event)

/-- Adds an entry to the log. -/
def Context.log (c : Context) (stepId message : String) : Act Unit :=
  c.tell (.entry ⟨stepId, .info, message⟩ false)

/-! ## Steps -/

/-- The level of the entries for lines of a source. -/
def Source.level : Source → Level
  | .stdout => .info
  | .stderr => .error

/-- Follows a command to its end; gives its output, exit code and whether it was stopped. -/
def Context.follow (c : Context) (stepId : String) :
    Process → String → Act (String × Int × Bool)
  | .line source text rest, output => do
    c.tell (.entry ⟨stepId, source.level, text⟩ true)
    c.follow stepId rest (output ++ text ++ "\n")
  | .lasts milliseconds next, output => do
    let stopped ← ask (.wait milliseconds)
    c.follow stepId (next stopped) output
  | .cancels rest, output => do
    ask .cancel
    c.follow stepId rest output
  | .writes change rest, output => do
    ask (.write change)
    c.follow stepId rest output
  | .ended exitCode killed, output => return (output, exitCode, killed)

/-- Runs the command of a step. -/
def Context.runCommand (c : Context) (step : Step) : Act Outcome := do
  let command := Template.fill step.content (step.bind c.scope)
  c.log step.id ("$ " ++ command)
  match ← ask (.launch command) with
  | .crashed crash => throw (.crash crash)
  | .refused reason =>
    return { exitCode := -1, failure := some (.process (-1) ("failed to start command: " ++ reason)) }
  | .started process =>
    let (output, exitCode, killed) ← c.follow step.id process ""
    let failure : Option Failure := if killed then some .cancelled
      else if exitCode != 0 then some (.process exitCode "") else none
    return ⟨output, exitCode, failure⟩

/-- The outcome of a nested run. -/
def Outcome.ofNested (id : String) : Except Failure Status → Outcome
  | .error failure => { exitCode := 1, failure := some failure }
  | .ok .completed => {}
  | .ok .cancelled => { exitCode := 1, failure := some .cancelled }
  | .ok status => { exitCode := 1, failure := some (.nestedRun id status.name) }

/-- Repeats an entry of a nested run, indented, for the step that started it. -/
def Context.echo (c : Context) (step : Step) (e : Entry) : Dialogue Query.Reply Unit :=
  Dialogue.query (Query.tell c.run (.entry ⟨step.id, .info, "  " ++ e.message⟩ false))

/-- Runs the workflow that a step names. -/
def Context.runWorkflow (c : Context) (nested : Nested) (step : Step) : Act Outcome := do
  let id := Text.strip step.content
  c.log step.id ("Executing sub-workflow: " ++ id)
  let result ← ExceptT.mk
    (Dialogue.relay (c.run.depth + 1) (c.echo step) (nested c.chain id c.scope).run)
  return .ofNested id result

/-- Runs a step. -/
def Context.runStep (c : Context) (nested : Nested) (step : Step) : Act Outcome :=
  match step.work with
  | .command => c.runCommand step
  | .workflow => c.runWorkflow nested step
  | .unknown type => return { exitCode := -1, failure := some (.unknownStepType type) }

/-! ## Runs -/

/-- How the tasks of a run are done. -/
def Context.serve (c : Context) (nested : Nested) : (t : Task) → Dialogue Query.Reply t.Reply
  | .check => Dialogue.query Query.cancelRequested
  | .tell event => Dialogue.query (Query.tell c.run event)
  | .turn _ step => (c.runStep nested step).run
  | .aside step => (c.runStep nested step).run

/-- A whole run in its context. -/
def Context.body (c : Context) (nested : Nested) (rounds : Nat) : Act Status :=
  ExceptT.mk ((Course.whole c.workflow rounds).run.serve (c.serve nested))

/-- The variables of a run: the global ones, then defaults for names that have no value, then the
inputs over both. -/
def resolve (globals : Scope) (declared : List Variable) (inputs : Scope) : Scope :=
  let withDefaults := declared.foldl (fun scope v =>
    if !scope.has v.name && v.defaultValue != "" then scope.put v.name v.defaultValue else scope)
    globals
  withDefaults.merge inputs

/-- Begins a run of a workflow that was found. -/
def start (chain : List String) (workflow : Workflow) (inputs : Scope) : Act Context := do
  let globals ← ask .globals
  let scope := resolve globals workflow.declared inputs
  let id ← ask (.begin workflow.id scope chain.length)
  return ⟨⟨id, workflow.id, chain.length⟩, workflow, scope, chain ++ [workflow.id]⟩

/-- Runs the workflow with an id inside the runs of a chain. At most `depth` runs are nested in one
another, and each makes at most `rounds` rounds. -/
def execute (rounds : Nat) : Nat → Nested
  | 0, _, _, _ => throw .outOfRounds
  | depth + 1, chain, id, inputs => do
    if chain.contains id then return .error (.cycle id chain)
    else
      match ← ask (.workflow id) with
      | none => return .error (.workflowNotFound id)
      | some workflow =>
        let context ← start chain workflow inputs
        return .ok (← context.body (execute rounds depth) rounds)

/-! ## Looking ahead -/

/-- The placeholders of each command step that would have no value. -/
def missingByStep (workflow : Workflow) (scope : Scope) : Assoc (List String) :=
  workflow.steps.filterMap fun step =>
    match step.work with
    | .command =>
      let names := Template.missing step.content (step.bind scope)
      if names.isEmpty then none else some (step.id, names)
    | _ => none

end Runbook.Run

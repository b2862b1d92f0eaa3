import Runbook.Run.Dialogue

/-!
# The course of a run

A run goes through the steps of a workflow. Each round runs one step, takes the action of the first
condition that holds, then the action for success or failure, and goes on behind the step at which
it then stands, so that a jump goes on behind its target. The question whether to stop is asked
before each step and after each piece of work that may have been stopped.

The course of a run is a dialogue of its own: what it asks is a `Task`, and how a task is done is
not its concern. It depends on the workflow alone.
-/

set_option autoImplicit false

namespace Runbook.Run

/-- What running a step came to. -/
structure Outcome where
  output : String := ""
  exitCode : Int := 0
  failure : Option Failure := none

/-- Whether the outcome is that the step was stopped. -/
def Outcome.isCancelled (o : Outcome) : Bool := o.failure == some .cancelled

/-- What the course of a run asks for. -/
inductive Task where
  /-- Is the run to stop? -/
  | check
  /-- Something is to be made known of the run. -/
  | tell (event : Event)
  /-- The step at a position is to be run in its turn. -/
  | turn (position : Nat) (step : Step)
  /-- A step is to be run on the side. -/
  | aside (step : Step)

/-- The replies to a task; a step that is run has an outcome or breaks the run off. -/
@[reducible] def Task.Reply : Task → Type
  | check => Bool
  | tell _ => Unit
  | turn .. => Except Break Outcome
  | aside _ => Except Break Outcome

/-- A part of the course of a run. -/
abbrev Course (α : Type) := ExceptT Break (Dialogue Task.Reply) α

/-- What a round comes to: the run goes on at a position or has ended. -/
inductive Next where
  | goOn (position : Nat)
  | ended (status : Status)
  deriving DecidableEq, Repr

/-- Where the run stands after an action, or that it is to end. -/
inductive Effect where
  | at_ (position : Nat)
  | stop
  deriving DecidableEq, Repr

namespace Course

/-! ## Making things known -/

/-- Asks for a task that cannot break the run off. -/
def ask (task : Task) : Course task.Reply := ExceptT.lift (Dialogue.query task)

/-- Makes something known about the run. -/
def tell (event : Event) : Course Unit := ask (.tell event)

/-- Adds an entry to the log. -/
def log (stepId message : String) (level : Level := .info) : Course Unit :=
  tell (.entry ⟨stepId, level, message⟩ false)

/-- Ends the run with a status and a last entry. -/
def finish (status : Status) (stepId message : String) (level : Level := .info) :
    Course Status := do
  log stepId message level
  tell (.finished status stepId)
  return status

/-- Ends the run if it is to stop. -/
def stopIfCancelled (stepId : String) (alreadyStopped : Bool := false) :
    Course (Option Status) := do
  let requested ← ask .check
  if requested || alreadyStopped then
    return some (← finish .cancelled stepId "Execution cancelled")
  else return none

/-- Runs the step at a position in its turn. -/
def turn (position : Nat) (step : Step) : Course Outcome :=
  ExceptT.mk (Dialogue.query (Task.turn position step))

/-- Runs a step on the side. -/
def aside (step : Step) : Course Outcome := ExceptT.mk (Dialogue.query (Task.aside step))

/-! ## Actions -/

variable (w : Workflow)

/-- Takes an action for the step at a position. -/
def act (action : Action) (step : Step) (position : Nat) : Course Effect :=
  match action.verb with
  | .stop => return .stop
  | .goOn => return .at_ position
  | .unknown type => do
    log step.id ("Unknown action type: " ++ type) .error
    return .at_ position
  | .jumpTo target =>
    match w.position? target with
    | none => do
      log step.id ("Jump target not found: " ++ target) .error
      return .at_ position
    | some there => do
      let name := (w.steps[there]?.map Step.displayName).getD ""
      log step.id ("Jumping to step: " ++ name)
      return .at_ there
  | .executeStep target =>
    match w.steps.find? (·.id == target) with
    | none => do
      log step.id ("Step to execute not found: " ++ target) .error
      return .at_ position
    | some side => do
      log step.id ("Executing step: " ++ side.displayName)
      let outcome ← aside side
      match outcome.failure with
      | none => pure ()
      | some .cancelled => pure ()
      | some failure => log side.id ("Step failed: " ++ failure.message) .error
      return .at_ position

/-- Takes an action, and ends the run if it is to stop or the action says so. -/
def actAndCheck (action : Action) (step : Step) (position : Nat) (reason : String) :
    Course Next := do
  let effect ← act w action step position
  match ← stopIfCancelled step.id with
  | some status => return .ended status
  | none =>
    match effect with
    | .stop => return .ended (← finish .completed "" ("Workflow stopped by " ++ reason))
    | .at_ there => return .goOn there

/-- Takes the action of the first condition that holds. -/
def conditionPass (step : Step) (outcome : Outcome) (position : Nat) : Course Next := do
  let choice := Condition.choose outcome.output outcome.exitCode step.conditions
  for why in choice.passedOver do
    tell (.passedOver why)
  match choice.action with
  | .error fault => throw (.crash ⟨fault.kind, fault.message ""⟩)
  | .ok none => return .goOn position
  | .ok (some action) =>
    log step.id ("Condition matched: " ++ action.type)
    actAndCheck w action step position "condition"

/-- Takes the action for failure or success. -/
def hookPass (step : Step) (outcome : Outcome) (position : Nat) : Course Next := do
  match outcome.failure with
  | some failure =>
    log step.id ("Step failed: " ++ failure.message) .error
    match step.onFailure with
    | none =>
      return .ended
        (← finish .failed "" ("Workflow failed at step: " ++ step.displayName) .error)
    | some action => actAndCheck w action step position "on_failure"
  | none =>
    match step.onSuccess with
    | none => return .goOn position
    | some action => actAndCheck w action step position "on_success"

/-! ## Rounds -/

/-- One round: the step at a position and the actions that follow it. -/
def round (position : Nat) (step : Step) : Course Next := do
  match ← stopIfCancelled step.id with
  | some status => return .ended status
  | none =>
    log step.id s!"Step {position + 1}/{w.steps.length}: {step.displayName}"
    let outcome ← turn position step
    match ← stopIfCancelled step.id outcome.isCancelled with
    | some status => return .ended status
    | none =>
      match ← conditionPass w step outcome position with
      | .ended status => return .ended status
      | .goOn position =>
        match ← hookPass w step outcome position with
        | .ended status => return .ended status
        | .goOn position => return .goOn (position + 1)

/-- The rounds from a position on, at most `rounds` of them. -/
def rounds : Nat → Nat → Course Status
  | 0, _ => throw .outOfRounds
  | rounds + 1, position =>
    match w.steps[position]? with
    | none => finish .completed "" "Workflow completed successfully"
    | some step => do
      match ← round w position step with
      | .ended status => return status
      | .goOn position => Course.rounds rounds position

/-- A whole run; an error ends it as failed. -/
def whole (limit : Nat) : Course Status := do
  let status ← tryCatchThe Break
    (do
      log "" ("Starting workflow: " ++ w.title)
      rounds w limit 0)
    (fun
      | .outOfRounds => throw .outOfRounds
      | .crash crash => do
        tell (.crashed crash)
        finish .failed "" ("Execution failed: " ++ crash.message) .error)
  tell .closed
  return status

end Course

end Runbook.Run

import Runbook.Definition.Execution

/-!
# Failures

What can go wrong with a workflow, a step or a store, each with its message. Failures belong to
families, by which they are handled: a missing workflow, for instance, is both something not found
and a fault of the definition that names it.
-/

set_option autoImplicit false

namespace Runbook

/-- A failure. -/
inductive Failure where
  | workflowNotFound (id : String)
  | variableNotFound (name : String)
  | executionNotFound (id : String)
  | cycle (id : String) (chain : List String)
  | unknownStepType (type : String)
  | process (exitCode : Int) (reason : String)
  | nestedRun (id status : String)
  | cancelled
  | store (reason : String)
  | notFound (reason : String)
  | definition (reason : String)
  | step (reason : String)
  | other (reason : String)
  deriving DecidableEq, Repr

/-- The families of failures. -/
inductive Failure.Family where
  | any
  | notFound
  | definition
  | step
  | store
  | cancellation
  deriving DecidableEq, Repr

namespace Failure

/-- The message of a failure. -/
def message : Failure → String
  | workflowNotFound id => s!"workflow not found: {id}"
  | variableNotFound name => s!"variable not found: {name}"
  | executionNotFound id => s!"execution not found: {id}"
  | cycle id chain => "sub-workflow cycle detected: " ++ " -> ".intercalate (chain ++ [id])
  | unknownStepType type => s!"unknown step type: {type}"
  | process exitCode reason => if reason == "" then s!"exit status {exitCode}" else reason
  | nestedRun id status => s!"sub-workflow {id} ended {status}"
  | cancelled => "execution cancelled"
  | store reason => reason
  | notFound reason => reason
  | definition reason => reason
  | step reason => reason
  | other reason => reason

/-- The kind of error that a failure is reported as. -/
def kind : Failure → String
  | workflowNotFound _ => "WorkflowNotFoundError"
  | variableNotFound _ => "VariableNotFoundError"
  | executionNotFound _ => "ExecutionNotFoundError"
  | cycle .. => "CycleError"
  | unknownStepType _ => "StepTypeError"
  | process .. => "ProcessError"
  | nestedRun .. => "SubWorkflowError"
  | cancelled => "CancellationError"
  | store _ => "StoreError"
  | notFound _ => "NotFoundError"
  | definition _ => "DefinitionError"
  | step _ => "StepError"
  | other _ => "WorkflowEngineError"

/-- The families that a failure belongs to. -/
def families : Failure → List Family
  | workflowNotFound _ => [.any, .notFound, .definition]
  | variableNotFound _ => [.any, .notFound]
  | executionNotFound _ => [.any, .notFound]
  | cycle .. => [.any, .definition]
  | unknownStepType _ => [.any, .step]
  | process .. => [.any, .step]
  | nestedRun .. => [.any, .step]
  | cancelled => [.any, .cancellation]
  | store _ => [.any, .store]
  | notFound _ => [.any, .notFound]
  | definition _ => [.any, .definition]
  | step _ => [.any, .step]
  | other _ => [.any]

end Failure

end Runbook

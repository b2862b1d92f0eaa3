import Runbook.Definition.Request
import Runbook.Service.Basic
import Runbook.Service.Origin
import Runbook.Service.Route
import Runbook.Template

/-!
# Answering requests

A request is answered by its route and method. What is not there and failures of the stores have
responses of their own; other faults of the stores escape.
-/

set_option autoImplicit false

namespace Runbook.Service

open Run (World)

/-- A response, or the fault that escapes. -/
abbrev Reply := Except Store.Fault Response

/-- The part of the program that answers requests. -/
def answerLogger : String := "devops_workflows.server.app"

/-- The record for a failure of the stores. -/
def storeRecord (message : String) : Journal.Record :=
  { level := 40, logger := answerLogger, message := "Storage error"
    extra := [("error", .str message)] }

/-- Answers a failure. -/
def fail (s : Service) (failure : Failure) : Service × Reply :=
  if failure.families.contains .notFound then (s, .ok (notFound failure.message))
  else if failure.families.contains .store then
    ({ s with world := s.world.note (storeRecord failure.message) },
      .ok { status := 500, payload := .detail failure.message })
  else (s, .error (.failed failure))

/-- Answers with what was looked up. -/
def looked {α : Type} (s : Service) (found : Except Failure α) (respond : α → Response) :
    Service × Reply :=
  match found with
  | .ok value => (s, .ok (respond value))
  | .error failure => s.fail failure

/-- Answers with what came of a change of the stores. -/
def changed {α : Type} (s : Service) (change : World × Except Store.Fault α)
    (respond : α → Response) : Service × Reply :=
  let s := { s with world := change.1 }
  match change.2 with
  | .ok value => (s, .ok (respond value))
  | .error (.failed failure) => s.fail failure
  | .error fault => (s, .error fault)

/-- Answers with what came of a run. -/
def ran (answer : Service × Except Failure Execution) : Service × Reply :=
  answer.1.looked answer.2 fun e => { payload := .execution e }

/-- Goes on with a body that was read and checked. -/
def withBody {α : Type} (s : Service) (r : Request) (check : Body → Checked α)
    (go : α → Service × Reply) : Service × Reply :=
  match r.readBody with
  | .error bad => (s, .ok bad.response)
  | .ok body =>
    match check body with
    | .error faults => (s, .ok (unprocessable faults))
    | .ok value => go value

/-- Goes on with the inputs in a body that may be absent. -/
def withInputs (s : Service) (r : Request) (go : Scope → Service × Reply) : Service × Reply :=
  s.withBody r (Body.optional {} ExecuteRequest.read) fun body => go body.inputs

/-- The response with a value. -/
def shown (status : Nat) (value : Json) : Response := { status := status, payload := .json value }

/-- The response to a request for the state of the service. -/
def healthy : Response := shown 200 (.obj [("status", .str "ok"), ("version", .str programVersion)])

/-- The look at a template with some values. -/
def previewOf (r : PreviewRequest) : PreviewResponse :=
  { command := r.command
    placeholders := Template.required r.command
    missing := Template.missing r.command r.values
    preview := Template.preview r.command r.values }

/-- The look ahead for a workflow. -/
def lookAhead (missing : Assoc (List String)) : ValidateResponse :=
  { ok := missing.isEmpty, missing := missing }

/-- Answers a request whose method its route takes. -/
def serve (s : Service) (r : Request) : Route → Service × Reply
  | .health => (s, .ok healthy)
  | .workflows =>
    if r.method == "GET" then
      (s, .ok (shown 200 (.arr (s.world.workflows.list.map Workflow.toJson))))
    else
      s.withBody r (Body.required Workflow.read) fun workflow =>
        s.changed (s.world.save workflow) fun saved => shown 201 saved.toJson
  | .workflow id =>
    if r.method == "GET" then
      s.looked (s.world.workflows.get id) fun workflow => shown 200 workflow.toJson
    else s.changed (s.world.deleteWorkflow id) fun _ => removed
  | .execute id => s.withInputs r fun inputs => ran (s.begin id inputs)
  | .validate id => s.withInputs r fun inputs =>
    s.looked (s.world.preflight id inputs) fun missing => shown 200 (lookAhead missing).toJson
  | .globals =>
    if r.method == "GET" then
      (s, .ok (shown 200 (.arr (s.world.globals.list.map GlobalVariable.toJson))))
    else
      s.withBody r (Body.required GlobalVariable.read) fun given =>
        s.changed (s.world.setVariable given) fun kept => shown 201 kept.toJson
  | .globalVariable name =>
    if r.method == "GET" then
      s.looked (s.world.globals.get name) fun kept => shown 200 kept.toJson
    else s.changed (s.world.deleteVariable name) fun _ => removed
  | .preview =>
    s.withBody r (Body.required PreviewRequest.read) fun given =>
      (s, .ok (shown 200 (previewOf given).toJson))
  | .executions => (s, .ok { payload := .executions s.executions })
  | .execution id => s.looked (s.find id) fun run =>
    { payload := .execution run.live.record.snapshot }
  | .cancel id => ran (s.cancel id)
  | .documentation => (s, .ok { payload := .text "" })

/-- The route of a request, or the response to a request that no route takes. -/
def routeOf (r : Request) (path : String) : Except Response Route :=
  match Route.ofPath? path with
  | some route => if route.methods.contains r.method then .ok route else .error wrongMethod
  | none => .error (if isSentOn path then sentOn else noRoute)

/-- Answers a request by its route. -/
def answerRouted (s : Service) (r : Request) : Service × Reply :=
  match routeOf r (pathOf r.address) with
  | .ok route => s.serve r route
  | .error response => (s, .ok response)

/-- A response as the client sees it: one to `HEAD` has no payload. -/
def Response.forMethod (response : Response) (method : String) : Response :=
  if method == "HEAD" then { response with payload := .empty } else response

/-- Answers a request. -/
def answer (s : Service) (r : Request) : Service × Reply :=
  let allowed := s.settings.allowedOrigins
  match preflight? allowed r with
  | some response => (s, .ok response)
  | none =>
    let (s, reply) := s.answerRouted r
    (s, reply.map fun response => (response.forOrigin allowed r).forMethod r.method)

end Runbook.Service

import Runbook.Checked.Wording
import Runbook.Definition.Execution
import Runbook.Failure
import Runbook.Json.Reader
import Runbook.Text.Blank
import Runbook.Text.Case

/-!
# Requests and responses

A request has a method, an address, headers and possibly a body. A body is read as JSON if its
header says so; of any other body only is known that there is one. A response has a status and a
payload.
-/

set_option autoImplicit false

namespace Runbook.Service

/-! ## Requests -/

/-- A request. -/
structure Request where
  method : String
  address : String
  /-- The headers with names in small letters. -/
  headers : Scope := []
  body : String := ""
  deriving DecidableEq, Repr

/-- A body as it comes in. -/
inductive Body where
  | absent
  | json (value : Json)
  /-- A body that is not JSON by its header. -/
  | other
  deriving Repr

/-- Why a body cannot be read. -/
inductive BadBody where
  | notJson (place : Nat)
  /-- It is beyond the limits of the reader. -/
  | beyondLimits
  deriving DecidableEq, Repr

/-- Whether a type of content is JSON. -/
def isJsonType (contentType : String) : Bool :=
  let name := Text.toLower (Text.strip (String.ofList (contentType.toList.takeWhile (· != ';'))))
  match name.splitOn "/" with
  | ["application", subtype] => subtype == "json" || subtype.endsWith "+json"
  | _ => false

/-- The characters of a body; a mark of the byte order is not one of them. -/
def bodyText (body : String) : List Char :=
  match body.toList with
  | '\uFEFF' :: rest => rest
  | cs => cs

/-- Reads the body of a request. -/
def Request.readBody (r : Request) : Except BadBody Body :=
  if r.body == "" then .ok .absent
  else if !isJsonType ((r.headers.get? "content-type").getD "") then .ok .other
  else
    match Json.read .plain (bodyText r.body) with
    | .ok .null => .ok .absent
    | .ok value => .ok (.json value)
    | .error fault =>
      match fault.flaw with
      | .tooDeep _ | .tooManyDigits _ => .error .beyondLimits
      | _ => .error (.notJson fault.place)

/-- Checks a body that must be there. -/
def Body.required {α : Type} (read : Json → Checked α) : Body → Checked α
  | absent => .fail .missing .null
  | json value => read value
  | other => .fail (.notModel "") .null

/-- Checks a body that may be absent. -/
def Body.optional {α : Type} (default : α) (read : Json → Checked α) : Body → Checked α
  | absent => .ok default
  | json value => read value
  | other => .fail (.notModel "") .null

/-! ## Responses -/

/-- What a response carries. -/
inductive Payload where
  | empty
  | text (text : String)
  | json (value : Json)
  | detail (message : String)
  | faults (faults : List Fault)
  | execution (e : Execution)
  | executions (es : List Execution)
  deriving Repr

/-- A response. -/
structure Response where
  status : Nat := 200
  payload : Payload
  /-- The origin that may see the response. -/
  allowOrigin : Option String := none
  deriving Repr

/-- The response to something that is not there. -/
def notFound (message : String) : Response := { status := 404, payload := .detail message }

/-- The response to a path that names nothing. -/
def noRoute : Response := notFound "Not Found"

/-- The response to a method that a route does not take. -/
def wrongMethod : Response := { status := 405, payload := .detail "Method Not Allowed" }

/-- The response to a path with slashes too many. -/
def sentOn : Response := { status := 307, payload := .empty }

/-- The response to a removal. -/
def removed : Response := { status := 204, payload := .empty }

/-- The response to a faulty body; the path to each fault starts at the body. -/
def unprocessable (faults : List Fault) : Response :=
  { status := 422
    payload := .faults (faults.map fun f => { f with path := .field "body" :: f.path }) }

/-- The response to a body that cannot be read. -/
def BadBody.response : BadBody → Response
  | notJson place => unprocessable [⟨[], .unreadable place, .obj []⟩]
  | beyondLimits =>
    { status := 400, payload := .detail "There was an error parsing the body" }

end Runbook.Service

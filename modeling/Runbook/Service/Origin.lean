import Runbook.Service.Message

/-!
# Origins

Browsers say from which origin a page sends a request, and let the page see the response only if the
response allows that origin. In front of some requests they ask whether a method is allowed.
-/

set_option autoImplicit false

namespace Runbook.Service

/-- Whether an origin is among the allowed ones; a star allows all. -/
def isAllowed (allowed : List String) (origin : String) : Bool :=
  allowed.contains "*" || allowed.contains origin

/-- The methods that any allowed origin may use. -/
def commonMethods : List String := ["DELETE", "GET", "HEAD", "OPTIONS", "PATCH", "POST", "PUT"]

/-- The response to the question whether a method is allowed. -/
def preflight (allowed : List String) (origin method : String) : Response :=
  let failures :=
    (if isAllowed allowed origin then [] else ["origin"]) ++
      (if commonMethods.contains method then [] else ["method"])
  let allowOrigin := if isAllowed allowed origin then some origin else none
  if failures.isEmpty then { payload := .text "OK", allowOrigin := allowOrigin }
  else
    { status := 400, payload := .text ("Disallowed CORS " ++ ", ".intercalate failures)
      allowOrigin := allowOrigin }

/-- The origin that a response to a request from some origin allows. -/
def originAllowed (allowed : List String) (origin : String) (hasCookie : Bool) : Option String :=
  if allowed.contains "*" then some (if hasCookie then origin else "*")
  else if allowed.contains origin then some origin
  else none

/-- The response to a question in front of a request, if the request is one. -/
def preflight? (allowed : List String) (r : Request) : Option Response := do
  let origin ← r.headers.get? "origin"
  let method ← r.headers.get? "access-control-request-method"
  if r.method == "OPTIONS" then some (preflight allowed origin method) else none

/-- A response to a request, with the origin that it allows. -/
def Response.forOrigin (response : Response) (allowed : List String) (r : Request) : Response :=
  match r.headers.get? "origin" with
  | some origin =>
    { response with allowOrigin := originAllowed allowed origin (r.headers.has "cookie") }
  | none => response

end Runbook.Service

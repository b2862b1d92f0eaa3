import Runbook.Service.Address

/-!
# Routes

A path names a resource or something that can be done with one; each route takes some methods. A
path that has slashes at its end too many is sent on to the path without them.
-/

set_option autoImplicit false

namespace Runbook.Service

/-- What a path names. -/
inductive Route where
  | health
  | workflows
  | workflow (id : String)
  | execute (id : String)
  | validate (id : String)
  | globals
  | globalVariable (name : String)
  | preview
  | executions
  | execution (id : String)
  | cancel (id : String)
  | documentation
  deriving DecidableEq, Repr

namespace Route

/-- The route of the parts of a path below the service's own folder. -/
def ofParts? : List String → Option Route
  | ["health"] => some .health
  | ["workflows"] => some .workflows
  | ["workflows", id] => some (.workflow id)
  | ["workflows", id, "execute"] => some (.execute id)
  | ["workflows", id, "validate"] => some (.validate id)
  | ["variables"] => some .globals
  | ["variables", name] => some (.globalVariable name)
  | ["templates", "preview"] => some .preview
  | ["executions"] => some .executions
  | ["executions", id] => some (.execution id)
  | ["executions", id, "cancel"] => some (.cancel id)
  | ["openapi.json"] => some .documentation
  | ["docs"] => some .documentation
  | ["docs", "oauth2-redirect"] => some .documentation
  | ["redoc"] => some .documentation
  | _ => none

/-- The route of a path, no part of which may be empty. -/
def ofPath? (path : String) : Option Route :=
  match (Path.splitAt '/' path.toList).map String.ofList with
  | "" :: "api" :: parts => if parts.contains "" then none else ofParts? parts
  | _ => none

/-- The methods that a route takes. -/
def methods : Route → List String
  | health => ["GET"]
  | workflows => ["GET", "POST"]
  | workflow _ => ["GET", "DELETE"]
  | execute _ => ["POST"]
  | validate _ => ["POST"]
  | globals => ["GET", "POST"]
  | globalVariable _ => ["GET", "DELETE"]
  | preview => ["POST"]
  | executions => ["GET"]
  | execution _ => ["GET"]
  | cancel _ => ["POST"]
  | documentation => ["GET", "HEAD"]

end Route

/-- Whether a path names something once the slashes at its end are taken off. -/
def isSentOn (path : String) : Bool :=
  let cs := path.toList.reverse
  cs.head? == some '/' && path != "/" &&
    (Route.ofPath? (String.ofList (cs.dropWhile (· == '/')).reverse)).isSome

end Runbook.Service

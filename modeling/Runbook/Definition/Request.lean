import Runbook.Checked.Reader

/-!
# Requests and their answers

The bodies of the requests that start, check and preview, and the answers to them.
-/

set_option autoImplicit false

namespace Runbook

/-- The inputs of a run that a request asks for. -/
structure ExecuteRequest where
  inputs : Scope := []
  deriving DecidableEq, Repr

/-- Reads the inputs of a run. -/
def ExecuteRequest.read : Json → Checked ExecuteRequest :=
  Checked.model "ExecuteRequest" fun fields =>
    pure ExecuteRequest.mk <*> Checked.optional fields "variables" [] Checked.scope

/-- The inputs of a run as they are written. -/
def ExecuteRequest.toJson (r : ExecuteRequest) : Json :=
  .obj [("variables", Json.strFields r.inputs)]

/-- Whether all placeholders of a workflow have values, and by step which have none. -/
structure ValidateResponse where
  ok : Bool
  missing : Assoc (List String) := []
  deriving DecidableEq, Repr

/-- Reads named lists of texts. -/
def Checked.listFields : Assoc Json → Checked (Assoc (List String))
  | [] => .ok []
  | (name, value) :: rest =>
    (fun items more => (name, items) :: more)
      <$> Checked.under (.field name) (Checked.list Checked.text value)
      <*> listFields rest

/-- Reads named lists of texts from an object. -/
def Checked.lists : Json → Checked (Assoc (List String))
  | .obj fields => Checked.listFields fields
  | other => .fail .notDict other

/-- Reads the answer to a check. -/
def ValidateResponse.read : Json → Checked ValidateResponse :=
  Checked.model "ValidateResponse" fun fields =>
    pure ValidateResponse.mk
      <*> Checked.required fields "ok" Checked.bool
      <*> Checked.optional fields "missing" [] Checked.lists

/-- The answer to a check as it is written. -/
def ValidateResponse.toJson (r : ValidateResponse) : Json :=
  .obj [("ok", .bool r.ok),
    ("missing", .obj (r.missing.map fun (id, names) => (id, Json.strs names)))]

/-- A command to preview with the given values. -/
structure PreviewRequest where
  command : String
  values : Scope := []
  deriving DecidableEq, Repr

/-- Reads a command to preview. -/
def PreviewRequest.read : Json → Checked PreviewRequest :=
  Checked.model "PreviewRequest" fun fields =>
    pure PreviewRequest.mk
      <*> Checked.required fields "command" Checked.text
      <*> Checked.optional fields "variables" [] Checked.scope

/-- A command to preview as it is written. -/
def PreviewRequest.toJson (r : PreviewRequest) : Json :=
  .obj [("command", .str r.command), ("variables", Json.strFields r.values)]

/-- A previewed command. -/
structure PreviewResponse where
  command : String
  placeholders : List String
  missing : List String
  preview : String
  deriving DecidableEq, Repr

/-- Reads a previewed command. -/
def PreviewResponse.read : Json → Checked PreviewResponse :=
  Checked.model "PreviewResponse" fun fields =>
    pure PreviewResponse.mk
      <*> Checked.required fields "command" Checked.text
      <*> Checked.required fields "variables" (Checked.list Checked.text)
      <*> Checked.required fields "missing" (Checked.list Checked.text)
      <*> Checked.required fields "preview" Checked.text

/-- A previewed command as it is written. -/
def PreviewResponse.toJson (r : PreviewResponse) : Json :=
  .obj [("command", .str r.command), ("variables", Json.strs r.placeholders),
    ("missing", Json.strs r.missing), ("preview", .str r.preview)]

end Runbook

import Runbook.Checked.Report
import Runbook.Failure
import Runbook.Files.Disk
import Runbook.Json.Diagnosis
import Runbook.Json.Reader

/-!
# Faults of the stores

What an operation of a store ends with if it does not succeed: a failure, which its callers handle,
or something they do not expect. A refusal of the system is always made a failure; a path or text
that cannot be encoded, bytes that are not UTF-8 and numbers or nesting beyond the reader's limits
are not.
-/

set_option autoImplicit false

namespace Runbook.Store

/-- Why an operation of a store did not succeed. -/
inductive Fault where
  | failed (failure : Failure)
  | trouble (trouble : Files.Trouble)
  | undecodable (fault : Text.Utf8.Fault)
  | tooManyDigits (count : Nat)
  | tooDeep (inObject : Bool)
  deriving DecidableEq, Repr

/-- The message of a fault. -/
def Fault.message : Fault → String
  | failed f => f.message
  | trouble t => t.message
  | undecodable f => f.message
  | tooManyDigits count => (Json.Flaw.tooManyDigits count).message
  | tooDeep inObject => (Json.Flaw.tooDeep inObject).message

/-- The kind of error that a fault is reported as. -/
def Fault.kind : Fault → String
  | failed f => f.kind
  | trouble t => t.kind
  | undecodable _ => "UnicodeDecodeError"
  | tooManyDigits _ => "ValueError"
  | tooDeep _ => "RecursionError"

/-- Whether a fault says that something given is unfit, rather than that something went wrong. -/
def Fault.isUnfit : Fault → Bool
  | failed _ => false
  | trouble t => !t.isRefusal
  | undecodable _ => true
  | tooManyDigits _ => true
  | tooDeep _ => false

/-- A trouble of a store: a refusal becomes a failure with the given words in front. -/
def Fault.ofTrouble (words : String) (t : Files.Trouble) : Fault :=
  if t.isRefusal then .failed (.store s!"{words}: {t.message}") else .trouble t

/-- The characters of a file, each line end a line feed. -/
def readText (bytes : List UInt8) : Except Text.Utf8.Fault (List Char) :=
  (Text.Utf8.decode bytes).map Text.normalizeNewlines

/-- Reads a value from its text, as definitions are read. -/
def readDefinition {α : Type} (read : Json → Checked α) (text : List Char) : Checked α :=
  match Json.read .definition text with
  | .ok value => read value
  | .error _ =>
    let message := match Json.diagnose text with
      | some diagnosis => diagnosis.message text
      | none => ""
    .fail (.notJson message) (.str (String.ofList text))

/-- Writes a value as a file of its own, with the folders above it. -/
def writeValue (disk : Files.Disk) (path : Path) (value : Json) : Files.Disk × Option Files.Trouble :=
  match disk.makeFolders path.parent with
  | .error trouble => (disk, some trouble)
  | .ok disk => disk.writeText path (value.indented ++ "\n")

end Runbook.Store

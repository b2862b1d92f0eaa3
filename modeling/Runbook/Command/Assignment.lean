import Runbook.Assoc
import Runbook.Text.Blank
import Runbook.Text.Quoted

/-!
# Assignments on the command line

An argument `NAME=VALUE` gives a run an input. The name is what stands before the first equals sign,
trimmed, and must not be blank; the value is everything behind it.
-/

set_option autoImplicit false

namespace Runbook.Command

/-- An argument that is no assignment. -/
structure NotAnAssignment where
  argument : String
  deriving DecidableEq, Repr

/-- The message for an argument that is no assignment. -/
def NotAnAssignment.message (e : NotAnAssignment) : String :=
  s!"Expected NAME=VALUE, got {Text.quoted e.argument}"

/-- Splits an argument at its first equals sign. -/
def splitAssignment (argument : String) : Except NotAnAssignment (String × String) :=
  let cs := argument.toList
  let name := cs.takeWhile (· != '=')
  match cs.drop name.length with
  | [] => .error ⟨argument⟩
  | _ :: value =>
    let name := Text.strip (String.ofList name)
    if name == "" then .error ⟨argument⟩ else .ok (name, String.ofList value)

/-- Reads assignments in order; a later one of a name replaces an earlier one. -/
def readAssignments (arguments : List String) : Except NotAnAssignment Scope :=
  arguments.foldlM (fun scope argument => do
    let (name, value) ← splitAssignment argument
    return scope.put name value) []

end Runbook.Command

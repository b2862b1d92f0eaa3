import Runbook.Assoc
import Runbook.Number.Binary

/-!
# JSON values

A value of the data format that workflows, variables, requests and log lines are written in. The
fields of an object keep their order, and an object read from text has each key once, with the value
that came last.
-/

set_option autoImplicit false

namespace Runbook

/-- A JSON value. -/
inductive Json where
  | null
  | bool (b : Bool)
  | int (n : Int)
  | real (x : Binary)
  | str (s : String)
  | arr (items : List Json)
  | obj (fields : List (String × Json))
  deriving Inhabited, Repr

namespace Json

/-- The value of a field of an object. -/
def get? : Json → String → Option Json
  | obj fields, key => Assoc.get? fields key
  | _, _ => none

/-- The text of a string value. -/
def str? : Json → Option String
  | str s => some s
  | _ => none

/-- A string value or nothing for an absent one. -/
def ofOptionStr : Option String → Json
  | some s => .str s
  | none => .null

/-- An array of strings. -/
def strs (items : List String) : Json := .arr (items.map .str)

/-- An object of strings. -/
def strFields (fields : Scope) : Json :=
  .obj (fields.map fun (k, v) => (k, .str v))

end Json

end Runbook

import Runbook.Json.Basic
import Runbook.Timestamp.Reader

/-!
# Checked reading

Reading a value either succeeds or gives every fault found in it, in the order of the fields. A
`Fault` is the path to a faulty place, what is wrong there, and what stands there. `Checked` is the
applicative that collects faults: the parts of a value are read side by side, and all of them are
looked at even if the first is faulty.
-/

set_option autoImplicit false

namespace Runbook

/-- A step on the path to a place in a value. -/
inductive Key where
  | field (name : String)
  | index (n : Nat)
  deriving DecidableEq, Repr

/-- What is wrong with a place. -/
inductive Cause where
  | missing
  | notString
  | notInt
  | notBool
  | notList
  | notDict
  | notModel (model : String)
  | notTimestamp
  /-- A body that is no JSON, from this place on. -/
  | unreadable (place : Nat)
  /-- A text that is no JSON. -/
  | notJson (message : String)
  | intText
  | intFraction
  | intSize
  | intNotFinite
  | boolText
  | notAmong
  | notStatus
  | timestampText (flaw : Timestamp.Flaw)
  | timestampNumber (flaw : Timestamp.Flaw)
  | rejected (message : String)
  deriving DecidableEq, Repr

/-- A faulty place. -/
structure Fault where
  path : List Key
  cause : Cause
  input : Json
  deriving Repr

/-- A value, or all faults found in it. -/
def Checked (α : Type) : Type := Except (List Fault) α

namespace Checked

variable {α β : Type}

/-- One fault at the place itself. -/
def fail (cause : Cause) (input : Json) : Checked α := .error [⟨[], cause, input⟩]

/-- Applies a read function to a read argument; the faults of both are kept. -/
def apply (f : Checked (α → β)) (x : Checked α) : Checked β :=
  match f, x with
  | .ok f, .ok x => .ok (f x)
  | .ok _, .error e => .error e
  | .error e, .ok _ => .error e
  | .error e, .error e' => .error (e ++ e')

instance : Applicative Checked where
  pure := .ok
  seq f x := apply f (x ())
  map f x := match x with
    | .ok x => .ok (f x)
    | .error e => .error e

/-- Goes on with a read value, for checks that need all parts. -/
def andThen (x : Checked α) (f : α → Checked β) : Checked β :=
  match x with
  | .ok x => f x
  | .error e => .error e

/-- Puts a step in front of the path of every fault. -/
def under (key : Key) (x : Checked α) : Checked α :=
  match x with
  | .ok x => .ok x
  | .error e => .error (e.map fun f => { f with path := key :: f.path })

end Checked

end Runbook

/-!
# Named values in the order of their first mention

A list of named values in which each name occurs once. `put` gives a name a value: a name that is
already there keeps its place, a new one goes to the end. Scopes of variables, the fields of JSON
objects and the contents of the stores are kept this way.
-/

set_option autoImplicit false

namespace Runbook

/-- Named values in the order of their first mention. -/
abbrev Assoc (α : Type) := List (String × α)

namespace Assoc

variable {α : Type}

/-- The value of a name. -/
def get? : Assoc α → String → Option α
  | [], _ => none
  | (k, v) :: rest, key => if k == key then some v else get? rest key

/-- Whether a name has a value. -/
def has (entries : Assoc α) (key : String) : Bool := (get? entries key).isSome

/-- Gives a name a value. -/
def put : Assoc α → String → α → Assoc α
  | [], key, value => [(key, value)]
  | (k, v) :: rest, key, value =>
    if k == key then (key, value) :: rest else (k, v) :: put rest key value

/-- Takes a name out. -/
def erase (entries : Assoc α) (key : String) : Assoc α := entries.filter (·.1 != key)

/-- Puts all entries of `over` over those of `base`. -/
def merge (base upper : Assoc α) : Assoc α := upper.foldl (fun acc (k, v) => put acc k v) base

/-- The names in order. -/
def keys (entries : Assoc α) : List String := entries.map (·.1)

/-- The values in order of their names. -/
def values (entries : Assoc α) : List α := entries.map (·.2)

end Assoc

/-- The variables that a command can name. -/
abbrev Scope := Assoc String

end Runbook

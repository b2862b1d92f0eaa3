import Runbook.Checked.Basic

/-!
# The wording of faults

A fault has a kind, a short name, and a message. Both depend a little on where the value came from:
a JSON text, a value already read, or the body of a request.
-/

set_option autoImplicit false

namespace Runbook

/-- Where a value came from. -/
inductive Surface where
  | text
  | value
  | body
  deriving DecidableEq, Repr

/-- The name of the kind of fault. -/
def Cause.kind (surface : Surface) : Cause → String
  | .missing => "missing"
  | .notString => "string_type"
  | .notInt => "int_type"
  | .notBool => "bool_type"
  | .notList => "list_type"
  | .notDict => "dict_type"
  | .notModel _ => if surface == .body then "model_attributes_type" else "model_type"
  | .notTimestamp => "datetime_type"
  | .unreadable _ => "json_invalid"
  | .notJson _ => "json_invalid"
  | .intText => "int_parsing"
  | .intFraction => "int_from_float"
  | .intSize => "int_parsing_size"
  | .intNotFinite => "finite_number"
  | .boolText => "bool_parsing"
  | .notAmong => "literal_error"
  | .notStatus => "enum"
  | .timestampText _ => "datetime_from_date_parsing"
  | .timestampNumber _ => "datetime_parsing"
  | .rejected _ => "value_error"

/-- The message of a fault, for the kinds that have a fixed one. -/
def Cause.message? (surface : Surface) : Cause → Option String
  | .missing => some "Field required"
  | .notString => some "Input should be a valid string"
  | .notInt => some "Input should be a valid integer"
  | .notBool => some "Input should be a valid boolean"
  | .notList => some ("Input should be a valid " ++ if surface == .text then "array" else "list")
  | .notDict => some ("Input should be " ++ if surface == .text then "an object" else
      "a valid dictionary")
  | .notModel model => some <| match surface with
    | .text => "Input should be an object"
    | .value => s!"Input should be a valid dictionary or instance of {model}"
    | .body => "Input should be a valid dictionary or object to extract fields from"
  | .notTimestamp => some "Input should be a valid datetime"
  | .rejected message => some ("Value error, " ++ message)
  | _ => none

end Runbook

import Runbook.Json.Basic

/-!
# What has no text

Writing a list or an object takes a level of calls, and calls nest only so deep; the digits of an
integer are worked out only if there are not too many. `Json.excess?` is what goes beyond these limits
first, in the order in which the text of a value is written.
-/

set_option autoImplicit false

namespace Runbook.Json

/-- Why a value has no text. -/
inductive Excess where
  | tooDeep
  | tooManyDigits
  deriving DecidableEq, Repr

/-- The wording for a value beyond the limits. -/
def Excess.message : Excess → String
  | .tooDeep => "maximum recursion depth exceeded while encoding a JSON object"
  | .tooManyDigits =>
    "Exceeds the limit (4300 digits) for integer string conversion; " ++
      "use sys.set_int_max_str_digits() to increase the limit"

mutual

/-- What of a value goes beyond the limits first, with room for so many levels. -/
def excess? (room : Nat) : Json → Option Excess
  | .int n =>
    if (Nat.toDigits 10 n.natAbs).length ≤ 4300 then none else some .tooManyDigits
  | .arr items =>
    match room with
    | 0 => some .tooDeep
    | room + 1 => itemsExcess? room items
  | .obj fields =>
    match room with
    | 0 => some .tooDeep
    | room + 1 => fieldsExcess? room fields
  | _ => none

/-- What of the items of a list goes beyond the limits first. -/
def itemsExcess? (room : Nat) : List Json → Option Excess
  | [] => none
  | item :: items => (excess? room item).or (itemsExcess? room items)

/-- What of a field goes beyond the limits. -/
def fieldExcess? (room : Nat) : String × Json → Option Excess
  | (_, value) => excess? room value

/-- What of the fields of an object goes beyond the limits first. -/
def fieldsExcess? (room : Nat) : List (String × Json) → Option Excess
  | [] => none
  | field :: fields => (fieldExcess? room field).or (fieldsExcess? room fields)

end

end Runbook.Json

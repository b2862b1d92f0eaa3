import Runbook.Definition.Step
import Runbook.Pattern.Matcher

/-!
# Judging conditions

A condition is judged on what a step wrote and on its exit code. `contains` and `regex` look at the
output as it is; `equals`, `starts_with` and `ends_with` at the output without blanks at its ends. A
condition with an unknown type or a malformed pattern is unusable and counts as not holding; a
pattern that is too large or has conflicting flags breaks the judgement off.
-/

set_option autoImplicit false

namespace Runbook

/-- Why a condition can never hold. -/
inductive Unusable where
  | malformedPattern (pattern : String) (fault : Pattern.Fault)
  | unknownType (type : String)
  deriving DecidableEq, Repr

/-- What judging a condition comes to. -/
inductive Verdict where
  | decided (holds : Bool)
  | unusable (why : Unusable)
  | broken (fault : Pattern.Fault)
  deriving DecidableEq, Repr

/-- Whether a sequence of characters occurs in another. -/
def Text.occursIn (part : List Char) : List Char → Bool
  | [] => part.isEmpty
  | c :: rest => part.isPrefixOf (c :: rest) || occursIn part rest

/-- Judges a search pattern. -/
def Pattern.judge (pattern output : String) : Verdict :=
  match Pattern.read pattern with
  | .ok program => .decided (program.search output)
  | .error fault =>
    if fault.isMalformed then .unusable (.malformedPattern pattern fault) else .broken fault

/-- Judges a condition. -/
def Condition.judge (c : Condition) (output : String) (exitCode : Int) : Verdict :=
  let trimmed := (Text.strip output).toList
  if c.type == "contains" then .decided (Text.occursIn c.value.toList output.toList)
  else if c.type == "equals" then .decided (trimmed == c.value.toList)
  else if c.type == "starts_with" then .decided (c.value.toList.isPrefixOf trimmed)
  else if c.type == "ends_with" then .decided (c.value.toList.isSuffixOf trimmed)
  else if c.type == "regex" then Pattern.judge c.value output
  else if c.type == "exit_code" then .decided (toString exitCode == Text.strip c.value)
  else .unusable (.unknownType c.type)

/-- What judging conditions in order comes to: the unusable ones that were passed over, and the
action of the first that holds. -/
structure Choice where
  passedOver : List Unusable
  action : Except Pattern.Fault (Option Action)
  deriving Repr

/-- Judges conditions in order up to the first that holds. -/
def Condition.choose (output : String) (exitCode : Int) : List Condition → Choice
  | [] => ⟨[], .ok none⟩
  | c :: rest =>
    match c.judge output exitCode with
    | .decided true => ⟨[], .ok (some c.action)⟩
    | .decided false => choose output exitCode rest
    | .unusable why =>
      let choice := choose output exitCode rest
      { choice with passedOver := why :: choice.passedOver }
    | .broken fault => ⟨[], .error fault⟩

end Runbook

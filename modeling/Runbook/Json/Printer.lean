import Runbook.Json.Basic
import Runbook.Number.Shortest
import Runbook.Text.Quoted

/-!
# Writing JSON text

`Json.compact` writes a value on one line, `Json.indented` with two spaces a level. Strings keep
every character except quotes, backslashes and controls.
-/

set_option autoImplicit false

namespace Runbook.Json

/-- One character inside a string. -/
def escapeString (c : Char) : List Char :=
  if c == '"' then ['\\', '"']
  else if c == '\\' then ['\\', '\\']
  else if c == '\n' then ['\\', 'n']
  else if c == '\r' then ['\\', 'r']
  else if c == '\t' then ['\\', 't']
  else if c == '\x0c' then ['\\', 'f']
  else if c == '\x08' then ['\\', 'b']
  else if c.toNat < 0x20 then '\\' :: 'u' :: Text.hexDigits 4 c.toNat
  else [c]

/-- A string in quotes. -/
def printString (s : String) : List Char := '"' :: s.toList.flatMap escapeString ++ ['"']

/-- The text of an integer. -/
def printInt (n : Int) : List Char :=
  if n < 0 then '-' :: Nat.toDigits 10 n.natAbs else Nat.toDigits 10 n.natAbs

/-- The text of a binary number. -/
def printReal : Binary → List Char
  | .finite negative m q => (Binary.finiteText negative m q).toList
  | .infinite true => "-Infinity".toList
  | .infinite false => "Infinity".toList
  | .notANumber => "NaN".toList

/-- The text of a value that holds no others. -/
def printScalar : Json → List Char
  | .null => "null".toList
  | .bool true => "true".toList
  | .bool false => "false".toList
  | .int n => printInt n
  | .real x => printReal x
  | .str s => printString s
  | .arr _ => ['[', ']']
  | .obj _ => ['\x7b', '\x7d']

mutual

/-- The value on one line. -/
def printCompact : Json → List Char
  | .arr [] => ['[', ']']
  | .arr (item :: items) => '[' :: printCompact item ++ printCompactItems items ++ [']']
  | .obj [] => ['\x7b', '\x7d']
  | .obj (field :: fields) =>
    '\x7b' :: printCompactField field ++ printCompactFields fields ++ ['\x7d']
  | other => printScalar other

/-- Further items of an array, each behind a comma. -/
def printCompactItems : List Json → List Char
  | [] => []
  | item :: items => ',' :: ' ' :: printCompact item ++ printCompactItems items

/-- A field of an object. -/
def printCompactField : String × Json → List Char
  | (key, value) => printString key ++ ':' :: ' ' :: printCompact value

/-- Further fields of an object, each behind a comma. -/
def printCompactFields : List (String × Json) → List Char
  | [] => []
  | field :: fields => ',' :: ' ' :: printCompactField field ++ printCompactFields fields

end

/-- A line end and the spaces of a level. -/
def newline (level : Nat) : List Char := '\n' :: List.replicate (2 * level) ' '

mutual

/-- The value with each item and field on a line of its own; `level` is that of the value. -/
def printIndented (level : Nat) : Json → List Char
  | .arr [] => ['[', ']']
  | .arr (item :: items) =>
    '[' :: newline (level + 1) ++ printIndented (level + 1) item ++
      printIndentedItems (level + 1) items ++ newline level ++ [']']
  | .obj [] => ['\x7b', '\x7d']
  | .obj (field :: fields) =>
    '\x7b' :: newline (level + 1) ++ printIndentedField (level + 1) field ++
      printIndentedFields (level + 1) fields ++ newline level ++ ['\x7d']
  | other => printScalar other

/-- Further items of an array. -/
def printIndentedItems (level : Nat) : List Json → List Char
  | [] => []
  | item :: items =>
    ',' :: newline level ++ printIndented level item ++ printIndentedItems level items

/-- A field of an object. -/
def printIndentedField (level : Nat) : String × Json → List Char
  | (key, value) => printString key ++ ':' :: ' ' :: printIndented level value

/-- Further fields of an object. -/
def printIndentedFields (level : Nat) : List (String × Json) → List Char
  | [] => []
  | field :: fields =>
    ',' :: newline level ++ printIndentedField level field ++ printIndentedFields level fields

end

/-- The value on one line. -/
def compact (value : Json) : String := String.ofList (printCompact value)

/-- The value with two spaces a level. -/
def indented (value : Json) : String := String.ofList (printIndented 0 value)

end Runbook.Json

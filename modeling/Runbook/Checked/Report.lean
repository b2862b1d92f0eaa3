import Runbook.Checked.Wording
import Runbook.Journal.Percent

/-!
# Reports of faults

A report says on its first line how many faults a value of a kind has. For each fault follow the path
to its place, its full message with the kind of fault and the faulty value, and where to read more.
-/

set_option autoImplicit false

namespace Runbook

/-- The full message of a fault. -/
def Cause.fullMessage (surface : Surface) (cause : Cause) : String :=
  match cause.message? surface with
  | some message => message
  | none =>
    match cause with
    | .intText => "Input should be a valid integer, unable to parse string as an integer"
    | .intFraction => "Input should be a valid integer, got a number with a fractional part"
    | .intSize => "Unable to parse input string as an integer, exceeded maximum size"
    | .intNotFinite => "Input should be a finite number"
    | .boolText => "Input should be a valid boolean, unable to interpret input"
    | .notAmong => "Input should be 'info' or 'error'"
    | .notStatus => "Input should be 'running', 'completed', 'failed' or 'cancelled'"
    | .timestampText flaw => "Input should be a valid datetime or date, " ++ flaw.message
    | .timestampNumber flaw => "Input should be a valid datetime, " ++ flaw.message
    | .notJson message => "Invalid JSON: " ++ message
    | _ => "Invalid JSON"

/-- The text of a step on a path; a name with a point in it is set off. -/
def Key.text : Key → String
  | .field name => if name.contains '.' then "\x60" ++ name ++ "\x60" else name
  | .index n => toString n

/-- The last of `sizes` bytes at which a character ends, and its characters. -/
def takeBytes : Nat → List Char → List Char
  | _, [] => []
  | room, c :: rest => if c.utf8Size ≤ room then c :: takeBytes (room - c.utf8Size) rest else []

/-- A text of at most fifty bytes, a longer one with its middle left out. -/
def shorten (s : String) : String :=
  if s.utf8ByteSize ≤ 50 then s
  else
    let front := takeBytes 25 s.toList
    let back := (takeBytes 24 s.toList.reverse).reverse
    String.ofList (front ++ "...".toList ++ back)

/-- The lines for one fault. -/
def Fault.report (surface : Surface) (f : Fault) : List String :=
  let place := if f.path.isEmpty then [] else [".".intercalate (f.path.map Key.text)]
  let kind := f.cause.kind surface
  place ++
    [s!"  {f.cause.fullMessage surface} [type={kind}, " ++
      s!"input_value={shorten (Journal.inspect f.input)}, input_type={Journal.kindName f.input}]",
      s!"    For further information visit https://errors.pydantic.dev/2.14/v/{kind}"]

/-- The first line of a report. -/
def reportHeadline (count : Nat) (kind : String) : String :=
  let noun := if count == 1 then "error" else "errors"
  s!"{count} validation {noun} for {kind}"

/-- The report of the faults of a value of the given kind. -/
def report (surface : Surface) (kind : String) (faults : List Fault) : String :=
  "\n".intercalate (reportHeadline faults.length kind :: faults.flatMap (Fault.report surface))

end Runbook

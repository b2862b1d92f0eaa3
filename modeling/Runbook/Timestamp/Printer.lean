import Runbook.Timestamp.Basic

/-!
# Writing points in time

The text of a timestamp is `YYYY-MM-DDTHH:MM:SS`, six digits of a second behind a point if it has
any, and the offset. A zero offset is written `Z` in definitions and `+00:00` in log lines.
-/

set_option autoImplicit false

namespace Runbook.Timestamp

/-- The last `width` digits of a number. -/
def padded (width n : Nat) : List Char :=
  let digits := Nat.toDigits 10 n
  List.replicate (width - digits.length) '0' ++ digits

/-- The text of the offset; `zero` is the one for none at all. -/
def offsetText (zero : String) : Option Int → List Char
  | none => []
  | some offset =>
    if offset == 0 then zero.toList
    else
      let minutes := offset.natAbs / 60
      (if offset < 0 then '-' else '+') :: padded 2 (minutes / 60) ++ ':' :: padded 2 (minutes % 60)

/-- The text of a timestamp. -/
def printWith (zero : String) (t : Timestamp) : List Char :=
  padded 4 t.year ++ '-' :: padded 2 t.month ++ '-' :: padded 2 t.day ++
    'T' :: padded 2 t.hour ++ ':' :: padded 2 t.minute ++ ':' :: padded 2 t.second ++
    (if t.micro == 0 then [] else '.' :: padded 6 t.micro) ++ offsetText zero t.offset

/-- The text in definitions and answers. -/
def print (t : Timestamp) : String := String.ofList (printWith "Z" t)

/-- The text in log lines. -/
def printLog (t : Timestamp) : String := String.ofList (printWith "+00:00" t)

end Runbook.Timestamp

import Runbook.Json.Basic
import Runbook.Timestamp.Basic

/-!
# Points in time from seconds

`ofSeconds` turns a number of seconds since the start of 1970 into a point in universal time. A part
of a second is first scaled to microseconds as a binary number and then rounded to the nearest whole
one, a tie to the even one.
-/

set_option autoImplicit false

namespace Runbook.Timestamp

/-- Why a number of seconds names no point in time. -/
inductive OutOfRange where
  | yearOutside (year : Int)
  | count
  | notANumber
  | infinite
  deriving DecidableEq, Repr

/-- The message for a number of seconds that names no point in time. -/
def OutOfRange.message : OutOfRange → String
  | .yearOutside year => s!"year {year} is out of range"
  | .count => "timestamp out of range for platform time_t"
  | .notANumber => "cannot convert float NaN to integer"
  | .infinite => "cannot convert float infinity to integer"

/-- The point that many whole seconds and microseconds after the start of 1970. -/
def ofWhole (seconds : Int) (micro : Nat) : Except OutOfRange Timestamp :=
  if seconds.natAbs ≥ Nat.pow 2 63 then .error .count
  else if seconds > 253402300799 then
    -- From the year 10000 on, the same calendar holds 400 years and 146097 days later.
    let eras := Int.fdiv (seconds - 253402300800) 12622780800 + 1
    let year := (ofUnix (seconds - eras * 12622780800) micro).year
    .error (.yearOutside (year + 400 * eras))
  else if seconds < -62135596800 then
    let eras := Int.fdiv (-62135596801 - seconds) 12622780800 + 1
    let year := (ofUnix (seconds + eras * 12622780800) micro).year
    .error (.yearOutside (year - 400 * eras))
  else .ok (ofUnix seconds micro)

/-- The point that a number of seconds names; values that are no numbers name the start. -/
def ofSeconds : Json → Except OutOfRange Timestamp
  | .int n => ofWhole n 0
  | .real (.finite negative m q) =>
    let (n, d) := Binary.ratio m q
    let whole : Int := (n / d : Nat)
    let micros := match Binary.ofRatio false (n % d * 1000000) d with
      | .finite _ m q =>
        let (n, d) := Binary.ratio m q
        Binary.roundDiv n d
      | _ => 0
    let total := if negative then -(whole * 1000000 + micros) else whole * 1000000 + micros
    ofWhole (Int.fdiv total 1000000) (Int.fmod total 1000000).toNat
  | .real (.infinite _) => .error .infinite
  | .real .notANumber => .error .notANumber
  | _ => .ok (ofUnix 0 0)

end Runbook.Timestamp

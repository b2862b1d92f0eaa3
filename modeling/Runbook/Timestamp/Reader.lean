import Runbook.Number.Binary
import Runbook.Timestamp.Basic

/-!
# Reading points in time

A timestamp is read from a text, `YYYY-MM-DD` with an optional time and offset, or from a number of
seconds since the start of 1970, which may also be written as a text. A number above `2e10` in size
counts milliseconds. Digits of a second beyond the sixth are cut off.
-/

set_option autoImplicit false

namespace Runbook.Timestamp

/-- The value of an ASCII digit. -/
def digit? (c : Char) : Option Nat :=
  if '0' ≤ c && c ≤ '9' then some (c.toNat - 48) else none

/-- Reads two digits. -/
def twoDigits? : List Char → Option (Nat × List Char)
  | a :: b :: rest => do return ((← digit? a) * 10 + (← digit? b), rest)
  | _ => none

/-- Reads a date. -/
def readDate? : List Char → Option ((Nat × Nat × Nat) × List Char)
  | cs => do
    let (century, cs) ← twoDigits? cs
    let (years, cs) ← twoDigits? cs
    let cs ← cs.head? >>= fun c => if c == '-' then some (cs.drop 1) else none
    let (month, cs) ← twoDigits? cs
    let cs ← cs.head? >>= fun c => if c == '-' then some (cs.drop 1) else none
    let (day, cs) ← twoDigits? cs
    let year := century * 100 + years
    if isDate year month day then some ((year, month, day), cs) else none

/-- The microseconds of the digits behind the point. -/
def microsOf (digits : List Char) : Nat :=
  let six := (digits ++ List.replicate 6 '0').take 6
  six.foldl (fun n c => n * 10 + (c.toNat - 48)) 0

/-- Reads a time of day. -/
def readTime? (cs : List Char) : Option ((Nat × Nat × Nat × Nat) × List Char) := do
  let (hour, cs) ← twoDigits? cs
  let cs ← cs.head? >>= fun c => if c == ':' then some (cs.drop 1) else none
  let (minute, cs) ← twoDigits? cs
  if hour > 23 || minute > 59 then none
  else
    match cs with
    | ':' :: cs =>
      let (second, cs) ← twoDigits? cs
      if second > 59 then none
      else
        match cs with
        | c :: rest =>
          if c == '.' || c == ',' then
            let digits := rest.takeWhile fun c => (digit? c).isSome
            if digits.isEmpty then none
            else some ((hour, minute, second, microsOf digits), rest.drop digits.length)
          else some ((hour, minute, second, 0), cs)
        | [] => some ((hour, minute, second, 0), [])
    | cs => some ((hour, minute, 0, 0), cs)

/-- Reads an offset that takes the whole text. -/
def readOffset? : List Char → Option (Option Int)
  | [] => some none
  | ['Z'] => some (some 0)
  | ['z'] => some (some 0)
  | sign :: cs => do
    let factor : Int ← if sign == '+' then some 1
      else if sign == '-' || sign == '−' then some (-1) else none
    let (hours, cs) ← twoDigits? cs
    let cs := match cs with
      | ':' :: cs => cs
      | cs => cs
    let (minutes, cs) ← twoDigits? cs
    if cs.isEmpty && hours ≤ 23 && minutes ≤ 59 then
      some (some (factor * (hours * 3600 + minutes * 60)))
    else none

/-- Reads a date with or without a time of day. -/
def readCalendar? (cs : List Char) : Option Timestamp := do
  let ((year, month, day), cs) ← readDate? cs
  match cs with
  | [] => some ⟨year, month, day, 0, 0, 0, 0, none⟩
  | c :: cs =>
    if c == 'T' || c == 't' || c == ' ' || c == '_' then
      let ((hour, minute, second, micro), cs) ← readTime? cs
      let offset ← readOffset? cs
      some ⟨year, month, day, hour, minute, second, micro, offset⟩
    else none

/-- The timestamp of a count of seconds, or of milliseconds if it is large, and microseconds. -/
def ofCount? (count : Int) (micro : Nat) : Option Timestamp :=
  let (seconds, extra) : Int × Nat :=
    if count.natAbs ≤ 20000000000 then (count, 0)
    else (Int.fdiv count 1000, (Int.fmod count 1000).toNat * 1000)
  let total := micro + extra
  let seconds := seconds + (total / 1000000 : Nat)
  if seconds < -11676096000 || 253402300799 < seconds then none
  else some (ofUnix seconds (total % 1000000))

/-- The timestamp of a binary number of seconds. -/
def ofBinary? : Binary → Option Timestamp
  | .finite negative m q =>
    let (n, d) := Binary.ratio m q
    let whole := n / d
    let part := n % d
    let floor : Int := if negative then -((n + d - 1) / d : Nat) else whole
    ofCount? floor (Binary.roundDiv (part * 1000000) d)
  | _ => none

/-- The number that a text of digits with an optional sign and fraction names. -/
def ofNumeral? (cs : List Char) : Option Timestamp :=
  let (negative, cs) := match cs with
    | '-' :: r => (true, r)
    | '+' :: r => (false, r)
    | r => (false, r)
  let whole := cs.takeWhile fun c => (digit? c).isSome
  let value (ds : List Char) : Nat := ds.foldl (fun n c => n * 10 + (c.toNat - 48)) 0
  if whole.isEmpty then none
  else
    match cs.drop whole.length with
    | [] =>
      let size := value whole
      if size ≥ Nat.pow 2 63 then none else ofCount? (if negative then -(size : Int) else size) 0
    | '.' :: rest =>
      if rest.all fun c => (digit? c).isSome then
        ofBinary? (Binary.ofDecimal negative (value (whole ++ rest)) (-(rest.length : Int)))
      else none
    | _ => none

/-! ## Flaws -/

/-- What is wrong with what should name a point in time. -/
inductive Flaw where
  | tooShort
  | year
  | month
  | day
  | separator
  | monthRange
  | dayRange
  | trailing
  | tooEarly
  | tooLate
  | notNumber
  deriving DecidableEq, Repr

/-- The wording of a flaw. -/
def Flaw.message : Flaw → String
  | .tooShort => "input is too short"
  | .year => "invalid character in year"
  | .month => "invalid character in month"
  | .day => "invalid character in day"
  | .separator => "invalid date separator, expected \x60-\x60"
  | .monthRange => "month value is outside expected range of 1-12"
  | .dayRange => "day value is outside expected range"
  | .trailing => "unexpected extra characters at the end of the input"
  | .tooEarly => "dates before 1600 are not supported as unix timestamps"
  | .tooLate => "dates after 9999 are not supported as unix timestamps"
  | .notNumber => "NaN values not permitted"

/-- The flaw of a number of seconds that names no point in time. -/
def flawOfSign (negative : Bool) : Flaw := if negative then .tooEarly else .tooLate

/-- The flaw of a binary number that names no point in time. -/
def flawOfBinary : Binary → Flaw
  | .finite negative _ _ => flawOfSign negative
  | .infinite negative => flawOfSign negative
  | .notANumber => .notNumber

/-- The flaw of a text that names no point in time, read as a date. -/
def flawOfDate (s : String) : Flaw :=
  let cs := s.toList
  let number? (start count : Nat) : Option Nat :=
    ((cs.drop start).take count).foldlM (fun n c => (digit? c).map (n * 10 + ·)) 0
  if s.utf8ByteSize < 10 then .tooShort
  else
    match number? 0 4, number? 5 2, number? 8 2 with
    | none, _, _ => .year
    | some year, month?, day? =>
      if cs[4]? != some '-' then .separator
      else
        match month?, day? with
        | none, _ => .month
        | some month, day? =>
          if cs[7]? != some '-' then .separator
          else
            match day? with
            | none => .day
            | some day =>
              if month < 1 || 12 < month then .monthRange
              else if day < 1 || daysInMonth year month < day then .dayRange
              else .trailing

/-- The flaw of a text that names no point in time. -/
def flawOfText (s : String) : Flaw :=
  let (negative, digits) := match s.toList with
    | '-' :: r => (true, r)
    | '+' :: r => (false, r)
    | r => (false, r)
  let isNumeral := !digits.isEmpty && digits.all fun c => (digit? c).isSome
  if isNumeral && digits.foldl (fun n c => n * 10 + (c.toNat - 48)) 0 < Nat.pow 2 63 then
    flawOfSign negative
  else flawOfDate s

/-- Reads a timestamp from a text. -/
def read? (s : String) : Option Timestamp :=
  (readCalendar? s.toList).orElse fun _ => ofNumeral? s.toList

end Runbook.Timestamp

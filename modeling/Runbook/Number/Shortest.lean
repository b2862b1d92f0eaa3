import Runbook.Number.Binary

/-!
# The fewest digits that read back

`Binary.shortest` gives the decimal digits of a finite number with as few digits as possible such
that the nearest binary number is the same again; of two such decimals of one length the nearer
wins. `Binary.text` lays them out: positional between `1e-4` and `1e16`, else with an exponent.
-/

set_option autoImplicit false

namespace Runbook.Binary

/-- The decimals that round to `m · 2 ^ q` lie between two bounds, given over one denominator. -/
structure Interval where
  low : Nat
  value : Nat
  high : Nat
  denominator : Nat
  closed : Bool

/-- The interval of a positive number. -/
def interval (m : Nat) (q : Int) : Interval :=
  -- Everything is scaled by four; below a power of two the neighbour is half as far away.
  let narrow := m == Nat.pow 2 52 && q > -1074
  let up : Nat := if q ≥ 0 then Nat.pow 2 q.toNat else 1
  let down : Nat := if q ≥ 0 then 1 else Nat.pow 2 (-q).toNat
  { low := (4 * m - (if narrow then 1 else 2)) * up
    value := 4 * m * up
    high := (4 * m + 2) * up
    denominator := 4 * down
    closed := m % 2 == 0 }

/-- Whether the decimal `n / d` lies in the interval. -/
def Interval.holds (i : Interval) (n d : Nat) : Bool :=
  let x := n * i.denominator
  if i.closed then i.low * d ≤ x && x ≤ i.high * d else i.low * d < x && x < i.high * d

/-- The better of the two neighbours of the number on the grid of step `10 ^ step`. -/
def gridHit (i : Interval) (step : Int) : Option Nat :=
  let scaleUp : Nat := if step ≥ 0 then Nat.pow 10 step.toNat else 1
  let scaleDown : Nat := if step ≥ 0 then 1 else Nat.pow 10 (-step).toNat
  let floor := i.value * scaleDown / (i.denominator * scaleUp)
  let holds (k : Nat) := i.holds (k * scaleUp) scaleDown
  let rest := i.value * scaleDown - floor * (i.denominator * scaleUp)
  let nearerBelow := 2 * rest < i.denominator * scaleUp ||
    (2 * rest == i.denominator * scaleUp && floor % 2 == 0)
  match holds floor && floor != 0, holds (floor + 1) with
  | true, true => some (if nearerBelow then floor else floor + 1)
  | true, false => some floor
  | false, true => some (floor + 1)
  | false, false => none

/-- Tries finer and finer grids until one has a hit; gives the digits and the grid. -/
def searchGrid (i : Interval) : Nat → Int → Nat × Int
  | 0, step => ((gridHit i step).getD 0, step)
  | fuel + 1, step =>
    match gridHit i step with
    | some k => (k, step)
    | none => searchGrid i fuel (step - 1)

/-- The digits and the power of ten of the shortest decimal of a positive number. -/
def shortest (m : Nat) (q : Int) : Nat × Int :=
  let i := interval m q
  -- No decimal with more digits than the integer part needs is tried before the coarsest grid.
  let magnitude : Int := (digitCount (i.value / i.denominator) : Int)
  let leading : Int :=
    if i.value ≥ i.denominator then magnitude
    else 1 - (digitCount (i.denominator / (max i.value 1)) : Int) + 1
  searchGrid i 400 (leading + 1)

/-- Drops zeros at the end of the digits and counts them into the power of ten. -/
def dropZeros : Nat → Nat → Int → Nat × Int
  | 0, k, step => (k, step)
  | fuel + 1, k, step => if k != 0 && k % 10 == 0 then dropZeros fuel (k / 10) (step + 1) else (k, step)

/-- Lays out digits with the point after `point` of them. -/
def layout (digits : List Char) (point : Int) : List Char :=
  if -4 < point && point ≤ 16 then
    if point ≤ 0 then '0' :: '.' :: List.replicate (-point).toNat '0' ++ digits
    else
      let whole := digits.take point.toNat
      let rest := digits.drop point.toNat
      whole ++ List.replicate (point.toNat - whole.length) '0' ++ '.' ::
        (if rest.isEmpty then ['0'] else rest)
  else
    let exponent := point - 1
    let size := Nat.toDigits 10 exponent.natAbs
    let padded := if size.length < 2 then '0' :: size else size
    let rest := digits.drop 1
    digits.take 1 ++ (if rest.isEmpty then [] else '.' :: rest) ++
      'e' :: (if exponent < 0 then '-' else '+') :: padded

/-- The text of a finite number. -/
def finiteText (negative : Bool) (m : Nat) (q : Int) : String :=
  let sign := if negative then ['-'] else []
  if m == 0 then String.ofList (sign ++ ['0', '.', '0'])
  else
    let (k, step) := shortest m q
    let (k, step) := dropZeros 400 k step
    let digits := Nat.toDigits 10 k
    String.ofList (sign ++ layout digits (digits.length + step))

/-- The finite number with exactly `places` digits after the point, a tie to the even digit. -/
def fixedText (places : Nat) (negative : Bool) (m : Nat) (q : Int) : String :=
  let (n, d) := ratio m q
  let k := roundDiv (n * Nat.pow 10 places) d
  let digits := Nat.toDigits 10 k
  let digits := List.replicate (places + 1 - digits.length) '0' ++ digits
  let whole := digits.take (digits.length - places)
  let rest := digits.drop (digits.length - places)
  String.ofList ((if negative then ['-'] else []) ++ whole ++
    (if rest.isEmpty then [] else '.' :: rest))

end Runbook.Binary

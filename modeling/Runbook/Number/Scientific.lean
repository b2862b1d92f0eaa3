import Runbook.Number.Shortest

/-!
# Decimals with a given number of digits

`scientificText` writes a number with one digit before the point and an exponent; `generalText`
chooses between that and positional digits by the size of the number. Both round to the nearest, a
tie to the even digit.
-/

set_option autoImplicit false

namespace Runbook.Binary

/-- The exponent of the leading decimal digit of a positive quotient, searched from a guess down. -/
def leadingExponent (n d : Nat) : Nat → Int → Int
  | 0, guess => guess
  | fuel + 1, guess =>
    let reached := if guess ≥ 0 then d * Nat.pow 10 guess.toNat ≤ n
      else d ≤ n * Nat.pow 10 (-guess).toNat
    if reached then guess else leadingExponent n d fuel (guess - 1)

/-- The first `digits` digits of a positive quotient, rounded, and the exponent of the leading one. -/
def significant (digits : Nat) (n d : Nat) : List Char × Int :=
  let exponent := leadingExponent n d 700 (digitCount (n / d) : Int)
  let scale : Int := (digits : Int) - 1 - exponent
  let k := if scale ≥ 0 then roundDiv (n * Nat.pow 10 scale.toNat) d
    else roundDiv n (d * Nat.pow 10 (-scale).toNat)
  if k == Nat.pow 10 digits then ('1' :: List.replicate (digits - 1) '0', exponent + 1)
  else (Nat.toDigits 10 k, exponent)

/-- The first digits of a number that may be zero. -/
def significantOrZero (digits m : Nat) (q : Int) : List Char × Int :=
  if m == 0 then (List.replicate digits '0', 0)
  else
    let (n, d) := ratio m q
    significant digits n d

/-- An exponent with its sign and at least two digits. -/
def exponentText (exponent : Int) : List Char :=
  let size := Nat.toDigits 10 exponent.natAbs
  'e' :: (if exponent < 0 then '-' else '+') :: (if size.length < 2 then '0' :: size else size)

/-- The point and the digits behind it; a point alone only if it is always kept. -/
def fractionText (keepPoint : Bool) (digits : List Char) : List Char :=
  if digits.isEmpty && !keepPoint then [] else '.' :: digits

/-- The size of a number with one digit before the point and `places` behind it. -/
def scientificText (keepPoint : Bool) (places m : Nat) (q : Int) : List Char :=
  let (digits, exponent) := significantOrZero (places + 1) m q
  digits.take 1 ++ fractionText keepPoint (digits.drop 1) ++ exponentText exponent

/-- The digits without zeros at the end. -/
def trimZeros (digits : List Char) : List Char := (digits.reverse.dropWhile (· == '0')).reverse

/-- The size of a number with `digits` significant digits, positional unless its exponent is below
-4 or not below `digits`. Zeros at the end are dropped unless the point is always kept. -/
def generalText (keepPoint : Bool) (digits m : Nat) (q : Int) : List Char :=
  let digits := max digits 1
  let (shown, exponent) := significantOrZero digits m q
  let trim (cs : List Char) := if keepPoint then cs else trimZeros cs
  if -4 ≤ exponent && exponent < digits then
    if exponent < 0 then
      '0' :: fractionText keepPoint
        (trim (List.replicate (-exponent - 1).toNat '0' ++ shown))
    else
      let whole := exponent.toNat + 1
      shown.take whole ++ fractionText keepPoint (trim (shown.drop whole))
  else shown.take 1 ++ fractionText keepPoint (trim (shown.drop 1)) ++ exponentText exponent

end Runbook.Binary

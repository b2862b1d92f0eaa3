/-!
# Binary numbers of 64 bits

A number with a fraction or an exponent is kept as the nearest binary number with 53 significant
bits, `± mantissa · 2 ^ exponent`. All arithmetic here is exact on natural numbers; the only
rounding is the one in `Binary.ofDecimal`, to the nearest, a tie to the even mantissa.
-/

set_option autoImplicit false

namespace Runbook

/-- A binary number of 64 bits. -/
inductive Binary where
  | finite (negative : Bool) (mantissa : Nat) (exponent : Int)
  | infinite (negative : Bool)
  | notANumber
  deriving DecidableEq, Repr, Inhabited

namespace Binary

/-- The quotient `n / d` rounded to the nearest, a tie to the even neighbour. -/
def roundDiv (n d : Nat) : Nat :=
  let q := n / d
  let twice := 2 * (n % d)
  if twice < d then q
  else if d < twice then q + 1
  else if q % 2 == 0 then q else q + 1

/-- The exponent of the binary number nearest to `n / d`, before its mantissa is rounded. -/
def exponentFor (n d : Nat) : Int :=
  let guess : Int := (Nat.log2 n : Int) - (Nat.log2 d : Int) - 52
  -- `n / d / 2 ^ guess` lies between `2 ^ 51` and `2 ^ 53`.
  let below : Bool :=
    if guess ≥ 0 then n < d * Nat.pow 2 (guess.toNat + 52)
    else n * Nat.pow 2 (-guess).toNat < d * Nat.pow 2 52
  let exact := if below then guess - 1 else guess
  max exact (-1074)

/-- The binary number nearest to `n / d`. -/
def ofRatio (negative : Bool) (n d : Nat) : Binary :=
  if n == 0 then .finite negative 0 0
  else
    let q := exponentFor n d
    let m := if q ≥ 0 then roundDiv n (d * Nat.pow 2 q.toNat)
      else roundDiv (n * Nat.pow 2 (-q).toNat) d
    let (m, q) := if m == Nat.pow 2 53 then (Nat.pow 2 52, q + 1) else (m, q)
    if q > 971 then .infinite negative else .finite negative m q

/-- The number of decimal digits of a positive number. -/
def digitCount (n : Nat) : Nat := (Nat.toDigits 10 n).length

/-- The binary number nearest to `± digits · 10 ^ exponent`. -/
def ofDecimal (negative : Bool) (digits : Nat) (exponent : Int) : Binary :=
  if digits == 0 then .finite negative 0 0
  else
    let size : Int := (digitCount digits : Int) + exponent
    if size > 310 then .infinite negative
    else if size < -330 then .finite negative 0 0
    else if exponent ≥ 0 then ofRatio negative (digits * Nat.pow 10 exponent.toNat) 1
    else ofRatio negative digits (Nat.pow 10 (-exponent).toNat)

/-- The binary number nearest to an integer. -/
def ofInt (n : Int) : Binary := ofRatio (n < 0) n.natAbs 1

/-- The integer that the number is equal to, if it is one. -/
def toInt? : Binary → Option Int
  | .finite negative m q =>
    let sign (n : Nat) : Int := if negative then -(n : Int) else n
    if q ≥ 0 then some (sign (m * Nat.pow 2 q.toNat))
    else
      let d := Nat.pow 2 (-q).toNat
      if m % d == 0 then some (sign (m / d)) else none
  | _ => none

/-- The numerator and denominator of the size of a finite number. -/
def ratio (m : Nat) (q : Int) : Nat × Nat :=
  if q ≥ 0 then (m * Nat.pow 2 q.toNat, 1) else (m, Nat.pow 2 (-q).toNat)

end Binary

end Runbook

/-!
# Unpaired halves of a character

An escape such as `\ud800` names one half of a two-part character code. A half without its partner
is no character; a text keeps it as a stand-in in the last private area. A text with a
stand-in can be shown and compared but not written as UTF-8: `firstHalf?` finds the place that
prevents it.
-/

set_option autoImplicit false

namespace Runbook.Text

/-- The stand-in for the half with the given code between `0xD800` and `0xDFFF`. -/
def halfChar (code : Nat) : Char := Char.ofNat (0x100000 + code)

/-- The code of the half for which the character stands in. -/
def halfCode? (c : Char) : Option Nat :=
  if 0x10D800 ≤ c.toNat && c.toNat ≤ 0x10DFFF then some (c.toNat - 0x100000) else none

/-- The place and the code of the first unpaired half. -/
def firstHalf? : List Char → Option (Nat × Nat)
  | [] => none
  | c :: rest =>
    match halfCode? c with
    | some code => some (0, code)
    | none => (firstHalf? rest).map fun (place, code) => (place + 1, code)

end Runbook.Text

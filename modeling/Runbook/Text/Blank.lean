/-!
# Blank characters

The characters that count as blank around a name, an id or an output: ASCII spaces and the
information separators, the next-line control, and the space, line and paragraph separators of
Unicode. `strip` takes them off both ends.
-/

set_option autoImplicit false

namespace Runbook.Text

/-- Whether a character is blank. -/
def isBlank (c : Char) : Bool :=
  let n := c.toNat
  (9 ≤ n && n ≤ 13) || (28 ≤ n && n ≤ 32) || n == 0x85 || n == 0xA0 || n == 0x1680 ||
    (0x2000 ≤ n && n ≤ 0x200A) || n == 0x2028 || n == 0x2029 || n == 0x202F || n == 0x205F ||
    n == 0x3000

/-- The characters without the blank ones in front. -/
def stripStart (cs : List Char) : List Char := cs.dropWhile isBlank

/-- The characters without the blank ones at the end. -/
def stripEnd (cs : List Char) : List Char := (cs.reverse.dropWhile isBlank).reverse

/-- The text without blank characters at both ends. -/
def strip (s : String) : String := String.ofList (stripEnd (stripStart s.toList))

/-- Whether a text has no character other than blank ones. -/
def isAllBlank (s : String) : Bool := s.toList.all isBlank

end Runbook.Text

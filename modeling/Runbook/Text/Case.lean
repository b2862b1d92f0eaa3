import Runbook.Text.CaseTable
import Runbook.Text.Ranges

/-!
# Small letters and capitals

`toLower` and `toUpper` map a whole text. Most characters map one to one by the rows of
`CaseTable`; some capitals have several characters, and a capital sigma at the end of a word
becomes the final small sigma.
-/

set_option autoImplicit false

namespace Runbook.Text

/-- Finds the row for `n` among the rows at positions `lo ≤ i < hi`. -/
def findCaseRow (rows : Array CaseRow) (n lo hi : Nat) : Option CaseRow :=
  if _h : lo < hi then
    let mid := (lo + hi) / 2
    match rows[mid]? with
    | none => none
    | some row =>
      if n < row.1 then findCaseRow rows n lo mid
      else if row.2.1 < n then findCaseRow rows n (mid + 1) hi
      else some row
  else none
termination_by hi - lo

/-- Applies the rows to one character number. -/
def mapCase (rows : Array CaseRow) (n : Nat) : Nat :=
  match findCaseRow rows n 0 rows.size with
  | some (first, _, step, shift) =>
    if (n - first) % step == 0 then (Int.ofNat n + shift).toNat else n
  | none => n

/-- The small letter of one character, alone. -/
def lowerChar (c : Char) : Char := Char.ofNat (mapCase lowerRows c.toNat)

/-- The capital of one character, where that is one character. -/
def upperChar (c : Char) : Char := Char.ofNat (mapCase upperRows c.toNat)

/-- Whether the search for a neighbouring letter passes over the character. -/
def isCaseIgnorable (c : Char) : Bool := Ranges.contains caseIgnorableRanges c.toNat

/-- Whether the character has case. -/
def isCased (c : Char) : Bool := Ranges.contains casedRanges c.toNat

/-- Whether the nearest character that is not passed over has case. -/
def nextIsCased (cs : List Char) : Bool :=
  match cs.dropWhile isCaseIgnorable with
  | [] => false
  | c :: _ => isCased c

/-- The small letters of a text, with the characters before the text in reverse order. -/
def lowerFrom (before : List Char) : List Char → List Char
  | [] => []
  | c :: rest =>
    let small : List Char :=
      if c == 'Σ' then (if nextIsCased before && !nextIsCased rest then ['ς'] else ['σ'])
      else if c == 'İ' then ['i', '\u0307']
      else [lowerChar c]
    small ++ lowerFrom (c :: before) rest

/-- The text in small letters. -/
def toLower (s : String) : String := String.ofList (lowerFrom [] s.toList)

/-- The capital form of one character as a sequence. -/
def upperSequence (c : Char) : List Char :=
  match upperSequences.find? (·.1 == c.toNat) with
  | some (_, ns) => ns.map Char.ofNat
  | none => [upperChar c]

/-- The text in capitals. -/
def toUpper (s : String) : String := String.ofList (s.toList.flatMap upperSequence)

end Runbook.Text

import Runbook.Shell.Glob

/-!
# Splitting into fields

What is put in place of a part of a word is split at separators unless it is quoted. White
separators close a field together; any other one closes a field by itself, even an empty one.
-/

set_option autoImplicit false

namespace Runbook.Shell

/-- A part of a word that is to be split. -/
inductive Mark where
  /-- A character of the word itself. -/
  | glyph (c : Char) (isQuoted : Bool)
  /-- A character of something put in place. -/
  | soft (c : Char)
  /-- The boundary between two fields. -/
  | cut
  /-- A quoted part, which makes a field even if it is empty. -/
  | blank
  deriving DecidableEq, Repr

/-- Fields on the way, the last one and the last characters first. -/
structure Splitting where
  current : List Glyph := []
  started : Bool := false
  /-- White separators have closed the last field. -/
  afterWhite : Bool := false
  fields : List (List Glyph) := []

namespace Splitting

/-- Closes the present field. -/
def close (s : Splitting) (byWhite : Bool) : Splitting :=
  { current := [], started := false, afterWhite := byWhite, fields := s.current.reverse :: s.fields }

/-- Adds a character to the present field. -/
def add (s : Splitting) (g : Glyph) : Splitting :=
  { s with current := g :: s.current, started := true, afterWhite := false }

/-- Takes the next mark. -/
def step (separators : List Char) (s : Splitting) : Mark → Splitting
  | .glyph c isQuoted => s.add (c, isQuoted)
  | .blank => { s with started := true, afterWhite := false }
  | .cut => if s.started then s.close false else s
  | .soft c =>
    if !separators.contains c then s.add (c, false)
    else if c == ' ' || c == '\t' || c == '\n' then if s.started then s.close true else s
    else if s.afterWhite then { s with afterWhite := false }
    else s.close false

end Splitting

/-- The fields of a word. -/
def splitFields (separators : List Char) (marks : List Mark) : List (List Glyph) :=
  let s := marks.foldl (Splitting.step separators) {}
  (if s.started then s.close false else s).fields.reverse

/-- The text of a word that is not split. -/
def joinMarks (marks : List Mark) : String :=
  String.ofList <| marks.filterMap fun
    | .glyph c _ => some c
    | .soft c => some c
    | .cut => some ' '
    | .blank => none

/-- The characters of a word as a pattern; what is put in place counts as not quoted. -/
def patternGlyphs (marks : List Mark) : List Glyph :=
  marks.filterMap fun
    | .glyph c isQuoted => some (c, isQuoted)
    | .soft c => some (c, false)
    | _ => none

/-- The marks of a text that is put in place. -/
def placed (isQuoted : Bool) (text : String) : List Mark :=
  if isQuoted then .blank :: text.toList.map fun c => .glyph c true else text.toList.map .soft

/-- Marks of a word as they are put in place. -/
def soften : Mark → Mark
  | .glyph c false => .soft c
  | m => m

end Runbook.Shell

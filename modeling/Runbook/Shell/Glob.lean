import Runbook.Files.Disk

/-!
# Shell patterns

A pattern stands for the texts that match it as a whole: `*` matches any text, `?` any character, and
brackets one of several characters. A quoted sign stands for itself.
-/

set_option autoImplicit false

namespace Runbook.Shell

/-- A character and whether it is quoted. -/
abbrev Glyph := Char × Bool

/-- A part of a pattern. -/
inductive PatternPart where
  | exactly (c : Char)
  | anyChar
  | anyText
  | oneOf (negated : Bool) (ranges : List (Char × Char))
  deriving DecidableEq, Repr

/-- The characters of a named class. -/
def classRanges : String → List (Char × Char)
  | "alpha" => [('a', 'z'), ('A', 'Z')]
  | "digit" => [('0', '9')]
  | "alnum" => [('a', 'z'), ('A', 'Z'), ('0', '9')]
  | "upper" => [('A', 'Z')]
  | "lower" => [('a', 'z')]
  | "space" => [('\t', '\r'), (' ', ' ')]
  | "blank" => [('\t', '\t'), (' ', ' ')]
  | "punct" => [('!', '/'), (':', '@'), ('[', '`'), ('\x7b', '~')]
  | "xdigit" => [('a', 'f'), ('A', 'F'), ('0', '9')]
  | "print" => [(' ', '~')]
  | "graph" => [('!', '~')]
  | "cntrl" => [('\x00', '\x1f'), ('\x7f', '\x7f')]
  | _ => []

/-- The name of the class at the start of a text behind `[:`, and its length with the end. -/
def className? (text : List Glyph) : Option (String × Nat) :=
  let name := (text.takeWhile fun g => g.1.isAlpha).map (·.1)
  match text.drop name.length with
  | (':', _) :: (']', _) :: _ => some (String.ofList name, name.length + 2)
  | _ => none

/-- The ranges of a bracket up to its end, and what stands behind it; `fuel` bounds the length. -/
def bracketRanges : Nat → Bool → List Glyph → Option (List (Char × Char) × List Glyph)
  | 0, _, _ => none
  | fuel + 1, isFirst, text =>
    match text with
    | [] => none
    | (']', false) :: rest =>
      if isFirst then (bracketRanges fuel false rest).map fun (rs, t) => ((']', ']') :: rs, t)
      else some ([], rest)
    | ('[', false) :: (':', false) :: rest =>
      match className? rest with
      | some (name, n) =>
        (bracketRanges fuel false (rest.drop n)).map fun (rs, t) => (classRanges name ++ rs, t)
      | none =>
        (bracketRanges fuel false ((':', false) :: rest)).map fun (rs, t) => (('[', '[') :: rs, t)
    | (a, _) :: ('-', false) :: (b, q) :: rest =>
      if b == ']' && !q then
        (bracketRanges fuel false (('-', true) :: (b, q) :: rest)).map fun (rs, t) =>
          ((a, a) :: rs, t)
      else (bracketRanges fuel false rest).map fun (rs, t) => ((a, b) :: rs, t)
    | (a, _) :: rest => (bracketRanges fuel false rest).map fun (rs, t) => ((a, a) :: rs, t)

/-- The parts of a pattern; `fuel` bounds their number. -/
def patternFrom : Nat → List Glyph → List PatternPart
  | 0, _ => []
  | fuel + 1, text =>
    match text with
    | [] => []
    | ('*', false) :: rest => .anyText :: patternFrom fuel rest
    | ('?', false) :: rest => .anyChar :: patternFrom fuel rest
    | ('[', false) :: rest =>
      let (negated, inner) := match rest with
        | ('!', false) :: inner => (true, inner)
        | ('^', false) :: inner => (true, inner)
        | _ => (false, rest)
      match bracketRanges (inner.length + 1) true inner with
      | some (ranges, rest) => .oneOf negated ranges :: patternFrom fuel rest
      | none => .exactly '[' :: patternFrom fuel rest
    | (c, _) :: rest => .exactly c :: patternFrom fuel rest

/-- The parts of a pattern. -/
def readPattern (text : List Glyph) : List PatternPart := patternFrom text.length text

/-- Whether a text matches a pattern as a whole. -/
def patternMatches : List PatternPart → List Char → Bool
  | [], text => text.isEmpty
  | .exactly d :: rest, text => match text with
    | c :: cs => c == d && patternMatches rest cs
    | [] => false
  | .anyChar :: rest, text => match text with
    | _ :: cs => patternMatches rest cs
    | [] => false
  | .oneOf negated ranges :: rest, text => match text with
    | c :: cs => ((ranges.any fun (a, b) => a ≤ c && c ≤ b) != negated) && patternMatches rest cs
    | [] => false
  | .anyText :: rest, text => (List.range (text.length + 1)).any fun n =>
      patternMatches rest (text.drop n)

/-- The lengths to try, the longest or the shortest first. -/
def lengths (longest : Bool) (n : Nat) : List Nat :=
  let all := List.range (n + 1)
  if longest then all.reverse else all

/-- A text without a matching start. -/
def cutStart (pattern : List PatternPart) (longest : Bool) (text : List Char) : List Char :=
  match (lengths longest text.length).find? fun n => patternMatches pattern (text.take n) with
  | some n => text.drop n
  | none => text

/-- A text without a matching end. -/
def cutEnd (pattern : List PatternPart) (longest : Bool) (text : List Char) : List Char :=
  match (lengths longest text.length).find? fun n =>
    patternMatches pattern (text.drop (text.length - n)) with
  | some n => text.take (text.length - n)
  | none => text

/-- Whether a field has signs that make it a pattern. -/
def isPattern (field : List Glyph) : Bool :=
  field.any fun (c, isQuoted) => !isQuoted && (c == '*' || c == '?' || c == '[')

/-- Splits a field at slashes. -/
def splitSlashes : List Glyph → List (List Glyph)
  | [] => [[]]
  | ('/', _) :: rest => [] :: splitSlashes rest
  | g :: rest =>
    match splitSlashes rest with
    | [] => [[g]]
    | part :: parts => (g :: part) :: parts

/-- The paths below a folder that match a list of parts; `shown` is the text of the path so far. -/
def matchingPaths (disk : Files.Disk) (at_ : Path) (shown : String) : List (List Glyph) → List String
  | [] => [shown]
  | part :: rest =>
    let slash := if rest.isEmpty then "" else "/"
    if !isPattern part then
      let name := String.ofList (part.map (·.1))
      let there := at_.child name
      if name == "" then matchingPaths disk at_ (shown ++ slash) rest
      else if disk.has there then matchingPaths disk there (shown ++ name ++ slash) rest
      else []
    else
      let pattern := readPattern part
      let isHiddenWanted := (part.head?.map (·.1)) == some '.'
      let names := match disk.names at_ with
        | .ok names => names
        | .error _ => []
      let hits := names.filter fun name =>
        patternMatches pattern name.toList && (isHiddenWanted || !name.startsWith ".") &&
          (rest.isEmpty || disk.isFolder (at_.child name))
      hits.flatMap fun name =>
        matchingPaths disk (at_.child name) (shown ++ name ++ slash) rest

/-- The paths that a field stands for: itself if it is no pattern or nothing matches. -/
def expandPaths (disk : Files.Disk) (folder : Path) (field : List Glyph) : List String :=
  let plain := String.ofList (field.map (·.1))
  if !isPattern field then [plain]
  else
    let start := if field.head?.map (·.1) == some '/' then ⟨"/", []⟩ else folder
    match matchingPaths disk start "" (splitSlashes field) with
    | [] => [plain]
    | paths => paths

end Runbook.Shell

import Runbook.Text.Lines

/-!
# Paths

A path is a list of names, below the root or below wherever one stands. Reading a path drops empty
names and names that are a single point; `..` is kept as it is. The last name may have a suffix, which
begins at its last point unless the point is the first or the last character.
-/

set_option autoImplicit false

namespace Runbook

/-- A path: the slashes in front, and the names. -/
structure Path where
  root : String := ""
  names : List String := []
  deriving DecidableEq, Repr, Inhabited

namespace Path

/-- Splits at every occurrence of a character. -/
def splitAt (mark : Char) : List Char → List (List Char)
  | [] => [[]]
  | c :: rest =>
    if c == mark then [] :: splitAt mark rest
    else
      match splitAt mark rest with
      | [] => [[c]]
      | part :: parts => (c :: part) :: parts

/-- The slashes that remain of those in front: two stay two, more become one. -/
def rootOf (cs : List Char) : String :=
  match cs.takeWhile (· == '/') with
  | [] => ""
  | ['/', '/'] => "//"
  | _ => "/"

/-- Reads a path. -/
def ofString (s : String) : Path :=
  let names := (splitAt '/' s.toList).filter fun part => !part.isEmpty && part != ['.']
  ⟨rootOf s.toList, names.map String.ofList⟩

/-- The text of a path; a point for one without root and names. -/
def text (p : Path) : String :=
  if p.root == "" && p.names.isEmpty then "." else p.root ++ "/".intercalate p.names

/-- The path of another one as seen from this one. -/
def join (p q : Path) : Path := if q.root == "" then ⟨p.root, p.names ++ q.names⟩ else q

/-- The path of something with the given name below this one. -/
def child (p : Path) (name : String) : Path := p.join (ofString name)

/-- The path that this one is directly below; the topmost is its own. -/
def parent (p : Path) : Path := ⟨p.root, p.names.dropLast⟩

/-- The last name. -/
def name (p : Path) : String := p.names.getLast?.getD ""

/-- A name in two parts, the second one its suffix with the point. -/
def splitSuffix (name : List Char) : List Char × List Char :=
  let tail := (name.reverse.takeWhile (· != '.')).reverse
  let stem := name.take (name.length - tail.length - 1)
  if tail.isEmpty || stem.isEmpty || tail.length == name.length then (name, [])
  else (stem, '.' :: tail)

/-- The suffix of the last name. -/
def suffix (p : Path) : String := String.ofList (splitSuffix p.name.toList).2

/-- The last name without its suffix. -/
def stem (p : Path) : String := String.ofList (splitSuffix p.name.toList).1

/-- Takes away the names before `..`. -/
def resolveNames : List String → List String → List String
  | above, [] => above.reverse
  | above, name :: rest =>
    if name == ".." then resolveNames (above.drop 1) rest else resolveNames (name :: above) rest

/-- The path without `..`. -/
def resolve (p : Path) : Path := ⟨p.root, resolveNames [] p.names⟩

end Path

end Runbook

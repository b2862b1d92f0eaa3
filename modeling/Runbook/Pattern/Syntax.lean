/-!
# The syntax of search patterns

A pattern is a tree: characters and sets of characters, places, groups, repetitions, alternatives,
references to what a group matched, and looks ahead and behind. Flags change the meaning of parts of
the tree; a group carries those that it turns on and off.
-/

set_option autoImplicit false

namespace Runbook.Pattern

/-- The flags of a pattern. -/
structure Flags where
  ignoreCase : Bool := false
  multiline : Bool := false
  dotAll : Bool := false
  verbose : Bool := false
  ascii : Bool := false
  unicode : Bool := false
  template : Bool := false
  deriving DecidableEq, Repr, Inhabited

/-- Whether no flag is set. -/
def Flags.isEmpty (f : Flags) : Bool := f == {}

/-- The flags of either. -/
def Flags.union (f g : Flags) : Flags :=
  ⟨f.ignoreCase || g.ignoreCase, f.multiline || g.multiline, f.dotAll || g.dotAll,
    f.verbose || g.verbose, f.ascii || g.ascii, f.unicode || g.unicode, f.template || g.template⟩

/-- The flags of the first without those of the second. -/
def Flags.diff (f g : Flags) : Flags :=
  ⟨f.ignoreCase && !g.ignoreCase, f.multiline && !g.multiline, f.dotAll && !g.dotAll,
    f.verbose && !g.verbose, f.ascii && !g.ascii, f.unicode && !g.unicode,
    f.template && !g.template⟩

/-- Whether the two have a flag in common. -/
def Flags.meets (f g : Flags) : Bool :=
  (f.ignoreCase && g.ignoreCase) || (f.multiline && g.multiline) || (f.dotAll && g.dotAll) ||
    (f.verbose && g.verbose) || (f.ascii && g.ascii) || (f.unicode && g.unicode) ||
    (f.template && g.template)

/-- The flags inside a group that turns some on and some off. -/
def Flags.scoped (flags add del : Flags) : Flags :=
  let flags := if add.ascii || add.unicode then { flags with ascii := false, unicode := false }
    else flags
  (flags.union add).diff del

/-- Classes of characters. -/
inductive CharClass where
  | digit
  | space
  | word
  deriving DecidableEq, Repr

/-- A member of a set of characters. -/
inductive SetItem where
  | char (c : Char)
  | range (first last : Char)
  | ofClass (c : CharClass) (negated : Bool)
  deriving DecidableEq, Repr

/-- Something that matches exactly one character. -/
inductive CharTest where
  | char (c : Char) (negated : Bool)
  | any
  | set (items : List SetItem) (negated : Bool)
  deriving DecidableEq, Repr

/-- A place between characters. -/
inductive Anchor where
  | lineStart
  | lineEnd
  | textStart
  | textEnd
  | boundary
  | noBoundary
  deriving DecidableEq, Repr

/-- How a repetition chooses its count: as high as possible, as low as possible, or as high as
possible without a second choice. -/
inductive Greed where
  | greedy
  | lazy
  | possessive
  deriving DecidableEq, Repr

/-- A pattern. -/
inductive Node where
  | empty
  | one (test : CharTest)
  | place (anchor : Anchor)
  | seq (first second : Node)
  | alt (first second : Node)
  | group (index : Option Nat) (add del : Flags) (body : Node)
  | atomic (body : Node)
  | repeated (greed : Greed) (min : Nat) (max : Option Nat) (body : Node)
  | backref (index : Nat) (low high : Nat)
  | conditional (index : Nat) (yes no : Node)
  | look (ahead negated : Bool) (body : Node)
  deriving Repr, Inhabited

/-- An upper limit on the widths that are told apart. -/
def maxWidth : Nat := Nat.pow 2 64

/-- The least and the greatest number of characters that a pattern can match. -/
def Node.width : Node → Nat × Nat
  | .empty => (0, 0)
  | .one _ => (1, 1)
  | .place _ => (0, 0)
  | .seq a b =>
    let (l, h) := a.width
    let (l', h') := b.width
    (min (l + l') maxWidth, min (h + h') maxWidth)
  | .alt a b =>
    let (l, h) := a.width
    let (l', h') := b.width
    (min l l', max h h')
  | .group _ _ _ body => body.width
  | .atomic body => body.width
  | .repeated _ least most body =>
    let (l, h) := body.width
    let high := match most with
      | some m => h * m
      | none => if h == 0 then 0 else maxWidth
    (min (l * least) maxWidth, min high maxWidth)
  | .backref _ low high => (low, high)
  | .conditional _ yes no =>
    let (l, h) := yes.width
    let (l', h') := no.width
    (min l l', max h h')
  | .look .. => (0, 0)

/-- How deep a pattern nests. A group without number and flags is no level of its own, and alternatives
beside each other are one level. -/
def Node.nesting : Node → Nat
  | .seq a b => max a.nesting b.nesting
  | .alt a b =>
    let rest := match b with
      | .alt .. => b.nesting
      | _ => b.nesting + 1
    max (a.nesting + 1) rest
  | .group none add del body => if add.isEmpty && del.isEmpty then body.nesting else body.nesting + 1
  | .group (some _) _ _ body => body.nesting + 1
  | .atomic body => body.nesting + 1
  | .repeated _ _ _ body => body.nesting + 1
  | .conditional _ yes no => max yes.nesting no.nesting + 1
  | .look _ _ body => body.nesting + 1
  | _ => 0

/-- The sequence of some patterns. -/
def Node.ofList : List Node → Node
  | [] => .empty
  | [n] => n
  | n :: rest => .seq n (ofList rest)

/-- The alternatives of some patterns. -/
def Node.anyOf : List Node → Node
  | [] => .empty
  | [n] => n
  | n :: rest => .alt n (anyOf rest)

end Runbook.Pattern

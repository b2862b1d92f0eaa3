import Runbook.Pattern.Fold
import Runbook.Pattern.Reader
import Runbook.Text.Blank

/-!
# Matching search patterns

`matchFrom` looks for the first way to match a pattern at a place, in the order in which the pattern
lists its choices, such that the rest of the pattern, given as a function of what was matched, also
matches. `Program.search` tries all places of a text from left to right.

The fuel of `matchFrom` bounds nesting and repetition together. `Node.depth` is enough of it: an
optional round of a repetition that consumes nothing is the last one, so there are at most as many
rounds as the least count and the length of the text together.
-/

set_option autoImplicit false

namespace Runbook.Pattern

/-! ## Single characters -/

/-- Whether a character belongs to a class. -/
def CharClass.holds (ascii : Bool) (c : Char) : CharClass → Bool
  | .digit => if ascii then c.isDigit else Text.isDigit c
  | .space => if ascii then isLayout c else Text.isBlank c
  | .word => if ascii then c == '_' || c.isAlphanum else Text.isWord c

/-- The small letter under the given flags. -/
def smallLetter (ascii : Bool) (c : Char) : Char :=
  if ascii then asciiLower c else Text.lowerChar c

/-- Whether a character has another case under the given flags. -/
def hasCase (ascii : Bool) (c : Char) : Bool :=
  if ascii then c.isAlpha else Text.lowerChar c != c || Text.upperSequence c != [c]

/-- The characters that count as the given one when case does not matter. -/
def sameLetters (ascii : Bool) (c : Char) : List Char :=
  let small := smallLetter ascii c
  if ascii then [small, small.toUpper] else caseMates small

/-- Whether a character of the text is the one that a pattern names. -/
def sameChar (flags : Flags) (named c : Char) : Bool :=
  if !flags.ignoreCase || !hasCase flags.ascii named then named == c
  else
    let small := smallLetter flags.ascii named
    let own := smallLetter flags.ascii c
    own == small || (!flags.ascii && (variants small).contains own)

/-- Whether a character belongs to a member of a set, case counting. -/
def SetItem.holds (ascii : Bool) (c : Char) : SetItem → Bool
  | .char named => named == c
  | .range first last => first ≤ c && c ≤ last
  | .ofClass cls negated => cls.holds ascii c != negated

/-- Whether a character passes a test. -/
def CharTest.holds (flags : Flags) (c : Char) : CharTest → Bool
  | .char named negated => sameChar flags named c != negated
  | .any => flags.dotAll || c != '\n'
  | .set items negated =>
    let own := fun item => SetItem.holds flags.ascii c item
    let mates := fun item => match item with
      | .ofClass .. => own item
      | _ => (sameLetters flags.ascii c).any fun mate => SetItem.holds flags.ascii mate item
    (if flags.ignoreCase then items.any fun item => own item || mates item
      else items.any own) != negated

/-! ## Places -/

/-- Whether the character at a place is part of a word. -/
def wordAt (ascii : Bool) (text : Array Char) (place : Nat) : Bool :=
  match text[place]? with
  | some c => CharClass.word.holds ascii c
  | none => false

/-- Whether a word begins or ends at a place. -/
def isBoundary (ascii : Bool) (text : Array Char) (place : Nat) : Bool :=
  (0 < place && wordAt ascii text (place - 1)) != wordAt ascii text place

/-- Whether a place is the one that the anchor names. An empty text has neither boundaries nor
places that are none. -/
def Anchor.holds (flags : Flags) (text : Array Char) (place : Nat) : Anchor → Bool
  | .textStart => place == 0
  | .lineStart => place == 0 || (flags.multiline && text[place - 1]? == some '\n')
  | .textEnd => place == text.size
  | .lineEnd => place == text.size ||
      (text[place]? == some '\n' && (flags.multiline || place + 1 == text.size))
  | .boundary => !text.isEmpty && isBoundary flags.ascii text place
  | .noBoundary => !text.isEmpty && !isBoundary flags.ascii text place

/-! ## Patterns -/

/-- How far a match has come: the place, and where each group last began and ended. -/
structure Progress where
  place : Nat
  starts : List (Nat × Nat) := []
  ends : List (Nat × Nat) := []
  deriving DecidableEq, Repr

/-- Where a group stands, if it has matched. -/
def Progress.span? (p : Progress) (index : Nat) : Option (Nat × Nat) := do
  let first ← p.starts.lookup index
  let last ← p.ends.lookup index
  if first ≤ last then some (first, last) else none

/-- How many characters from a place on pass a test, at most `most`. -/
def runLength (flags : Flags) (text : Array Char) (test : CharTest) (place most : Nat) : Nat :=
  match most with
  | 0 => 0
  | most + 1 =>
    match text[place]? with
    | some c => if test.holds flags c then runLength flags text test (place + 1) most + 1 else 0
    | none => 0

/-- The first of the counts from `most` down to `least` for which the rest matches. -/
def tryDown {α : Type} (rest : Nat → Option α) (least most : Nat) : Option α :=
  if least > most then none
  else
    match rest most with
    | some result => some result
    | none =>
      match most with
      | 0 => none
      | most + 1 => tryDown rest least most

/-- The first of `tries` counts from `least` up for which the rest matches. -/
def tryUp {α : Type} (rest : Nat → Option α) (least : Nat) : Nat → Option α
  | 0 => none
  | tries + 1 =>
    match rest least with
    | some result => some result
    | none => tryUp rest (least + 1) tries

/-- The test of a pattern that matches exactly one character, whatever the flags. -/
def Node.unit? : Node → Option CharTest
  | .one test => some test
  | .group none add del body => if add == {} && del == {} then body.unit? else none
  | _ => none

/-- Whether the text repeats at a place what stands between two others. -/
def repeatsAt (flags : Flags) (text : Array Char) (first place : Nat) : Nat → Bool
  | 0 => true
  | size + 1 =>
    match text[first]?, text[place]? with
    | some a, some b =>
      (if flags.ignoreCase then smallLetter flags.ascii a == smallLetter flags.ascii b
        else a == b) && repeatsAt flags text (first + 1) (place + 1) size
    | _, _ => false

/-- The first way to match a pattern such that the rest matches too. `barred` is the place at which
a repetition may not begin another optional round. -/
def matchFrom (text : Array Char) (fuel : Nat) (flags : Flags) (node : Node) (barred : Option Nat)
    (p : Progress) (rest : Progress → Option Progress) : Option Progress :=
  match fuel with
  | 0 => none
  | fuel + 1 =>
    match node with
    | .empty => rest p
    | .one test =>
      match text[p.place]? with
      | some c => if test.holds flags c then rest { p with place := p.place + 1 } else none
      | none => none
    | .place anchor => if anchor.holds flags text p.place then rest p else none
    | .seq first second =>
      matchFrom text fuel flags first none p fun p => matchFrom text fuel flags second none p rest
    | .alt first second =>
      match matchFrom text fuel flags first none p rest with
      | some p => some p
      | none => matchFrom text fuel flags second none p rest
    | .group none add del body => matchFrom text fuel (flags.scoped add del) body none p rest
    | .group (some index) add del body =>
      matchFrom text fuel (flags.scoped add del) body none
        { p with starts := (index, p.place) :: p.starts }
        fun p => rest { p with ends := (index, p.place) :: p.ends }
    | .atomic body =>
      match matchFrom text fuel flags body none p some with
      | some p => rest p
      | none => none
    | .backref index _ _ =>
      match p.span? index with
      | some (first, last) =>
        if repeatsAt flags text first p.place (last - first) then
          rest { p with place := p.place + (last - first) }
        else none
      | none => none
    | .conditional index yes no =>
      matchFrom text fuel flags (if (p.span? index).isSome then yes else no) none p rest
    | .look ahead negated body =>
      let (width, _) := body.width
      let found := if ahead then matchFrom text fuel flags body none p some
        else if width > p.place then none
        else matchFrom text fuel flags body none { p with place := p.place - width } some
      match found, negated with
      | some after, false => rest { after with place := p.place }
      | none, true => rest p
      | _, _ => none
    | .repeated greed least most body =>
      match body.unit? with
      | some test =>
        let left := text.size - p.place
        let longest := runLength flags text test p.place
          (match most with
            | some most => min most left
            | none => left)
        let after := fun count => rest { p with place := p.place + count }
        match greed with
        | .greedy => tryDown after least longest
        | .lazy => tryUp after least (longest + 1 - least)
        | .possessive => if least ≤ longest then after longest else none
      | none =>
        let fewer : Node := .repeated greed (least - 1) (most.map (· - 1)) body
        if 0 < least then
          match greed with
          | .possessive =>
            match matchFrom text fuel flags body none p some with
            | some p => matchFrom text fuel flags fewer none p rest
            | none => none
          | _ =>
            matchFrom text fuel flags body none p fun p =>
              matchFrom text fuel flags fewer barred p rest
        else if most == some 0 || barred == some p.place then rest p
        else
          let again := fun after => matchFrom text fuel flags fewer (some p.place) after rest
          match greed with
          | .greedy =>
            match matchFrom text fuel flags body none p again with
            | some p => some p
            | none => rest p
          | .lazy =>
            match rest p with
            | some p => some p
            | none => matchFrom text fuel flags body none p again
          | .possessive =>
            match matchFrom text fuel flags body none p some with
            | some after => again after
            | none => rest p

/-- Fuel that is enough to match a pattern in a text of the given length. -/
def Node.depth (size : Nat) : Node → Nat
  | .seq a b => max (a.depth size) (b.depth size) + 1
  | .alt a b => max (a.depth size) (b.depth size) + 1
  | .group _ _ _ body => body.depth size + 1
  | .atomic body => body.depth size + 1
  | .repeated _ least _ body => body.depth size + least + size + 3
  | .conditional _ yes no => max (yes.depth size) (no.depth size) + 1
  | .look _ _ body => body.depth size + 1
  | _ => 1

/-- The first of `tries` places from `place` on at which the pattern matches. -/
def Program.searchFrom (p : Program) (text : Array Char) (fuel place : Nat) : Nat → Bool
  | 0 => false
  | tries + 1 =>
    match matchFrom text fuel p.flags p.node none { place := place } some with
    | some _ => true
    | none => p.searchFrom text fuel (place + 1) tries

/-- Whether the pattern matches somewhere in the text. -/
def Program.search (p : Program) (text : String) : Bool :=
  let cs := text.toList.toArray
  p.searchFrom cs (p.node.depth cs.size) 0 (cs.size + 1)

end Runbook.Pattern

/-!
# Shell scripts

The commands of a shell as they stand in a script. A word is a list of pieces: text, and the values,
sums and outputs that are put in its place. What is quoted is neither split into fields nor matched
against file names.
-/

set_option autoImplicit false

namespace Runbook.Shell

/-- What a modified value gives, or how it is cut. -/
inductive Modifier where
  /-- A word in place of a missing value. -/
  | default
  /-- A word in place of a missing value, which becomes the value. -/
  | assign
  /-- An error if the value is missing. -/
  | complain
  /-- A word in place of a value that is there. -/
  | alternative
  /-- The value without the shortest or longest matching end. -/
  | cutEnd (longest : Bool)
  /-- The value without the shortest or longest matching start. -/
  | cutStart (longest : Bool)
  deriving DecidableEq, Repr

/-- What a redirection does with a file descriptor. -/
inductive Redirect where
  | read
  | write
  | append
  | readWrite
  | duplicate
  /-- The word is the text that is read. -/
  | text
  deriving DecidableEq, Repr

mutual

/-- A part of a word. -/
inductive Piece where
  | text (s : String) (isQuoted : Bool)
  | value (name : String) (isQuoted : Bool)
  | modified (name : String) (orEmpty : Bool) (how : Modifier) (word : List Piece)
      (isQuoted : Bool)
  | length (name : String)
  | sum (word : List Piece) (isQuoted : Bool)
  | output (body : Command) (isQuoted : Bool)
  /-- Braces that hold no parameter. -/
  | unusable

/-- A redirection of a file descriptor. -/
inductive Redirection where
  | mk (descriptor : Nat) (what : Redirect) (word : List Piece)

/-- A command. -/
inductive Command where
  | simple (line : Nat) (assignments : List (String × List Piece)) (words : List (List Piece))
      (redirections : List Redirection)
  | pipeline (parts : List Command)
  | negated (body : Command)
  | both (first second : Command)
  | either (first second : Command)
  | sequence (parts : List Command)
  | background (body : Command)
  | subshell (body : Command)
  | redirected (body : Command) (redirections : List Redirection)
  | branch (condition whenTrue whenFalse : Command)
  | loop (isUntil : Bool) (condition body : Command)
  | each (name : String) (words : Option (List (List Piece))) (body : Command)
  | choose (line : Nat) (word : List Piece) (arms : List (List (List Piece) × Command))
  | define (name : String) (body : Command)

end

/-- A word. -/
abbrev Word := List Piece

/-- What is wrong with the text of a script. -/
inductive Flaw where
  | unexpected (found : String) (expecting : Option String)
  | unterminatedQuote
  | missingParentheses
  | missingBackquote
  | missingBrace
  | badLoopVariable
  | badFunctionName
  | badDescriptor
  | tooDeep
  deriving DecidableEq, Repr

/-- The message for a flaw. -/
def Flaw.message : Flaw → String
  | unexpected found none => s!"{found} unexpected"
  | unexpected found (some expecting) => s!"{found} unexpected (expecting {expecting})"
  | unterminatedQuote => "Unterminated quoted string"
  | missingParentheses => "Missing '))'"
  | missingBackquote => "EOF in backquote substitution"
  | missingBrace => "Missing '\x7d'"
  | badLoopVariable => "Bad for loop variable"
  | badFunctionName => "Bad function name"
  | badDescriptor => "Bad fd number"
  | tooDeep => "Nested too deeply"

/-- A flaw and the line on which it was found. -/
structure Misplaced where
  line : Nat
  flaw : Flaw
  deriving DecidableEq, Repr

/-- A script: its lines, each of which is run before the next is read, and the flaw behind them. -/
structure Script where
  lines : List Command
  flaw : Option Misplaced := none

end Runbook.Shell

/-!
# Lines of a text

A line feed, a carriage return, and the two together each end a line. `normalizeNewlines` turns
every line end into one line feed; `splitLines` gives the lines of a text, the last one also when
no line end follows it.
-/

set_option autoImplicit false

namespace Runbook.Text

/-- Turns every line end into one line feed. -/
def normalizeNewlines : List Char → List Char
  | [] => []
  | '\r' :: '\n' :: rest => '\n' :: normalizeNewlines rest
  | '\r' :: rest => '\n' :: normalizeNewlines rest
  | c :: rest => c :: normalizeNewlines rest

/-- Splits at line feeds; `current` holds the open line in reverse. -/
def splitFeedsFrom (current : List Char) : List Char → List (List Char)
  | [] => if current.isEmpty then [] else [current.reverse]
  | '\n' :: rest => current.reverse :: splitFeedsFrom [] rest
  | c :: rest => splitFeedsFrom (c :: current) rest

/-- The lines of a text whose line ends are line feeds. -/
def splitFeeds (cs : List Char) : List (List Char) := splitFeedsFrom [] cs

/-- The lines of a text, whatever its line ends. -/
def splitLines (cs : List Char) : List (List Char) := splitFeeds (normalizeNewlines cs)

end Runbook.Text

/-!
# Log streams

A stream carries lines from one writer to any number of readers. Closing it puts a mark behind the
last line; a reader that takes the mark puts it back for the others. Taking and putting back are
separate, so that other readers and writers may come in between.
-/

set_option autoImplicit false

namespace Runbook.Run

/-- What waits in a stream: a line, or the mark of its end. -/
inductive Item where
  | line (text : String)
  | endMark
  deriving DecidableEq, Repr

/-- A stream of lines. -/
structure Stream where
  waiting : List Item := []
  closed : Bool := false
  deriving DecidableEq, Repr

namespace Stream

/-- Puts a line behind the others; a closed stream takes none. -/
def put (s : Stream) (text : String) : Option Stream :=
  if s.closed then none else some { s with waiting := s.waiting ++ [.line text] }

/-- Closes the stream, and says whether it was open. -/
def close (s : Stream) : Stream × Bool :=
  if s.closed then (s, false) else (⟨s.waiting ++ [.endMark], true⟩, true)

/-- Takes what comes first, if anything waits. -/
def take (s : Stream) : Option (Item × Stream) :=
  match s.waiting with
  | [] => none
  | item :: rest => some (item, { s with waiting := rest })

/-- Puts a taken mark back. -/
def giveBack (s : Stream) : Stream := { s with waiting := s.waiting ++ [.endMark] }

/-- What reading a stream comes to. -/
inductive Reading where
  | line (text : String)
  | ended
  | nothingYet
  deriving DecidableEq, Repr

/-- Takes a line, or finds that the stream has ended. -/
def get (s : Stream) : Reading × Stream :=
  match s.take with
  | some (.line text, s) => (.line text, s)
  | some (.endMark, s) => (.ended, s.giveBack)
  | none => (.nothingYet, s)

/-- The lines that wait in front of the mark. -/
def lines : List Item → List String
  | .line text :: rest => text :: lines rest
  | _ => []

/-- Takes all lines that wait. -/
def drain (s : Stream) : List String × Stream :=
  (lines s.waiting, { s with waiting := s.waiting.drop (lines s.waiting).length })

end Stream

end Runbook.Run

import Runbook.Journal.Record
import Runbook.Text.Case

/-!
# Setting up the journal

The journal has a level below which records are dropped, and sinks that lines go to. Setting it up
removes the sinks that are there, puts a new one in place, and looks at the level's name afterwards, so
that an unknown level leaves the new sink with the old level.
-/

set_option autoImplicit false

namespace Runbook.Journal

/-- How lines are written. -/
inductive Format where
  | json
  | text
  deriving DecidableEq, Repr, Inhabited

/-- The word for a format. -/
def Format.name : Format → String
  | json => "json"
  | text => "text"

/-- The format that a word names; any word but `text` names JSON. -/
def Format.ofName (name : String) : Format := if name == "text" then .text else .json

/-- A sink. Two sinks are the same only if they were made as one, whatever their format; a sink that
others put there has a format of theirs. -/
structure Sink where
  number : Nat
  format : Option Format
  deriving DecidableEq, Repr

/-- The state of the journal. -/
structure Setup where
  level : Int := 30
  /-- The sinks in place, the one that came first in front. -/
  sinks : List Sink := []
  /-- How many sinks were made. -/
  made : Nat := 0
  deriving DecidableEq, Repr

/-- A level that has no such name. -/
structure UnknownLevel where
  name : String
  deriving DecidableEq, Repr

/-- The message for an unknown level. -/
def UnknownLevel.message (e : UnknownLevel) : String := s!"Unknown level: {Text.quoted e.name}"

/-- The levels that can be named in a setup. -/
def namedLevels : List (String × Int) :=
  [("CRITICAL", 50), ("FATAL", 50), ("ERROR", 40), ("WARN", 30), ("WARNING", 30), ("INFO", 20),
    ("DEBUG", 10), ("NOTSET", 0)]

/-- Removes one sink after the other, as they were at the start. -/
def Setup.clear (s : Setup) : Setup := { s with sinks := s.sinks.foldl List.erase s.sinks }

/-- Makes a sink of a format and puts it behind the others. -/
def Setup.add (s : Setup) (format : Format) : Setup :=
  { s with sinks := s.sinks ++ [⟨s.made, some format⟩], made := s.made + 1 }

/-- Sets up the journal with a sink of the given format and the level of the given name. -/
def Setup.configure (s : Setup) (level format : String) : Setup × Option UnknownLevel :=
  let s := s.clear.add (Format.ofName format)
  let name := Text.toUpper level
  match namedLevels.lookup name with
  | some number => ({ s with level := number }, none)
  | none => (s, some ⟨name⟩)

/-- Whether a record is written. -/
def Setup.keeps (s : Setup) (r : Record) : Bool := !s.sinks.isEmpty && s.level ≤ r.level

end Runbook.Journal

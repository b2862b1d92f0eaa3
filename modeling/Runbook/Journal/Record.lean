import Runbook.Journal.Percent
import Runbook.Timestamp.Printer

/-!
# Journal records

A record is what the program says about its own work: a level, the name of the part that speaks, a
message with arguments, named extra values and possibly an error. It is written as one line of JSON
or as one line of text, followed by the lines of the error.

Extra values are kept beside the record's own parts. The parts are guarded against extra values of
their names, but what the record can do is not: an extra value `getMessage` stands in front of the
function that finishes the message, and neither line can be written.
-/

set_option autoImplicit false

namespace Runbook.Journal

/-- A record. -/
structure Record where
  level : Int := 20
  logger : String
  message : String
  arguments : List Json := []
  extra : Assoc Json := []
  /-- The last line of an error's report. -/
  error : Option String := none
  deriving Repr

/-- The names of the levels. -/
def levelNames : List (Int × String) :=
  [(50, "CRITICAL"), (40, "ERROR"), (30, "WARNING"), (20, "INFO"), (10, "DEBUG"), (0, "NOTSET")]

/-- The name of a level; one without a name is shown by its number. -/
def levelName (level : Int) : String := (levelNames.lookup level).getD s!"Level {level}"

/-- The parts that every record has. -/
def recordParts : List String :=
  ["name", "msg", "args", "levelname", "levelno", "pathname", "filename", "module", "exc_info",
    "exc_text", "stack_info", "lineno", "funcName", "created", "msecs", "relativeCreated", "thread",
    "threadName", "processName", "process"]

/-- Names that an extra value may not have. -/
def forbiddenNames : List String := "message" :: "asctime" :: recordParts

/-- The first extra value that has a forbidden name. -/
def Record.forbidden? (r : Record) : Option String := r.extra.keys.find? forbiddenNames.contains

/-- The message for an extra value with a forbidden name. -/
def forbiddenMessage (name : String) : String :=
  Text.quoted s!"Attempt to overwrite {Text.quoted name} in LogRecord"

/-- Whether an extra value is written: it is neither a part of every record nor hidden. -/
def isShown (name : String) : Bool :=
  !("taskName" :: forbiddenNames).contains name && !name.startsWith "_"

/-- The extra values that are written. -/
def Record.shownExtra (r : Record) : Assoc Json := r.extra.filter fun (name, _) => isShown name

/-- The finished message, unless an extra value stands in front of the function that finishes it. -/
def Record.finishedMessage (r : Record) : Except Misfit String :=
  match r.extra.get? "getMessage" with
  | some value => .error (.notCallable (kindName value))
  | none => fill r.message r.arguments

/-- The fields of the JSON line of a record with a finished message. -/
def Record.fields (r : Record) (created : Timestamp) (message : String) : Assoc Json :=
  [("timestamp", .str created.printLog), ("level", .str (levelName r.level)),
    ("logger", .str r.logger), ("message", .str message)] ++
  (if r.shownExtra.isEmpty then [] else [("extra", .obj r.shownExtra)]) ++
  (match r.error with
    | some error => [("exception", .str error)]
    | none => [])

/-- The object of the JSON line. -/
def Record.toJson (r : Record) (created : Timestamp) : Except Misfit Json :=
  r.finishedMessage.map fun message => .obj (r.fields created message)

/-- The JSON line, with room for so many levels of calls. -/
def Record.lineWithin (r : Record) (room : Nat) (created : Timestamp) : Except Misfit String := do
  let value ← r.toJson created
  match value.excess? room with
  | some excess => throw (.unwritable excess)
  | none => return value.compact

/-- The JSON line. -/
def Record.jsonLine (r : Record) (created : Timestamp) : Except Misfit String :=
  r.lineWithin 950 created

/-- The text of a record behind its date. -/
def Record.textLine (r : Record) : Except Misfit String :=
  r.finishedMessage.map fun message =>
    s!"{r.logger} - {levelName r.level} - {message}" ++
      (match r.error with
        | some error => "\n" ++ error
        | none => "")

/-- The last line of the report of an error. -/
def errorLine (kind message : String) : String :=
  if message == "" then kind else s!"{kind}: {message}"

end Runbook.Journal

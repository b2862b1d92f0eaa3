import Runbook.Run.Dialogue
import Runbook.Text.Utf8

/-!
# Capturing what a command writes

A command writes bytes to its two streams at certain times. Each stream is cut into lines: a line ends
with a line feed, a carriage return or both together, and what is left at the end is a line too.
Bytes that are not UTF-8 are replaced. A line is known as soon as the bytes that end it are there;
a carriage return at the end of what was read so far may still be followed by its line feed.
-/

set_option autoImplicit false

namespace Runbook.Shell

open Run

/-- The lines that end within bytes, and what is left behind them. -/
def splitEnded (current : List UInt8) : List UInt8 → List (List UInt8) × List UInt8
  | [] => ([], current.reverse)
  | [0x0D] => ([], (0x0D :: current).reverse)
  | 0x0D :: 0x0A :: rest =>
    let (lines, left) := splitEnded [] rest
    (current.reverse :: lines, left)
  | b :: rest =>
    if b == 0x0D || b == 0x0A then
      let (lines, left) := splitEnded [] rest
      (current.reverse :: lines, left)
    else splitEnded (b :: current) rest

/-- The text of a line. -/
def lineText (bytes : List UInt8) : String := String.ofList (Text.Utf8.decodeLossy bytes)

/-- A stream that is being cut into lines: the bytes behind the last line. -/
structure Pump where
  pending : List UInt8 := []
  deriving DecidableEq, Repr

namespace Pump

/-- Takes bytes, and gives the lines that end with them. -/
def take (p : Pump) (bytes : List UInt8) : List String × Pump :=
  let (lines, pending) := splitEnded [] (p.pending ++ bytes)
  (lines.map lineText, ⟨pending⟩)

/-- The line that is left when the stream has ended. -/
def finish (p : Pump) : List String :=
  match p.pending, p.pending.getLast? with
  | [], _ => []
  | bytes, some 0x0D => [lineText bytes.dropLast]
  | bytes, _ => [lineText bytes]

end Pump

/-- Something that a command does. -/
inductive Deed where
  | wrote (source : Source) (bytes : List UInt8)
  | changed (change : Files.Disk → Files.Disk)

/-- What a command does, and when, in milliseconds from its start. -/
structure Performance where
  /-- The deeds in the order of their times. -/
  deeds : List (Nat × Deed)
  /-- When the shell itself has ended. -/
  ends : Nat
  exitCode : Int
  /-- When nothing holds the streams any more. -/
  released : Nat

/-- The two streams of a command. -/
structure Pumps where
  stdout : Pump := {}
  stderr : Pump := {}

/-- A process that first writes some lines. -/
def withLines (source : Source) (lines : List String) (rest : Process) : Process :=
  lines.foldr (.line source) rest

/-- The end of a process: what is left in the streams, and its exit code. -/
def Pumps.finish (p : Pumps) (exitCode : Int) (killed : Bool) : Process :=
  withLines .stdout p.stdout.finish <| withLines .stderr p.stderr.finish <| .ended exitCode killed

/-- The exit code of a process that was killed. -/
def killedCode : Int := -9

/-- The rest of a process at some time, if it is killed then. -/
def Performance.killedAt (p : Performance) (now : Nat) (pumps : Pumps) : Process :=
  pumps.finish (if now < p.ends then killedCode else p.exitCode) true

/-- The process from some time on, given what is still to be done. -/
def Performance.processFrom (p : Performance) (now : Nat) (pumps : Pumps) :
    List (Nat × Deed) → Process
  | [] =>
    let ending := pumps.finish p.exitCode false
    if now < p.released then
      .lasts (p.released - now) fun stopped => if stopped then p.killedAt now pumps else ending
    else ending
  | (time, deed) :: rest =>
    let going (now : Nat) : Process :=
      match deed with
      | .changed change => .writes change (p.processFrom now pumps rest)
      | .wrote .stdout bytes =>
        let (lines, pump) := pumps.stdout.take bytes
        withLines .stdout lines (p.processFrom now { pumps with stdout := pump } rest)
      | .wrote .stderr bytes =>
        let (lines, pump) := pumps.stderr.take bytes
        withLines .stderr lines (p.processFrom now { pumps with stderr := pump } rest)
    if now < time then
      .lasts (time - now) fun stopped => if stopped then p.killedAt now pumps else going time
    else going now

/-- The process that gives a performance. -/
def Performance.process (p : Performance) : Process := p.processFrom 0 {} p.deeds

end Runbook.Shell

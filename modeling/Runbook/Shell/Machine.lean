import Runbook.Shell.Capture
import Runbook.Shell.Glob
import Runbook.Shell.Script.Basic
import Runbook.Text.AnyBytes

/-!
# The machine that runs scripts

A machine is a shell and what lies outside it. The shell has variables, functions, channels and a
folder of its own, and a subshell works on a copy of them. Outside are the disk, a clock, and what has
been done so far.

Commands take no time except that of waiting. What runs beside the shell is worked out as soon as it
starts: what it writes is put down with the time at which it does so, and its changes of the disk
wait until the clock of the shell has come to their time.
-/

set_option autoImplicit false

namespace Runbook.Shell

/-- What a file descriptor stands for. -/
inductive Channel where
  /-- Bytes written here go to an outlet. -/
  | outlet (n : Nat)
  /-- Bytes written here are added to a file. -/
  | file (path : Path)
  /-- Bytes are read here from a supply. -/
  | supply (n : Nat)
  /-- Bytes written here are lost, and there are none to read. -/
  | nothing
  deriving DecidableEq, Repr

/-- The outlet of a command's standard output. -/
def outputOutlet : Nat := 1

/-- The outlet of a command's error output. -/
def errorOutlet : Nat := 2

/-- Bytes to be read, with the times at which they come, and the time after which none comes. -/
structure Supply where
  chunks : List (Nat × List UInt8)
  closes : Nat
  deriving Repr

/-- Something that was done. -/
inductive Effect where
  | wrote (outlet : Nat) (bytes : List UInt8)
  | changed (change : Files.Disk → Files.Disk)

/-- Something that was done, when, and within which job. -/
structure Done where
  time : Nat
  job : Nat
  effect : Effect

/-- A job in the background. -/
structure Job where
  id : Nat
  ends : Nat
  status : Nat
  /-- It can write to the streams of the command. -/
  holds : Bool
  /-- The signal that ended it. -/
  signal : Option Nat := none
  deriving Repr

/-- A change of the disk that is still to come, when, and within which job. -/
structure Coming where
  time : Nat
  job : Nat
  change : Files.Disk → Files.Disk

/-- What lies outside a shell. -/
structure Outside where
  disk : Files.Disk
  clock : Nat := 0
  /-- What was done, the last first. -/
  done : List Done := []
  /-- Changes of the disk that are still to come. -/
  coming : List Coming := []
  jobs : List Job := []
  supplies : List (Nat × Supply) := []
  /-- The next number for a job, an outlet or a supply. -/
  next : Nat := 10
  /-- How many simple commands were run. -/
  steps : Nat := 0
  /-- When a signal from beside the main shell ends it, and which. -/
  doom : Option (Nat × Nat) := none

/-- The number by which the main shell is known. -/
def mainId : Nat := 4000

/-- A shell. -/
structure Shell where
  name : String
  id : Nat := mainId
  folder : Path
  vars : Scope
  exported : List String
  readOnly : List String := []
  functions : Assoc Command := []
  arguments : List String := []
  channels : List (Nat × Channel)
  traps : Assoc String := []
  flags : List Char := []
  status : Nat := 0
  /-- The status of the last command whose output was put in place. -/
  outputStatus : Nat := 0
  line : Nat := 1
  lastJob : Option Nat := none
  /-- The job within which the shell runs. -/
  job : Nat := 0
  isSubshell : Bool := false
  /-- How many loops there are around the present command. -/
  loops : Nat := 0
  /-- How many calls of functions there are around the present command. -/
  calls : Nat := 0
  /-- The values that variables had before they became local. -/
  covered : List (String × Option String) := []

/-- A shell and what lies outside it. -/
structure Machine where
  shell : Shell
  outside : Outside

/-- How a command is left before its end. -/
inductive Leave where
  | exit (status : Nat)
  | return (status : Nat)
  | break (levels : Nat)
  | continue (levels : Nat)
  /-- A signal ended the main shell. -/
  | died (signal : Nat)
  /-- A signal ended the innermost shell that was started by name. -/
  | killed (signal : Nat)
  /-- The script does not end. -/
  | endless
  deriving DecidableEq, Repr

/-- A step of a machine. -/
abbrev Act := ExceptT Leave (StateM Machine)

namespace Act

/-! ## Access -/

/-- The shell. -/
def shell : Act Shell := do return (← get).shell

/-- Changes the shell. -/
def onShell (f : Shell → Shell) : Act Unit := modify fun m => { m with shell := f m.shell }

/-- What lies outside. -/
def outside : Act Outside := do return (← get).outside

/-- Changes what lies outside. -/
def onOutside (f : Outside → Outside) : Act Unit := modify fun m => { m with outside := f m.outside }

/-- Leaves. -/
def leave {α : Type} (l : Leave) : Act α := throw l

/-- What something comes to, or how it is left. -/
def attempt {α : Type} (body : Act α) : Act (Except Leave α) :=
  tryCatchThe Leave (do return .ok (← body)) fun l => return .error l

/-- Goes on with what something came to. -/
def settle {α : Type} (result : Except Leave α) : Act α :=
  match result with
  | .ok a => return a
  | .error l => leave l

/-- Sets the status. -/
def setStatus (n : Nat) : Act Unit := onShell fun s => { s with status := n }

/-- A new number for a job, an outlet or a supply. -/
def fresh : Act Nat := do
  let n := (← outside).next
  onOutside fun o => { o with next := n + 1 }
  return n

/-- The path that a text names for the shell. -/
def pathOf (text : String) : Act Path := do
  let path := Path.ofString text
  let folder := (← shell).folder
  return if (← outside).disk.isWithin path then path else folder.join path

/-- The disk. -/
def disk : Act Files.Disk := do return (← outside).disk

/-! ## Time -/

/-- Ends the main shell if a signal has come. -/
def meetDoom : Act Unit := do
  match (← outside).doom with
  | none => return ()
  | some (time, signal) =>
    if !(← shell).isSubshell && time ≤ (← outside).clock then
      onOutside fun o => { o with clock := time }
      leave (.died signal)

/-- Lets the clock come to a time, and makes the changes that have come by then. -/
def waitUntil (time : Nat) : Act Unit := do
  onOutside fun o =>
    let clock := max o.clock time
    let (ripe, coming) := o.coming.partition fun c => c.time ≤ clock
    let ripe := ripe.mergeSort fun a b => a.time ≤ b.time
    { o with clock := clock, coming := coming, disk := ripe.foldl (fun d c => c.change d) o.disk }
  meetDoom

/-- Lets some milliseconds pass. -/
def pass (milliseconds : Nat) : Act Unit := do waitUntil ((← outside).clock + milliseconds)

/-! ## Files -/

/-- Puts down something that is done. -/
def note (effect : Effect) : Act Unit := do
  let job := (← shell).job
  onOutside fun o => { o with done := ⟨o.clock, job, effect⟩ :: o.done }

/-- Changes the disk, which may be refused. -/
def changeDisk (change : Files.Disk → Except Files.Trouble Files.Disk) :
    Act (Option Files.Trouble) := do
  match change (← disk) with
  | .error trouble => return some trouble
  | .ok changed =>
    onOutside fun o => { o with disk := changed }
    note (.changed fun d => match change d with
      | .ok d => d
      | .error _ => d)
    return none

/-- Adds bytes to a file. -/
def appendTo (path : Path) (bytes : List UInt8) : Act Unit := do
  let _ ← changeDisk fun d => d.writeBytes path <|
    match d.read path with
    | .ok before => before ++ bytes
    | .error _ => bytes

/-- Writes bytes to a descriptor; says whether that was possible. -/
def write (descriptor : Nat) (bytes : List UInt8) : Act Bool := do
  match (← shell).channels.lookup descriptor with
  | some (.outlet n) =>
    if !bytes.isEmpty then note (.wrote n bytes)
    return true
  | some (.file path) =>
    if !bytes.isEmpty then appendTo path bytes
    return true
  | some .nothing => return true
  | _ => return bytes.isEmpty

/-- Writes a text to a descriptor. -/
def say (descriptor : Nat) (text : String) : Act Unit := do
  let _ ← write descriptor (Text.encodeAny text)

/-- Complains with the name of the shell and the line in front. -/
def complain (words : String) : Act Unit := do
  let s ← shell
  say 2 s!"{s.name}: {s.line}: {words}\n"

/-- Complains and leaves the shell. -/
def abort {α : Type} (words : String) : Act α := do
  complain words
  leave (.exit 2)

/-- The supply from which a descriptor reads. -/
def supplyOf (descriptor : Nat) : Act (Option Nat) := do
  match (← shell).channels.lookup descriptor with
  | some (.supply n) => return some n
  | _ => return none

/-- Makes a supply. -/
def makeSupply (s : Supply) : Act Nat := do
  let n ← fresh
  onOutside fun o => { o with supplies := (n, s) :: o.supplies }
  return n

/-- Replaces a supply. -/
def setSupply (n : Nat) (s : Supply) : Act Unit := onOutside fun o =>
  { o with supplies := (n, s) :: o.supplies.filter fun (m, _) => m != n }

/-- Takes the next bytes from a supply as soon as they come; none at its end. -/
def readChunk (n : Nat) : Act (Option (List UInt8)) := do
  match (← outside).supplies.lookup n with
  | none => return none
  | some s =>
    match s.chunks with
    | [] =>
      waitUntil s.closes
      return none
    | (time, bytes) :: rest =>
      waitUntil time
      setSupply n { s with chunks := rest }
      return some bytes

/-- Puts bytes back in front of a supply. -/
def putBack (n : Nat) (bytes : List UInt8) : Act Unit := do
  match (← outside).supplies.lookup n with
  | some s =>
    if !bytes.isEmpty then
      setSupply n { s with chunks := ((← outside).clock, bytes) :: s.chunks }
  | none => pure ()

/-- All bytes of a supply; `fuel` bounds the number of its chunks. -/
def readChunks (n : Nat) : Nat → Act (List UInt8)
  | 0 => return []
  | fuel + 1 => do
    match ← readChunk n with
    | none => return []
    | some bytes => return bytes ++ (← readChunks n fuel)

/-- All bytes that can be read from a descriptor. -/
def readAll (descriptor : Nat) : Act (List UInt8) := do
  match ← supplyOf descriptor with
  | none => return []
  | some n =>
    match (← outside).supplies.lookup n with
    | none => return []
    | some s => readChunks n (s.chunks.length + 1)

/-! ## Subshells -/

/-- What leaving a subshell comes to: its status, unless more than the subshell is left. -/
def statusOf (l : Leave) : Act Nat :=
  match l with
  | .exit n | .return n => pure n
  | .break _ | .continue _ => pure 0
  | .died signal => leave (.died signal)
  | .killed signal => leave (.killed signal)
  | .endless => leave .endless

/-- Runs something on a copy of the shell, and gives its status. -/
def apart (change : Shell → Shell) (body : Act Unit) : Act Nat := do
  let outer ← shell
  onShell fun s => change
    { s with isSubshell := true, traps := s.traps.filter fun (_, action) => action == "" }
  let result ← attempt do
    body
    return (← shell).status
  let isBeside := (← shell).job != outer.job
  onShell fun _ => outer
  if !isBeside then meetDoom
  match result with
  | .ok status => return status
  | .error l => statusOf l

/-- Takes what was written to an outlet since some deeds were done, and gives it with its times. -/
def collect (outlet : Nat) : Act (List (Nat × List UInt8)) := do
  let isHere (d : Done) : Bool := match d.effect with
    | .wrote n _ => n == outlet
    | .changed _ => false
  let here := (← outside).done.filter isHere
  onOutside fun o => { o with done := o.done.filter fun d => !isHere d }
  return here.reverse.filterMap fun d => match d.effect with
    | .wrote _ bytes => some (d.time, bytes)
    | .changed _ => none


end Act

/-- Gives a descriptor of a shell a channel, or takes it away. -/
def Shell.connect (s : Shell) (descriptor : Nat) (channel : Option Channel) : Shell :=
  let others := s.channels.filter fun (d, _) => d != descriptor
  { s with channels := match channel with
      | some c => (descriptor, c) :: others
      | none => others }

/-- Whether a shell can write to the streams of the command. -/
def Shell.holds (s : Shell) : Bool :=
  s.channels.any fun (_, c) => c == .outlet outputOutlet || c == .outlet errorOutlet

end Runbook.Shell

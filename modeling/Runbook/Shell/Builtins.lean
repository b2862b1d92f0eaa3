import Runbook.Shell.Fields
import Runbook.Shell.Format
import Runbook.Shell.Judgement
import Runbook.Shell.Machine

/-!
# Commands of the shell itself

The commands that a shell carries out itself and that run no other commands. Some of them are special:
an error in one of these ends the shell.
-/

set_option autoImplicit false

namespace Runbook.Shell

open Act

/-- A number that no job has. -/
def forever : Nat := Nat.pow 10 15

/-! ## Variables -/

namespace Act

/-- Gives a variable a value. -/
def assign (name value : String) : Act Unit := do
  if (← shell).readOnly.contains name then abort s!"{name}: is read only"
  else onShell fun s => { s with vars := s.vars.put name value }

/-- The value of a variable. -/
def valueOf (name : String) : Act (Option String) := do return (← shell).vars.get? name

/-- The separators of fields. -/
def separators : Act (List Char) := do
  return ((← valueOf "IFS").getD " \t\n").toList

/-- The value of a parameter. -/
def parameter (name : String) : Act (Option String) := do
  let s ← shell
  match name with
  | "?" => return some (toString s.status)
  | "$" => return some (toString s.id)
  | "!" => return some ((s.lastJob.map toString).getD "")
  | "#" => return some (toString s.arguments.length)
  | "-" => return some (String.ofList s.flags)
  | "@" => return if s.arguments.isEmpty then none else some (" ".intercalate s.arguments)
  | "*" =>
    let separator := match s.vars.get? "IFS" with
      | some ifs => String.ofList (ifs.toList.take 1)
      | none => " "
    return if s.arguments.isEmpty then none else some (separator.intercalate s.arguments)
  | "0" => return some s.name
  | _ =>
    match name.toNat? with
    | some n => return s.arguments[n - 1]?
    | none => return s.vars.get? name

end Act

/-! ## Complaints -/

/-- Complains as a command of the shell. -/
def object (command words : String) : Act Unit := complain s!"{command}: {words}"

/-- Complains as a command of the shell and leaves the status of an error. -/
def reject (command words : String) : Act Unit := do
  object command words
  setStatus 2

/-- The status that a text names. -/
def readStatus? (text : String) : Option Nat :=
  if !text.isEmpty && text.all Char.isDigit then text.toNat? else none

/-- The status that an argument of a special command names; any other text ends the shell. -/
def statusArgument (command : String) (arguments : List String) : Act Nat := do
  match arguments with
  | [] => return (← shell).status
  | text :: _ =>
    match readStatus? text with
    | some n => return n
    | none => abort s!"{command}: Illegal number: {text}"

/-! ## Writing -/

/-- Writes bytes as a command of the shell. -/
def putOut (command : String) (bytes : List UInt8) : Act Unit := do
  if ← write 1 bytes then setStatus 0
  else
    object command s!"{command}: I/O error"
    setStatus 1

/-- Writes its arguments. -/
def echo (arguments : List String) : Act Unit := putOut "echo" (Format.echo arguments)

/-- Writes its arguments by a format. -/
def printf (arguments : List String) : Act Unit := do
  match arguments with
  | [] => reject "printf" "usage: printf format [arg ...]"
  | "--" :: format :: rest => writeOut format rest
  | format :: rest => writeOut format rest
where
  /-- Writes arguments by a format. -/
  writeOut (format : String) (arguments : List String) : Act Unit := do
    let written := Format.printf format arguments
    for c in written.complaints do
      object "printf" c
    putOut "printf" written.bytes
    if written.isBroken then setStatus 2
    else if !written.complaints.isEmpty then setStatus 1

/-! ## Folders -/

/-- Folders outside the disk that are known to be there. -/
def knownFolders : List String :=
  ["/", "/tmp", "/usr", "/usr/bin", "/bin", "/etc", "/var", "/dev", "/home", "/root", "/opt", "/proc"]

/-- Makes a folder the one from which paths are seen. -/
def cd (arguments : List String) : Act Unit := do
  let s ← shell
  let isBack := arguments.head? == some "-"
  let target := match arguments with
    | [] => (s.vars.get? "HOME").getD ""
    | "-" :: _ => (s.vars.get? "OLDPWD").getD ""
    | "--" :: a :: _ => a
    | a :: _ => a
  let path := (← pathOf target).resolve
  if target == "" || (← disk).isFolder path || knownFolders.contains path.text then
    let path := if target == "" then s.folder else path
    onShell fun s => { s with
      folder := path
      vars := (s.vars.put "OLDPWD" s.folder.text).put "PWD" path.text }
    if isBack then say 1 s!"{path.text}\n"
    setStatus 0
  else reject "cd" s!"can't cd to {target}"

/-- Writes the folder from which paths are seen. -/
def pwd : Act Unit := do putOut "pwd" (Text.encodeAny s!"{(← shell).folder.text}\n")

/-! ## Reading -/

/-- The bytes of the next line of a supply without its line feed, and whether it ended with one;
`fuel` bounds the number of pieces. -/
def readLineOf (n : Nat) : Nat → Act (List UInt8 × Bool)
  | 0 => return ([], false)
  | fuel + 1 => do
    match ← readChunk n with
    | none => return ([], false)
    | some bytes =>
      let line := bytes.takeWhile (· != 0x0A)
      if line.length < bytes.length then
        putBack n (bytes.drop (line.length + 1))
        return (line, true)
      else
        let (more, ended) ← readLineOf n fuel
        return (line ++ more, ended)

/-- Takes backslashes out of a line, marking what they quote. -/
def unescape (raw : Bool) : List Char → List Mark
  | '\\' :: c :: rest =>
    if raw then .soft '\\' :: unescape raw (c :: rest) else .glyph c true :: unescape raw rest
  | c :: rest => .soft c :: unescape raw rest
  | [] => []

/-- Splits marks into at most `n` fields, the last of which keeps its separators. -/
def splitAtMost (separators : List Char) : Nat → List Mark → List String
  | 0, _ => []
  | 1, marks =>
    let isWhite (m : Mark) : Bool := match m with
      | .soft c => separators.contains c && (c == ' ' || c == '\t' || c == '\n')
      | _ => false
    [joinMarks (((marks.dropWhile isWhite).reverse.dropWhile isWhite).reverse)]
  | n + 1, marks =>
    let isWhite (m : Mark) : Bool := match m with
      | .soft c => separators.contains c && (c == ' ' || c == '\t' || c == '\n')
      | _ => false
    let isSeparator (m : Mark) : Bool := match m with
      | .soft c => separators.contains c
      | _ => false
    let marks := marks.dropWhile isWhite
    let first := marks.takeWhile (!isSeparator ·)
    let rest := (marks.drop first.length).dropWhile isWhite
    let rest := match rest with
      | m :: more => if isSeparator m then more else rest
      | [] => []
    joinMarks first :: splitAtMost separators n rest

/-- Reads a line into variables. -/
def read (arguments : List String) : Act Unit := do
  let raw := arguments.contains "-r"
  let names := arguments.filter fun a => !a.startsWith "-"
  match ← supplyOf 0 with
  | none => finish raw names [] false
  | some n =>
    let size := (((← outside).supplies.lookup n).map fun s => s.chunks.length).getD 0
    let (line, ended) ← readLineOf n (size + 1)
    finish raw names line ended
where
  /-- Puts a line into variables. -/
  finish (raw : Bool) (names : List String) (line : List UInt8) (ended : Bool) : Act Unit := do
    let marks := unescape raw (Text.decodeAny line).toList
    let names := if names.isEmpty then ["REPLY"] else names
    let fields := splitAtMost (← separators) names.length marks
    for (name, k) in names.zipIdx do
      assign name ((fields[k]?).getD "")
    setStatus (if ended then 0 else 1)

/-! ## Jobs and signals -/

/-- The signals by name. -/
def signals : List (String × Nat) :=
  [("EXIT", 0), ("HUP", 1), ("INT", 2), ("QUIT", 3), ("ILL", 4), ("TRAP", 5), ("ABRT", 6),
    ("FPE", 8), ("KILL", 9), ("USR1", 10), ("SEGV", 11), ("USR2", 12), ("PIPE", 13), ("ALRM", 14),
    ("TERM", 15), ("CHLD", 17), ("CONT", 18), ("STOP", 19)]

/-- How a shell tells that a signal ended what it waited for. -/
def signalWording? (signal : Nat) : Option String :=
  [(1, "Hangup"), (3, "Quit"), (4, "Illegal instruction"), (6, "Aborted"), (9, "Killed"),
    (10, "User defined signal 1"), (11, "Segmentation fault"), (12, "User defined signal 2"),
    (14, "Alarm clock"), (15, "Terminated")].lookup signal

/-- The number of the signal that a word names. -/
def signalNumber? (word : String) : Option Nat :=
  match word.toNat? with
  | some n => some n
  | none =>
    let name := word.toUpper
    signals.lookup (if name.startsWith "SIG" then String.ofList (name.toList.drop 3) else name)

/-- The name under which the trap for a signal is kept. -/
def trapKey (signal : Nat) : String := toString signal

/-- Waits for jobs. -/
def wait (arguments : List String) : Act Unit := do
  match arguments with
  | [] =>
    let jobs := (← outside).jobs
    waitUntil (jobs.foldl (fun t j => max t j.ends) 0)
    setStatus 0
  | _ =>
    for a in arguments do
      let jobs := (← outside).jobs
      let job := if a.startsWith "%" then
          (String.ofList (a.toList.drop 1)).toNat?.bind fun n => jobs[n - 1]?
        else a.toNat?.bind fun n => jobs.find? (·.id == n)
      match job with
      | some job =>
        waitUntil job.ends
        setStatus job.status
        match job.signal.bind signalWording? with
        | some words => say 2 s!"{words}\n"
        | none => pure ()
      | none => setStatus 127

/-- Ends a job by a signal. -/
def killJob (job : Job) (signal : Nat) : Act Unit := onOutside fun o =>
  { o with
    done := o.done.filter fun d => d.job != job.id || d.time ≤ o.clock
    coming := o.coming.filter fun c => c.job != job.id || c.time ≤ o.clock
    jobs := o.jobs.map fun j =>
      if j.id == job.id then
        { j with ends := o.clock, status := 128 + signal, signal := some signal }
      else j }

/-- The signal and the receivers that the arguments of `kill` name. -/
def killArguments (arguments : List String) : Option Nat × List String :=
  match arguments with
  | "-s" :: name :: rest => (signalNumber? name, rest)
  | "--" :: rest => (some 15, rest)
  | first :: rest =>
    match first.toList with
    | '-' :: name => (signalNumber? (String.ofList name), rest)
    | _ => (some 15, arguments)
  | [] => (some 15, [])

/-! ## Settings of the shell -/

/-- The letters of the options that have names. -/
def optionNames : List (String × Char) :=
  [("errexit", 'e'), ("nounset", 'u'), ("xtrace", 'x'), ("noglob", 'f'), ("noexec", 'n'),
    ("verbose", 'v'), ("allexport", 'a'), ("noclobber", 'C'), ("monitor", 'm')]

/-- Sets or clears an option. -/
def setFlag (on : Bool) (flag : Char) : Act Unit := onShell fun s =>
  let others := s.flags.filter (· != flag)
  { s with flags := if on then others ++ [flag] else others }

/-- Sets options and arguments; `fuel` bounds their number. -/
def setOptions : Nat → List String → Act Unit
  | 0, _ => return ()
  | fuel + 1, arguments => do
    match arguments with
    | [] => return ()
    | "--" :: rest => onShell fun s => { s with arguments := rest }
    | "-o" :: name :: rest =>
      match optionNames.lookup name with
      | some flag => setFlag true flag
      | none => abort s!"set: Illegal option -o {name}"
      setOptions fuel rest
    | "+o" :: name :: rest =>
      match optionNames.lookup name with
      | some flag => setFlag false flag
      | none => abort s!"set: Illegal option +o {name}"
      setOptions fuel rest
    | word :: rest =>
      match word.toList with
      | '-' :: c :: letters =>
        for letter in c :: letters do
          if (optionNames.map (·.2)).contains letter then setFlag true letter
          else abort s!"set: Illegal option -{letter}"
        setOptions fuel rest
      | '+' :: c :: letters =>
        for letter in c :: letters do
          setFlag false letter
        setOptions fuel rest
      | _ => onShell fun s => { s with arguments := arguments }

/-- A value in quotes from which the shell would read it again. -/
def requote (value : String) : String :=
  "'" ++ String.ofList (value.toList.flatMap fun c =>
    if c == '\'' then "'\"'\"'".toList else [c]) ++ "'"

/-- Sets options and arguments, or lists the variables. -/
def set (arguments : List String) : Act Unit := do
  if arguments.isEmpty then
    let sorted := (← shell).vars.mergeSort fun a b => a.1 ≤ b.1
    for (name, value) in sorted do
      say 1 s!"{name}={requote value}\n"
  else setOptions (arguments.length + 1) arguments
  setStatus 0

/-- Takes arguments away. -/
def shift (arguments : List String) : Act Unit := do
  let n ← match arguments with
    | [] => pure 1
    | text :: _ =>
      match readStatus? text with
      | some n => pure n
      | none => abort s!"shift: Illegal number: {text}"
  if n > (← shell).arguments.length then abort "shift: can't shift that many"
  else
    onShell fun s => { s with arguments := s.arguments.drop n }
    setStatus 0

/-- A name and the value behind its equals sign. -/
def splitAssignment (text : String) : String × Option String :=
  let name := text.toList.takeWhile (· != '=')
  match text.toList.drop name.length with
  | _ :: value => (String.ofList name, some (String.ofList value))
  | [] => (text, none)

/-- Hands variables on to other programs. -/
def exportNames (arguments : List String) : Act Unit := do
  for a in arguments.filter (· != "-p") do
    let (name, value) := splitAssignment a
    if let some value := value then assign name value
    onShell fun s => { s with exported := name :: s.exported }
  setStatus 0

/-- Makes variables unchangeable. -/
def readonly (arguments : List String) : Act Unit := do
  for a in arguments.filter (· != "-p") do
    let (name, value) := splitAssignment a
    if let some value := value then assign name value
    onShell fun s => { s with readOnly := name :: s.readOnly }
  setStatus 0

/-- Makes variables local to the function. -/
def makeLocal (arguments : List String) : Act Unit := do
  if (← shell).calls == 0 then abort "local: not in a function"
  for a in arguments do
    let (name, value) := splitAssignment a
    onShell fun s => { s with covered := (name, s.vars.get? name) :: s.covered }
    if let some value := value then assign name value
  setStatus 0

/-- Takes variables or functions away. -/
def unset (arguments : List String) : Act Unit := do
  let ofFunctions := arguments.head? == some "-f"
  for name in arguments.filter fun a => !a.startsWith "-" do
    if (← shell).readOnly.contains name then abort s!"unset: {name}: is read only"
    onShell fun s =>
      if ofFunctions then { s with functions := s.functions.erase name }
      else { s with vars := s.vars.erase name }
  setStatus 0

/-- Keeps what is to be done upon signals. -/
def trap (arguments : List String) : Act Unit := do
  let (action, names) := match arguments with
    | [] => (none, [])
    | "--" :: action :: names => (some action, names)
    | "-" :: names => (some "-", names)
    | [name] => (some "-", [name])
    | action :: names => (some action, names)
  setStatus 0
  match action with
  | none =>
    for (key, action) in (← shell).traps do
      let name := ((signals.find? fun (_, n) => trapKey n == key).map (·.1)).getD key
      say 1 s!"trap -- {requote action} {name}\n"
  | some action =>
    for name in names do
      match signalNumber? name with
      | none =>
        say 2 s!"trap: {name}: bad trap\n"
        setStatus 1
      | some n => onShell fun s => { s with
          traps := if action == "-" then s.traps.erase (trapKey n)
            else s.traps.put (trapKey n) action }

/-- Judges a condition. -/
def judge (command : String) (arguments : List String) : Act Unit := do
  let ground : Judgement.Ground := ⟨← disk, (← shell).folder⟩
  let verdict := if command == "[" then Judgement.judgeBracket ground arguments
    else Judgement.judge ground arguments
  match verdict with
  | .ok truth => setStatus (if truth then 0 else 1)
  | .error fault => reject command fault.message

/-- Shows or sets which rights new files lack. -/
def umask (arguments : List String) : Act Unit := do
  match arguments with
  | [] => putOut "umask" (Text.encodeAny "0022\n")
  | mask :: _ =>
    if mask.all fun c => '0' ≤ c && c ≤ '7' then setStatus 0
    else reject "umask" s!"Illegal mode: {mask}"

/-- Asks for a job to go on; a shell that runs a script keeps none for that. -/
def resume (command : String) (arguments : List String) : Act Unit :=
  reject command <| match arguments with
    | [] => "No current job"
    | job :: _ => s!"No such job: {job}"

/-- The commands that a shell carries out itself, by name, and whether they are special. -/
def builtins : List (String × Bool × (List String → Act Unit)) :=
  [(":", true, fun _ => setStatus 0), ("true", false, fun _ => setStatus 0),
    ("false", false, fun _ => setStatus 1), ("echo", false, echo), ("printf", false, printf),
    ("cd", false, cd), ("chdir", false, cd), ("pwd", false, fun _ => pwd), ("read", false, read),
    ("wait", false, wait), ("set", true, set), ("shift", true, shift), ("export", true, exportNames),
    ("readonly", true, readonly), ("local", true, makeLocal), ("unset", true, unset),
    ("trap", true, trap), ("test", false, judge "test"), ("[", false, judge "["),
    ("umask", false, umask), ("times", true, fun _ => setStatus 0),
    ("ulimit", false, fun _ => setStatus 0), ("hash", false, fun _ => setStatus 0),
    ("jobs", false, fun _ => setStatus 0), ("fg", false, resume "fg"), ("bg", false, resume "bg"),
    ("alias", false, fun _ => setStatus 0),
    ("unalias", false, fun _ => setStatus 0)]

end Runbook.Shell

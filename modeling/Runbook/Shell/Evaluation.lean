import Runbook.Shell.Builtins
import Runbook.Shell.Script.Reader
import Runbook.Shell.Tools

/-!
# Running scripts

`run` carries out a command, `expand` puts values in the place of the parts of a word, and `invoke`
carries out words: a function, a command of the shell, or a tool. The fuel bounds how deeply these are
nested. Loops are bounded by a number of rounds, and all simple commands together by a number of steps;
a script that goes beyond them counts as endless.
-/

set_option autoImplicit false

namespace Runbook.Shell

open Act

/-- How many rounds a loop may make. -/
def roundLimit : Nat := 200000

/-- How many simple commands a script may run. -/
def stepLimit : Nat := 200000

/-- Counts a simple command. -/
def countStep : Act Unit := do
  if (← outside).steps ≥ stepLimit then leave .endless
  else onOutside fun o => { o with steps := o.steps + 1 }

/-- Ends the shell if a command failed that may not. -/
def checkFailure (tested : Bool) : Act Unit := do
  let s ← shell
  if !tested && s.status != 0 && s.flags.contains 'e' then leave (.exit s.status)

/-- The names of the shells that can be started. -/
def shellNames : List String := ["sh", "dash", "bash"]

/-- The folders in which programs are found. -/
def programFolders : List String := ["/usr/bin/", "/bin/"]

/-- The name of a program without the folder in which it is found. -/
def programName (word : String) : String :=
  match programFolders.find? fun f => word.startsWith f with
  | some f => String.ofList (word.toList.drop f.length)
  | none => word

/-- The path of a file as a shell says that it cannot use it. -/
def openWording : Files.Trouble → String
  | .refused .notFound _ => "No such file"
  | .refused .notFolder _ => "No such file"
  | trouble => Tools.wording trouble

/-- The same for a file that was to be made. -/
def createWording : Files.Trouble → String
  | .refused .notFound _ => "Directory nonexistent"
  | .refused .notFolder _ => "Directory nonexistent"
  | trouble => Tools.wording trouble

/-- Opens a file for a descriptor; the words say what was wrong. -/
def openFile (what : Redirect) (name : String) : Act (Except String Channel) := do
  let path ← pathOf name
  let outlets := (← shell).channels
  match name, what with
  | "/dev/null", _ => return .ok .nothing
  | "/dev/stdout", _ => return .ok ((outlets.lookup 1).getD .nothing)
  | "/dev/stderr", _ => return .ok ((outlets.lookup 2).getD .nothing)
  | "/dev/stdin", _ => return .ok ((outlets.lookup 0).getD .nothing)
  | _, .read =>
    match (← disk).read path with
    | .ok bytes =>
      let now := (← outside).clock
      return .ok (.supply (← makeSupply ⟨[(now, bytes)], now⟩))
    | .error (.refused .isFolder _) => return .ok .nothing
    | .error trouble => return .error s!"cannot open {name}: {openWording trouble}"
  | _, _ =>
    match ← changeDisk fun d =>
      if what == .write || !d.has path then d.writeBytes path []
      else
        match d.read path with
        | .ok _ => .ok d
        | .error trouble => .error trouble with
    | none => return .ok (.file path)
    | some trouble => return .error s!"cannot create {name}: {createWording trouble}"

/-- Makes the channel of a redirection whose word was expanded; `none` closes the descriptor. -/
def channelFor (what : Redirect) (word : String) : Act (Except String (Option Channel)) := do
  match what with
  | .duplicate =>
    if word == "-" then return .ok none
    else
      match word.toNat? with
      | none => return .error "Bad fd number"
      | some n =>
        match (← shell).channels.lookup n with
        | some c => return .ok (some c)
        | none => return .error s!"{n}: Bad file descriptor"
  | .text =>
    let now := (← outside).clock
    return .ok (some (.supply (← makeSupply ⟨[(now, Text.encodeAny word)], now⟩)))
  | _ => return (← openFile what word).map some

/-- Runs something with the channels of the shell put back afterwards. -/
def keepingChannels (body : Act Unit) : Act Unit := do
  let before := (← shell).channels
  let result ← attempt body
  onShell fun s => { s with channels := before }
  settle result

/-- Gives variables values for the time of a command. -/
def withAssignments (assignments : List (String × String)) (body : Act Unit) : Act Unit := do
  let before := (← shell).vars
  let exported := (← shell).exported
  for (name, value) in assignments do
    assign name value
  onShell fun s => { s with exported := assignments.map (·.1) ++ s.exported }
  let result ← attempt body
  onShell fun s => { s with exported := exported, vars := assignments.foldl (fun vars (name, _) =>
    match before.get? name with
    | some value => vars.put name value
    | none => vars.erase name) s.vars }
  settle result

/-- What a loop does after a round. -/
inductive Onward where
  | again
  | over
  deriving DecidableEq

/-- Runs the body of a loop, and says whether the loop goes on. -/
def roundOf (body : Act Unit) : Act Onward := do
  onShell fun s => { s with loops := s.loops + 1 }
  let result ← attempt body
  onShell fun s => { s with loops := s.loops - 1 }
  match result with
  | .ok _ => return .again
  | .error (.continue n) => if n ≤ 1 then return .again else leave (.continue (n - 1))
  | .error (.break n) => if n ≤ 1 then return .over else leave (.break (n - 1))
  | .error l => leave l

/-- The number of loops that `break` or `continue` mean. -/
def levelsOf (command : String) (arguments : List String) : Act Nat := do
  match arguments with
  | [] => return 1
  | text :: _ =>
    match readStatus? text with
    | some n => if n == 0 then abort s!"{command}: Illegal number: {text}" else return n
    | none => abort s!"{command}: Illegal number: {text}"

/-- Puts back the variables that were local to a function. -/
def uncover (before : List (String × Option String)) : Act Unit := onShell fun s =>
  { s with
    vars := s.covered.foldl (fun vars (name, value) =>
      match value with
      | some value => vars.put name value
      | none => vars.erase name) s.vars
    covered := before }

/-- Complains that there is no such command, after a heading. -/
def notFound (heading name : String) : Act Unit := do
  let there := (← disk).has (← pathOf name) || knownFolders.contains name
  if name == "" then
    complain s!"{heading}: Permission denied"
    setStatus (if heading == "" then 127 else 126)
  else if name.contains '/' && there then
    complain s!"{heading}{name}: Permission denied"
    setStatus 126
  else
    complain s!"{heading}{name}: not found"
    setStatus 127

/-- A program of the system. -/
inductive Program where
  | tool (action : List String → Act Unit)
  | shell

/-- The commands of the shell that are programs of the system as well. -/
def alsoPrograms : List String := ["printf", "true", "false", "test", "[", "pwd"]

/-- The program that a name stands for in the folders of programs. -/
def programNamed? (base : String) : Option Program :=
  match Tools.named.lookup base with
  | some tool => some (.tool tool)
  | none =>
    if shellNames.contains base then some .shell
    else if alsoPrograms.contains base then
      (builtins.lookup base).map fun (_, action) => .tool action
    else none

/-- The path and the program that a name leads to, as a path or on the search path. -/
def findProgram? (name : String) : Act (Option (String × Program)) := do
  let path? ←
    if name.contains '/' then pure (some name)
    else do
      let places := (((← shell).vars.get? "PATH").getD "").splitOn ":"
      pure (((places.map (· ++ "/")).find? programFolders.contains).map (· ++ name))
  return path?.bind fun path =>
    let base := programName path
    if base == path then none else (programNamed? base).map fun program => (path, program)

/-- The commands that the evaluation itself carries out, and whether they are special. -/
def inner : List (String × Bool) :=
  [("eval", true), ("exec", true), ("exit", true), ("return", true), ("break", true),
    ("continue", true), (".", true), ("kill", false), ("command", false), ("type", false)]

/-- Tells how commands would be understood, briefly or in words. -/
def tellKind (inWords : Bool) (names : List String) : Act Unit := do
  setStatus 0
  for name in names do
    let special? := match builtins.lookup name with
      | some (special, _) => some special
      | none => inner.lookup name
    let tell (brief words : String) : Act Unit :=
      say 1 (if inWords then s!"{name} is {words}\n" else s!"{brief}\n")
    if Reading.reservedWords.contains name then tell name "a shell keyword"
    else if special? == some true then tell name "a special shell builtin"
    else if (← shell).functions.has name then tell name "a shell function"
    else if special? == some false then tell name "a shell builtin"
    else
      match ← findProgram? name with
      | some (path, _) => tell path path
      | none =>
        if inWords then say 1 s!"{name}: not found\n"
        setStatus 127

/-- Runs something in a shell of its own, and tells if a signal ends it. -/
def inNewShell (name : String) (arguments : List String) (body : Act Unit) : Act Unit := do
  let id ← fresh
  let change (s : Shell) : Shell :=
    { s with
      name := name, id := mainId + id, arguments := arguments
      functions := [], flags := [], traps := []
      vars := s.vars.filter fun (v, _) => s.exported.contains v }
  match ← attempt (apart change body) with
  | .ok status => setStatus status
  | .error (.killed signal) =>
    match signalWording? signal with
    | some words => say 2 s!"{words}\n"
    | none => pure ()
    setStatus (128 + signal)
  | .error l => leave l

/-- Takes line feeds from the end of what a command wrote, and null characters from all of it. -/
def outputText (bytes : List UInt8) : String :=
  let bytes := bytes.filter (· != 0)
  Text.decodeAny ((bytes.reverse.dropWhile (· == 0x0A)).reverse)

/-- A word with the home folder in place of a tilde at its start. -/
def expandTilde (word : Word) : Act Word := do
  match word with
  | .text s false :: rest =>
    match s.toList with
    | '~' :: more =>
      if more.isEmpty && rest.isEmpty || more.head? == some '/' then
        let home := ((← valueOf "HOME").getD "~")
        return .text home true :: .text (String.ofList more) false :: rest
      else return word
    | _ => return word
  | _ => return word

/-- Shows a command if the shell is to do so. -/
def trace (words : List String) : Act Unit := do
  if (← shell).flags.contains 'x' && !words.isEmpty then
    let mark := (← valueOf "PS4").getD "+ "
    say 2 (mark ++ " ".intercalate words ++ "\n")

mutual

/-- The marks of a piece of a word. -/
def expandPiece (fuel : Nat) (piece : Piece) : Act (List Mark) := do
  match fuel with
  | 0 => leave .endless
  | fuel + 1 =>
    match piece with
    | .text s isQuoted =>
      if isQuoted then return .blank :: s.toList.map fun c => .glyph c true
      else return s.toList.map fun c => .glyph c false
    | .value "@" isQuoted =>
      let arguments := (← shell).arguments
      return ([Mark.cut].intercalate (arguments.map (placed isQuoted)))
    | .value "*" false =>
      let arguments := (← shell).arguments
      return ([Mark.cut].intercalate (arguments.map (placed false)))
    | .value name isQuoted =>
      match ← parameter name with
      | some value => return placed isQuoted value
      | none =>
        if (← shell).flags.contains 'u' && name != "*" then abort s!"{name}: parameter not set"
        else return placed isQuoted ""
    | .modified name orEmpty how word isQuoted =>
      let value ← parameter name
      let missing := match value with
        | none => true
        | some v => orEmpty && v == ""
      let text := value.getD ""
      let alternative : Act (List Mark) := do
        let marks ← expandAll fuel word
        return if isQuoted then .blank :: marks else marks.map soften
      match how with
      | .default => if missing then alternative else return placed isQuoted text
      | .alternative => if missing then return placed isQuoted "" else alternative
      | .assign =>
        if missing then
          let value := joinMarks (← expandAll fuel word)
          assign name value
          return placed isQuoted value
        else return placed isQuoted text
      | .complain =>
        if missing then
          let words := joinMarks (← expandAll fuel word)
          let usual := if orEmpty then "parameter not set or null" else "parameter not set"
          let said := if words == "" then usual else words
          abort s!"{name}: {said}"
        else return placed isQuoted text
      | .cutStart longest =>
        let pattern := readPattern (patternGlyphs (← expandAll fuel word))
        return placed isQuoted (String.ofList (cutStart pattern longest text.toList))
      | .cutEnd longest =>
        let pattern := readPattern (patternGlyphs (← expandAll fuel word))
        return placed isQuoted (String.ofList (cutEnd pattern longest text.toList))
    | .length name =>
      let value := (← parameter name).getD ""
      return placed false (toString (Text.encodeAny value).length)
    | .sum word isQuoted =>
      let text := joinMarks (← expandAll fuel word)
      match Sum.eval (← shell).vars text with
      | .error fault => abort (fault.message text)
      | .ok (value, assigned) =>
        for (name, value) in assigned.reverse do
          assign name value
        return placed isQuoted (toString value)
    | .output body isQuoted =>
      let outlet ← fresh
      let status ← apart (fun s => s.connect 1 (some (.outlet outlet)))
        (toEnd fuel (run fuel false body))
      let bytes := (← collect outlet).flatMap (·.2)
      onShell fun s => { s with outputStatus := status }
      return placed isQuoted (outputText bytes)
    | .unusable => abort "Bad substitution"
  termination_by structural fuel

/-- The marks of a word. -/
def expandAll (fuel : Nat) (word : Word) : Act (List Mark) := do
  match fuel with
  | 0 => leave .endless
  | fuel + 1 =>
    let mut marks := []
    for piece in word do
      marks := marks ++ (← expandPiece fuel piece)
    return marks
  termination_by structural fuel

/-- The fields that a word stands for. -/
def expandFields (fuel : Nat) (word : Word) : Act (List String) := do
  match fuel with
  | 0 => leave .endless
  | fuel + 1 =>
    let marks ← expandAll fuel (← expandTilde word)
    let fields := splitFields (← separators) marks
    let s ← shell
    let d ← disk
    return fields.flatMap fun field =>
      if s.flags.contains 'f' then [String.ofList (field.map (·.1))]
      else expandPaths d s.folder field
  termination_by structural fuel

/-- The text that a word stands for where it is not split. -/
def expandText (fuel : Nat) (word : Word) : Act String := do
  match fuel with
  | 0 => leave .endless
  | fuel + 1 => return joinMarks (← expandAll fuel (← expandTilde word))
  termination_by structural fuel

/-- Carries out redirections on the shell itself; the words say what was wrong. -/
def redirect (fuel : Nat) (redirections : List Redirection) : Act (Option String) := do
  match fuel with
  | 0 => leave .endless
  | fuel + 1 =>
    for r in redirections do
      match r with
      | .mk descriptor what word =>
        let text ← expandText fuel word
        match ← channelFor what text with
        | .error words => return some words
        | .ok channel => onShell fun s => s.connect descriptor channel
    return none
  termination_by structural fuel

/-- Runs a command; `tested` says that its failure is looked at. -/
def run (fuel : Nat) (tested : Bool) (command : Command) : Act Unit := do
  match fuel with
  | 0 => leave .endless
  | fuel + 1 =>
    match command with
    | .simple line assignments words redirections =>
      onShell fun s => { s with line := line }
      countStep
      runSimple fuel tested assignments words redirections
      checkFailure tested
    | .pipeline parts =>
      runPipeline fuel parts
      checkFailure tested
    | .negated body =>
      run fuel true body
      setStatus (if (← shell).status == 0 then 1 else 0)
    | .both first second =>
      run fuel true first
      if (← shell).status == 0 then run fuel tested second
    | .either first second =>
      run fuel true first
      if (← shell).status != 0 then run fuel tested second
    | .sequence parts =>
      if parts.isEmpty then setStatus 0
      for part in parts do
        run fuel tested part
    | .background body =>
      runBeside fuel body
    | .subshell body =>
      let status ← apart id (toEnd fuel (run fuel tested body))
      setStatus status
      checkFailure tested
    | .redirected body redirections =>
      keepingChannels do
        match ← redirect fuel redirections with
        | some words =>
          complain words
          setStatus 2
        | none => run fuel tested body
    | .branch condition whenTrue whenFalse =>
      run fuel true condition
      if (← shell).status == 0 then run fuel tested whenTrue else run fuel tested whenFalse
    | .loop isUntil condition body =>
      let mut status := 0
      let mut ended := false
      for _ in [0:roundLimit] do
        let onward ← roundOf do
          countStep
          run fuel true condition
          if ((← shell).status == 0) == isUntil then leave (.break 1)
        if onward == .over then
          ended := true
          break
        let onward ← roundOf (run fuel tested body)
        status := (← shell).status
        if onward == .over then
          ended := true
          break
      if ended then setStatus status else leave .endless
    | .each name words body =>
      let values ← match words with
        | none => pure (← shell).arguments
        | some words => do
          let mut values := []
          for word in words do
            values := values ++ (← expandFields fuel word)
          pure values
      setStatus 0
      for value in values do
        assign name value
        let onward ← roundOf (run fuel tested body)
        if onward == .over then break
    | .choose line word arms =>
      onShell fun s => { s with line := line }
      let text ← expandText fuel word
      setStatus 0
      for (patterns, body) in arms do
        let mut hit := false
        for pattern in patterns do
          if !hit then
            let glyphs := patternGlyphs (← expandAll fuel pattern)
            if patternMatches (readPattern glyphs) text.toList then hit := true
        if hit then
          run fuel tested body
          break
    | .define name body =>
      onShell fun s => { s with functions := s.functions.put name body }
      setStatus 0
  termination_by structural fuel

/-- Runs a command beside the shell. -/
def runBeside (fuel : Nat) (body : Command) : Act Unit := do
  match fuel with
  | 0 => leave .endless
  | fuel + 1 =>
    let id ← fresh
    let before ← outside
    let holds := (← shell).holds
    let work := apart
      (fun s => { s.connect 0 (some .nothing) with job := id })
      (toEnd fuel (run fuel false body))
    let result ← attempt work
    let after ← outside
    let (ends, status) := match result with
      | .ok status => (after.clock, status)
      | .error _ => (forever, 0)
    let changes := after.done.filterMap fun d => match d.effect with
      | .changed f => if d.job == id then some ⟨d.time, id, f⟩ else none
      | .wrote .. => none
    onOutside fun o => { o with
      clock := before.clock
      disk := before.disk
      coming := o.coming ++ changes.reverse
      jobs := o.jobs ++ [{ id := id, ends := ends, status := status, holds := holds }] }
    onShell fun s => { s with lastJob := some id, status := 0 }
  termination_by structural fuel

/-- Runs commands side by side, each of which reads what the one before writes. -/
def runPipeline (fuel : Nat) (parts : List Command) : Act Unit := do
  match fuel with
  | 0 => leave .endless
  | fuel + 1 =>
    let start := (← outside).clock
    let mut input : Option Channel := none
    let mut latest := start
    let mut count := parts.length
    for part in parts do
      count := count - 1
      let isLast := count == 0
      let outlet ← fresh
      onOutside fun o => { o with clock := start }
      let here := input
      let change (s : Shell) : Shell :=
        let s := match here with
          | some c => s.connect 0 (some c)
          | none => s
        if isLast then s else s.connect 1 (some (.outlet outlet))
      let work := apart change (toEnd fuel (run fuel false part))
      if isLast then
        let status ← work
        onOutside fun o => { o with clock := max o.clock latest }
        setStatus status
      else
        let result ← attempt work
        let ends ← match result with
          | .ok _ => do pure (← outside).clock
          | .error .endless => pure forever
          | .error l => leave l
        latest := max latest ends
        let chunks ← collect outlet
        input := some (.supply (← makeSupply ⟨chunks, ends⟩))
  termination_by structural fuel

/-- Runs a simple command. -/
def runSimple (fuel : Nat) (tested : Bool) (assignments : List (String × Word)) (words : List Word)
    (redirections : List Redirection) : Act Unit := do
  match fuel with
  | 0 => leave .endless
  | fuel + 1 =>
    onShell fun s => { s with outputStatus := 0 }
    let mut fields := []
    for word in words do
      fields := fields ++ (← expandFields fuel word)
    match fields with
    | [] =>
      keepingChannels do
        let problem ← redirect fuel redirections
        let mut shown := []
        for (name, word) in assignments do
          let value ← expandText fuel word
          assign name value
          shown := shown ++ [s!"{name}={value}"]
        trace shown
        match problem with
        | some words =>
          complain words
          setStatus 2
        | none => setStatus (← shell).outputStatus
    | "exec" :: rest =>
      match ← redirect fuel redirections with
      | some words => abort words
      | none =>
        match rest with
        | [] => setStatus 0
        | name :: arguments =>
          for (key, word) in assignments do
            assign key (← expandText fuel word)
            onShell fun s => { s with exported := key :: s.exported }
          match ← findProgram? name with
          | none => notFound "exec: " name
          | some (_, program) =>
            onShell fun s => { s with traps := s.traps.filter fun (_, action) => action == "" }
            runProgram fuel name program arguments
          leave (.exit (← shell).status)
    | name :: arguments =>
      let mut values := []
      for (key, word) in assignments do
        values := values ++ [(key, ← expandText fuel word)]
      trace (values.map (fun (v, t) => s!"{v}={t}") ++ fields)
      let isSpecial := match builtins.lookup name with
        | some (special, _) => special
        | none => (inner.lookup name).getD false
      let given := values
      keepingChannels do
        match ← redirect fuel redirections with
        | some words =>
          if isSpecial then abort words
          else
            complain words
            setStatus 2
        | none =>
          if isSpecial then
            for (key, value) in given do
              assign key value
            invoke fuel tested (name :: arguments)
          else withAssignments given (invoke fuel tested (name :: arguments))
  termination_by structural fuel

/-- Carries out the words of a command. -/
def invoke (fuel : Nat) (tested : Bool) (words : List String) : Act Unit := do
  match fuel with
  | 0 => leave .endless
  | fuel + 1 =>
    match words with
    | [] => setStatus 0
    | name :: arguments =>
      match name with
      | "exit" => leave (.exit ((← statusArgument "exit" arguments) % 256))
      | "return" => leave (.return ((← statusArgument "return" arguments) % 256))
      | "break" =>
        let levels := min (← levelsOf "break" arguments) (← shell).loops
        if levels == 0 then setStatus 0 else leave (.break levels)
      | "continue" =>
        let levels := min (← levelsOf "continue" arguments) (← shell).loops
        if levels == 0 then setStatus 0 else leave (.continue levels)
      | "eval" => runText fuel tested (" ".intercalate arguments)
      | "." =>
        match arguments with
        | [] => reject "." "filename argument required"
        | file :: _ =>
          match (← disk).read (← pathOf file) with
          | .ok bytes => runText fuel tested (Text.decodeAny bytes)
          | .error _ => abort s!".: cannot open {file}: No such file"
      | "command" =>
        match arguments with
        | "-v" :: names => tellKind false (names.take 1)
        | "-V" :: names => tellKind true (names.take 1)
        | rest =>
          onShell fun s => { s with
            functions := s.functions.filter fun (f, _) => some f != rest.head? }
          invoke fuel tested rest
      | "type" => tellKind true arguments
      | "kill" => kill fuel arguments
      | _ =>
        match (← shell).functions.get? name, builtins.lookup name with
        | some body, _ => call fuel tested body arguments
        | none, some (_, action) => action arguments
        | none, none =>
          match ← findProgram? name with
          | some (_, program) => runProgram fuel name program arguments
          | none => notFound "" name
  termination_by structural fuel

/-- Runs a program that was called by a name. -/
def runProgram (fuel : Nat) (name : String) (program : Program) (arguments : List String) :
    Act Unit := do
  match fuel with
  | 0 => leave .endless
  | fuel + 1 =>
    match program with
    | .tool action => action arguments
    | .shell => startShell fuel name arguments
  termination_by structural fuel

/-- Calls a function. -/
def call (fuel : Nat) (tested : Bool) (body : Command) (arguments : List String) : Act Unit := do
  match fuel with
  | 0 => leave .endless
  | fuel + 1 =>
    let outer ← shell
    onShell fun s => { s with
      arguments := arguments, covered := [], loops := 0, calls := s.calls + 1 }
    let result ← attempt (run fuel tested body)
    uncover outer.covered
    onShell fun s => { s with
      arguments := outer.arguments, loops := outer.loops, calls := outer.calls }
    match result with
    | .error (.return n) => setStatus n
    | result => settle result
  termination_by structural fuel

/-- Runs a text as a script of this shell. -/
def runText (fuel : Nat) (tested : Bool) (text : String) : Act Unit := do
  match fuel with
  | 0 => leave .endless
  | fuel + 1 =>
    let script := Script.read text.toList
    if script.lines.isEmpty then setStatus 0
    for line in script.lines do
      run fuel tested line
    match script.flaw with
    | none => return ()
    | some flaw =>
      onShell fun s => { s with line := flaw.line }
      abort s!"Syntax error: {flaw.flaw.message}"
  termination_by structural fuel

/-- Runs the actions for the end of a shell. -/
def runExitTrap (fuel : Nat) : Act Unit := do
  match fuel with
  | 0 => leave .endless
  | fuel + 1 =>
    match (← shell).traps.get? (trapKey 0) with
    | none => return ()
    | some action =>
      let status := (← shell).status
      onShell fun s => { s with traps := s.traps.erase (trapKey 0) }
      runText fuel false action
      setStatus status
  termination_by structural fuel

/-- Runs something up to the end of its shell. -/
def toEnd (fuel : Nat) (body : Act Unit) : Act Unit := do
  match fuel with
  | 0 => leave .endless
  | fuel + 1 =>
    let guarded (body : Act Unit) : Act Unit := do
      match ← attempt body with
      | .ok _ => return ()
      | .error l => setStatus (← statusOf l)
    guarded body
    guarded (runExitTrap fuel)
  termination_by structural fuel

/-- Starts another shell. -/
def startShell (fuel : Nat) (name : String) (arguments : List String) : Act Unit := do
  match fuel with
  | 0 => leave .endless
  | fuel + 1 =>
    match arguments with
    | "-c" :: text :: rest =>
      inNewShell (rest.headD name) (rest.drop 1) (toEnd fuel (runText fuel false text))
    | file :: rest =>
      match (← disk).read (← pathOf file) with
      | .ok bytes =>
        inNewShell file rest (toEnd fuel (runText fuel false (Text.decodeAny bytes)))
      | .error _ =>
        say 2 s!"{name}: 0: cannot open {file}: No such file\n"
        setStatus 2
    | [] =>
      let text := Text.decodeAny (← readAll 0)
      inNewShell name [] (toEnd fuel (runText fuel false text))
  termination_by structural fuel

/-- Sends a signal to the shell or to jobs. -/
def kill (fuel : Nat) (arguments : List String) : Act Unit := do
  match fuel with
  | 0 => leave .endless
  | fuel + 1 =>
    match killArguments arguments with
    | (none, _) => reject "kill" "Illegal number"
    | (_, []) =>
      reject "kill" <| "Usage: kill [-s sigspec | -signum | -sigspec] [pid | job]... or\n" ++
        "kill -l [exitstatus]"
    | (some signal, receivers) =>
      setStatus 0
      for receiver in receivers do
        let job := (← outside).jobs.find? fun j => toString j.id == receiver
        let s ← shell
        let isGroup := receiver == "0" || receiver.startsWith "-"
        if isGroup || receiver == toString s.id then
          if signal != 0 then
            match s.traps.get? (trapKey signal), signal with
            | some _, 9 => leave (.died 9)
            | some action, _ => runText fuel false action
            | none, _ =>
              if s.id != mainId && !isGroup then leave (.killed signal)
              else if s.isSubshell && !isGroup then
                onOutside fun o => { o with doom := some (o.clock, signal) }
              else leave (.died signal)
        else
          match job with
          | some job =>
            if job.ends ≤ (← outside).clock && job.ends != forever then
              say 2 s!"{(← shell).name}: {(← shell).line}: kill: No such process\n\n"
              setStatus 1
            else if signal != 0 then killJob job signal
          | none =>
            object "kill" "No such process\n"
            setStatus 1
  termination_by structural fuel

end

/-- The depth to which commands may be nested. -/
def depthLimit : Nat := 3000

/-- The shell that runs a command. -/
def Shell.start (name : String) (folder : Path) (environment : Scope) : Shell :=
  let usual : Scope := [("HOME", "/root"), ("PATH",
    "/usr/local/bin:/usr/local/sbin:/usr/local/bin:/usr/sbin:/usr/bin:/sbin:/bin")]
  let inherited := usual.merge environment
  { name := name, folder := folder
    vars := inherited.merge [("IFS", " \t\n"), ("OPTIND", "1"), ("PS1", "# "), ("PS2", "> "),
      ("PS4", "+ "), ("PPID", "1"), ("PWD", folder.text)]
    exported := "PWD" :: inherited.keys
    channels := [(0, .nothing), (1, .outlet outputOutlet), (2, .outlet errorOutlet)] }

/-- What was done to the streams of a command and to the disk. -/
def Done.deed? (d : Done) : Option (Nat × Deed) :=
  match d.effect with
  | .changed f => some (d.time, .changed f)
  | .wrote n bytes =>
    if n == outputOutlet then some (d.time, .wrote .stdout bytes)
    else if n == errorOutlet then some (d.time, .wrote .stderr bytes)
    else none

/-- What a machine does to its end. -/
def perform (start : Machine) (body : Act Unit) : Performance :=
  let (result, m) := body.run.run start
  let left : Option Leave := match result with
    | .ok _ => none
    | .error l => some l
  let exitCode : Int := match left with
    | none => m.shell.status
    | some (.exit n) => n
    | some (.return n) => n
    | some (.died signal) => -(signal : Int)
    | some _ => 0
  let ends := if left == some .endless then forever else m.outside.clock
  let released := m.outside.jobs.foldl (fun t j => if j.holds then max t j.ends else t) ends
  let deeds := (m.outside.done.reverse.filterMap Done.deed?).mergeSort fun a b => a.1 ≤ b.1
  ⟨deeds, ends, exitCode, released⟩

/-- What a shell does with a command. -/
def performCommand (name : String) (disk : Files.Disk) (folder : Path) (environment : Scope)
    (command : String) : Performance :=
  perform ⟨Shell.start name folder environment, { disk := disk }⟩
    (toEnd depthLimit (runText depthLimit false command))

end Runbook.Shell

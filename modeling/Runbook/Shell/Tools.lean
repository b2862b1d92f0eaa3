import Runbook.Pattern.Matcher
import Runbook.Shell.Format
import Runbook.Shell.Machine

/-!
# Tools

The programs that scripts may use besides the commands of the shell itself. A tool reads and writes
through the channels of the shell that starts it and leaves a status.
-/

set_option autoImplicit false

namespace Runbook.Shell.Tools

open Act

/-! ## Speaking -/

/-- Complains as the tool of the given name. -/
def grumble (tool words : String) : Act Unit := say 2 s!"{tool}: {words}\n"

/-- The wording of what is wrong with a file. -/
def wording : Files.Trouble → String
  | .refused why _ => why.wording
  | trouble => trouble.message

/-- A name in the quotes of a complaint. -/
def curly (name : String) : String := "\u2018" ++ name ++ "\u2019"

/-- A name in plain quotes. -/
def straight (name : String) : String := "'" ++ name ++ "'"

/-- The hint behind a complaint about the use of a tool. -/
def hint (tool : String) : Act Unit := say 2 s!"Try '{tool} --help' for more information.\n"

/-- Complains that an operand is missing. -/
def missingOperand (tool : String) : Act Unit := do
  grumble tool "missing operand"
  hint tool
  setStatus 1

/-- Separates arguments that are flags, given by their letters, from the others. -/
def splitFlags : List String → List Char × List String
  | [] => ([], [])
  | "--" :: rest => ([], rest)
  | word :: rest =>
    let (flags, others) := splitFlags rest
    match word.toList with
    | '-' :: '-' :: _ => (flags, others)
    | '-' :: c :: letters => (c :: letters ++ flags, others)
    | _ => (flags, word :: others)

/-- The bytes as lines without their line feeds. -/
def linesOf (current : List UInt8) : List UInt8 → List (List UInt8)
  | [] => if current.isEmpty then [] else [current.reverse]
  | b :: rest =>
    if b == 0x0A then current.reverse :: linesOf [] rest else linesOf (b :: current) rest

/-- Lines as bytes. -/
def joinLines (lines : List (List UInt8)) : List UInt8 := lines.flatMap (· ++ [0x0A])

/-- Writes bytes to the standard output. -/
def put (bytes : List UInt8) : Act Unit := do
  let _ ← write 1 bytes

/-- The bytes of the named file, or of the standard input for `-`. -/
def contents (tool name : String) : Act (Option (List UInt8)) := do
  if name == "-" || name == "/dev/stdin" then return some (← readAll 0)
  else if name == "/dev/null" then return some []
  else
    match (← disk).read (← pathOf name) with
    | .ok bytes => return some bytes
    | .error trouble =>
      grumble tool s!"{name}: {wording trouble}"
      return none

/-- The bytes of all named files, or of the standard input if none is named. -/
def allContents (tool : String) (names : List String) : Act (List UInt8) := do
  if names.isEmpty then readAll 0
  else
    let mut all := []
    for name in names do
      match ← contents tool name with
      | some bytes => all := all ++ bytes
      | none => setStatus 1
    return all

/-! ## Text -/

/-- Hands on what comes, as soon as it comes; `fuel` bounds the number of pieces. -/
def handOn (n : Nat) : Nat → Act Unit
  | 0 => return ()
  | fuel + 1 => do
    match ← readChunk n with
    | none => return ()
    | some bytes =>
      put bytes
      handOn n fuel

/-- Hands on the standard input. -/
def handOnInput : Act Unit := do
  match ← supplyOf 0 with
  | none => return ()
  | some n =>
    let size := (((← outside).supplies.lookup n).map fun s => s.chunks.length).getD 0
    handOn n (size + 1)

/-- Writes files one after the other. -/
def cat (arguments : List String) : Act Unit := do
  setStatus 0
  let (flags, names) := splitFlags arguments
  if !flags.isEmpty && flags != ['u'] then
    if flags.contains 'n' then
      let lines := linesOf [] (← allContents "cat" names)
      let numbered := lines.zipIdx.flatMap fun (line, k) =>
        let number := toString (k + 1)
        Text.encodeAny ("".pushn ' ' (6 - number.length) ++ number ++ "\t") ++ line ++ [0x0A]
      put numbered
    else
      let first := flags.headD ' '
      grumble "cat" s!"invalid option -- '{first}'"
      hint "cat"
      setStatus 1
  else if names.isEmpty then handOnInput
  else
    for name in names do
      if name == "-" then handOnInput
      else
        match ← contents "cat" name with
        | some bytes => put bytes
        | none => setStatus 1

/-- Whether a byte is white. -/
def isWhite (b : UInt8) : Bool := b == 0x20 || (9 ≤ b && b ≤ 13)

/-- The number of words in bytes. -/
def countWords (inWord : Bool) : List UInt8 → Nat
  | [] => 0
  | b :: rest =>
    if isWhite b then countWords false rest
    else (if inWord then 0 else 1) + countWords true rest

/-- Counts lines, words and bytes. -/
def wc (arguments : List String) : Act Unit := do
  setStatus 0
  let (flags, names) := splitFlags arguments
  let wants (c : Char) : Bool := flags.contains c || (flags.isEmpty && c != 'm')
  let counts (bytes : List UInt8) : List Nat :=
    (if wants 'l' then [bytes.count 0x0A] else []) ++
    (if wants 'w' then [countWords false bytes] else []) ++
    (if flags.contains 'm' then [(Text.Utf8.decodeLossy bytes).length] else []) ++
    (if wants 'c' then [bytes.length] else [])
  let isSingle := (counts []).length == 1 && names.length ≤ 1
  let width (total : Nat) : Nat :=
    if isSingle then 0 else if names.isEmpty then 7 else (toString total).length
  let row (width : Nat) (numbers : List Nat) (name : Option String) : String :=
    let cells := numbers.map fun n =>
      let text := toString n
      "".pushn ' ' (width - text.length) ++ text
    " ".intercalate cells ++ (match name with
      | some name => " " ++ name
      | none => "") ++ "\n"
  if names.isEmpty then say 1 (row (width 0) (counts (← readAll 0)) none)
  else
    let mut rows := []
    let mut all := []
    for name in names do
      match ← contents "wc" name with
      | some bytes =>
        rows := rows ++ [(counts bytes, name)]
        all := all ++ bytes
      | none => setStatus 1
    let w := width all.length
    for (numbers, name) in rows do
      say 1 (row w numbers (some name))
    if names.length > 1 then say 1 (row w (counts all) (some "total"))

/-- The characters that a set of `tr` lists; `fuel` bounds its length. -/
def setChars : Nat → List Char → List UInt8
  | 0, _ => []
  | fuel + 1, text =>
    match text with
    | [] => []
    | '[' :: ':' :: rest =>
      let name := rest.takeWhile Char.isAlpha
      match rest.drop name.length with
      | ':' :: ']' :: more =>
        (classRanges (String.ofList name)).flatMap (fun (a, b) =>
          (List.range (b.toNat + 1 - a.toNat)).map fun k => UInt8.ofNat (a.toNat + k)) ++
          setChars fuel more
      | _ => 0x5B :: setChars fuel (':' :: rest)
    | '\\' :: rest =>
      let (b, rest) := Format.escape rest
      b :: setChars fuel rest
    | a :: '-' :: b :: rest =>
      (List.range (b.toNat + 1 - a.toNat)).map (fun k => UInt8.ofNat (a.toNat + k)) ++
        setChars fuel rest
    | c :: rest => Text.charBytes c ++ setChars fuel rest

/-- Leaves out repetitions of the given bytes. -/
def squeeze (which : List UInt8) (last : Option UInt8) : List UInt8 → List UInt8
  | [] => []
  | b :: rest =>
    if last == some b && which.contains b then squeeze which last rest
    else b :: squeeze which (some b) rest

/-- Replaces, leaves out or squeezes characters. -/
def tr (arguments : List String) : Act Unit := do
  setStatus 0
  let flagged := arguments.takeWhile fun a => a.startsWith "-" && a.length > 1
  let flags := (splitFlags flagged).1
  let bytes ← readAll 0
  match arguments.drop flagged.length with
  | [] => missingOperand "tr"
  | first :: rest =>
    let listed := setChars (first.length + 1) first.toList
    let complement := flags.contains 'c' || flags.contains 'C'
    let isIn (b : UInt8) : Bool := listed.contains b != complement
    let target := match rest with
      | second :: _ => setChars (second.length + 1) second.toList
      | [] => []
    if flags.contains 'd' then
      let left := bytes.filter (!isIn ·)
      put (if flags.contains 's' then squeeze target none left else left)
    else if target.isEmpty then
      put (squeeze (bytes.filter isIn) none bytes)
    else
      let translate (b : UInt8) : UInt8 :=
        if !isIn b then b
        else if complement then target.getLastD b
        else
          match listed.idxOf? b with
          | some k => (target[k]?).getD (target.getLastD b)
          | none => b
      let out := bytes.map translate
      put (if flags.contains 's' then squeeze target none out else out)

/-- How much of a text `head` and `tail` write. -/
structure Extent where
  inBytes : Bool
  count : Int
  /-- Whether it is counted from the start even by `tail`. -/
  fromStart : Bool

/-- The extent that the value of an option names. -/
def Extent.ofText (inBytes : Bool) (text : String) : Extent :=
  let digits := if text.startsWith "+" then String.ofList (text.toList.drop 1) else text
  let (number, length) := Format.leadingInt digits.toList
  let unit : Int := match digits.toList.drop length with
    | ['K'] => 1024
    | ['k'] => 1024
    | ['k', 'B'] => 1000
    | ['M'] => 1048576
    | _ => 1
  ⟨inBytes, number * unit, text.startsWith "+"⟩

/-- The extent given to `head` or `tail`, and the files. -/
def extentAndNames : List String → Extent × List String
  | [] => (⟨false, 10, false⟩, [])
  | "-n" :: n :: rest => (.ofText false n, (extentAndNames rest).2)
  | "-c" :: n :: rest => (.ofText true n, (extentAndNames rest).2)
  | word :: rest =>
    let (extent, names) := extentAndNames rest
    match word.toList with
    | '-' :: 'n' :: digits => (.ofText false (String.ofList digits), names)
    | '-' :: 'c' :: digits => (.ofText true (String.ofList digits), names)
    | '-' :: d :: digits =>
      if d.isDigit then (.ofText false (String.ofList (d :: digits)), names) else (extent, names)
    | _ => (extent, word :: names)

/-- The first lines of bytes. -/
def takeLines (n : Nat) : List UInt8 → List UInt8
  | [] => []
  | b :: rest => if n == 0 then [] else b :: takeLines (if b == 0x0A then n - 1 else n) rest

/-- What is left without the first lines of bytes. -/
def dropLines (n : Nat) : List UInt8 → List UInt8
  | [] => []
  | b :: rest => if n == 0 then b :: rest else dropLines (if b == 0x0A then n - 1 else n) rest

/-- The length of bytes in what an extent counts. -/
def Extent.lengthOf (e : Extent) (bytes : List UInt8) : Nat :=
  if e.inBytes then bytes.length else (linesOf [] bytes).length

/-- The first part of bytes. -/
def Extent.head (e : Extent) (bytes : List UInt8) : List UInt8 :=
  let n := if e.count < 0 then e.lengthOf bytes - e.count.natAbs else e.count.toNat
  if e.inBytes then bytes.take n else takeLines n bytes

/-- The last part of bytes. -/
def Extent.tail (e : Extent) (bytes : List UInt8) : List UInt8 :=
  let n := if e.fromStart then e.count.toNat - 1 else e.lengthOf bytes - e.count.natAbs
  if e.inBytes then bytes.drop n else dropLines n bytes

/-- Writes a part of each file, under a heading if there are several. -/
def showParts (tool : String) (e : Extent) (part : List UInt8 → List UInt8) (names : List String) :
    Act Unit := do
  setStatus 0
  if names.isEmpty then put (part (← readAll 0))
  else
    let mut gap := ""
    for name in names do
      let bytes? ←
        if name == "-" then some <$> readAll 0
        else if name == "/dev/null" then pure (some [])
        else if name == "/dev/zero" then pure (some (List.replicate e.count.natAbs 0))
        else
          match (← disk).read (← pathOf name) with
          | .ok bytes => pure (some bytes)
          | .error trouble => do
            grumble tool s!"cannot open {straight name} for reading: {wording trouble}"
            setStatus 1
            pure none
      match bytes? with
      | none => pure ()
      | some bytes =>
        if names.length > 1 then
          let heading := if name == "-" then "standard input" else name
          say 1 s!"{gap}==> {heading} <==\n"
        gap := "\n"
        put (part bytes)

/-- Writes the first lines. -/
def head (arguments : List String) : Act Unit := do
  let (extent, names) := extentAndNames arguments
  showParts "head" extent extent.head names

/-- Writes the last lines. -/
def tail (arguments : List String) : Act Unit := do
  let (extent, names) := extentAndNames arguments
  showParts "tail" extent extent.tail names

/-- Writes lines sorted. -/
def sort (arguments : List String) : Act Unit := do
  setStatus 0
  let (flags, names) := splitFlags arguments
  let missing ← names.filterM fun name => do
    return name != "-" && !(← disk).isFile (← pathOf name)
  for name in missing do
    grumble "sort" s!"cannot read: {name}: No such file or directory"
  let all ← if missing.isEmpty then allContents "sort" names else pure []
  let lines := linesOf [] all
  let text (line : List UInt8) : String := Text.decodeAny line
  let number (line : List UInt8) : Int := (Format.leadingInt (text line).toList).1
  let before (a b : List UInt8) : Bool :=
    if flags.contains 'n' then number a < number b || (number a == number b && text a ≤ text b)
    else text a ≤ text b
  let sorted := lines.mergeSort before
  let sorted := if flags.contains 'r' then sorted.reverse else sorted
  put (joinLines (if flags.contains 'u' then sorted.eraseReps else sorted))
  if !missing.isEmpty then setStatus 2

/-- Writes lines without repetitions of the one before. -/
def uniq (arguments : List String) : Act Unit := do
  setStatus 0
  let (flags, names) := splitFlags arguments
  let groups := (linesOf [] (← allContents "uniq" names)).splitBy (· == ·)
  let groups := groups.filter fun g =>
    (!flags.contains 'd' || g.length > 1) && (!flags.contains 'u' || g.length == 1)
  put <| groups.flatMap fun g =>
    let line := g.headD []
    if flags.contains 'c' then
      let count := toString g.length
      Text.encodeAny ("".pushn ' ' (7 - count.length) ++ count ++ " ") ++ line ++ [0x0A]
    else line ++ [0x0A]

/-- Writes lines backwards. -/
def rev (arguments : List String) : Act Unit := do
  setStatus 0
  let lines := linesOf [] (← allContents "rev" arguments)
  put (joinLines (lines.map fun l =>
    Text.encodeAny (String.ofList (Text.decodeAny l).toList.reverse)))

/-- The positions that a list such as `1,3-5` names, up to a last one. -/
def positions (last : Nat) (list : String) : List Nat :=
  (list.splitOn ",").flatMap fun part =>
    match part.splitOn "-" with
    | [one] => (one.toNat?.map fun n => [n]).getD []
    | [from_, to_] =>
      let start := from_.toNat?.getD 1
      let stop := min last (to_.toNat?.getD last)
      (List.range (stop + 1 - start)).map (· + start)
    | _ => []

/-- Separates options with values, given by their letters, from the other arguments. -/
def valuedOptions : List String → List (Char × String) × List String
  | [] => ([], [])
  | [word] =>
    match word.toList with
    | '-' :: c :: value => ([(c, String.ofList value)], [])
    | _ => ([], [word])
  | word :: next :: rest =>
    match word.toList with
    | '-' :: c :: d :: value =>
      let (os, names) := valuedOptions (next :: rest)
      ((c, String.ofList (d :: value)) :: os, names)
    | ['-', 's'] => valuedOptions (next :: rest)
    | ['-', c] =>
      let (os, names) := valuedOptions rest
      ((c, next) :: os, names)
    | _ =>
      let (os, names) := valuedOptions (next :: rest)
      (os, word :: names)

/-- Writes parts of lines. -/
def cut (arguments : List String) : Act Unit := do
  setStatus 0
  let (os, names) := valuedOptions arguments
  let lines := (linesOf [] (← allContents "cut" names)).map Text.decodeAny
  match os.lookup 'f' with
  | some list =>
    let mark := (os.lookup 'd').getD "\t"
    for line in lines do
      let fields := line.splitOn mark
      let chosen := positions fields.length list
      let kept := fields.zipIdx.filter fun (_, k) => chosen.contains (k + 1)
      say 1 ((if fields.length == 1 then line else mark.intercalate (kept.map (·.1))) ++ "\n")
  | none =>
    let list := ((os.lookup 'c').orElse fun _ => os.lookup 'b').getD ""
    for line in lines do
      let chosen := positions line.length list
      let kept := line.toList.zipIdx.filter fun (_, k) => chosen.contains (k + 1)
      say 1 (String.ofList (kept.map (·.1)) ++ "\n")

/-- Writes its arguments, with escapes only if it is asked for them. -/
def echo (arguments : List String) : Act Unit := do
  let isFlag (word : String) : Bool :=
    word.startsWith "-" && word.length > 1 && (word.toList.drop 1).all ['n', 'e', 'E'].contains
  let flags := (arguments.takeWhile isFlag).flatMap fun word => word.toList.drop 1
  let text := " ".intercalate (arguments.dropWhile isFlag)
  let (bytes, isEnd) := match (flags.filter (· != 'n')).getLast? with
    | some 'e' => Format.escaped text
    | _ => (Text.encodeAny text, false)
  put (if isEnd || flags.contains 'n' then bytes else bytes ++ [0x0A])
  setStatus 0

/-- Writes the variables of the environment, or the values of some. -/
def printenv (arguments : List String) : Act Unit := do
  setStatus 0
  let s ← shell
  let there := s.vars.filter fun (name, _) => s.exported.contains name
  if arguments.isEmpty then
    for (name, value) in there do
      say 1 s!"{name}={value}\n"
  else
    for name in arguments do
      match there.lookup name with
      | some value => say 1 s!"{value}\n"
      | none => setStatus 1

/-- Writes the name of the system. -/
def uname (_ : List String) : Act Unit := do
  say 1 "Linux\n"
  setStatus 0

/-- Hands on the standard input and writes it to files as well. -/
def tee (arguments : List String) : Act Unit := do
  setStatus 0
  let (flags, names) := splitFlags arguments
  let bytes ← readAll 0
  for name in names do
    let path ← pathOf name
    match ← changeDisk fun d => d.writeBytes path <|
      if flags.contains 'a' then (d.read path |>.toOption |>.getD []) ++ bytes else bytes with
    | some trouble =>
      grumble "tee" s!"{name}: {wording trouble}"
      setStatus 1
    | none => pure ()
  put bytes

/-- Writes the lines in which a pattern is found. -/
def grep (arguments : List String) : Act Unit := do
  let (flags, others) := splitFlags arguments
  match others with
  | [] =>
    say 2 "Usage: grep [OPTION]... PATTERNS [FILE]...\nTry 'grep --help' for more information.\n"
    setStatus 2
  | pattern :: names =>
    let small (s : String) : String := if flags.contains 'i' then s.map Char.toLower else s
    let finds (line : String) : Bool :=
      if flags.contains 'F' then ((small line).splitOn (small pattern)).length > 1
      else
        match Pattern.read pattern with
        | .ok program => program.search (small line)
        | .error _ => ((small line).splitOn (small pattern)).length > 1
    setStatus 0
    let lines := linesOf [] (← allContents "grep" names)
    let hits := lines.zipIdx.filter fun (line, _) =>
      finds (Text.decodeAny line) != flags.contains 'v'
    let failed := (← shell).status != 0
    if flags.contains 'c' then say 1 s!"{hits.length}\n"
    else if !flags.contains 'q' then
      put <| hits.flatMap fun (line, k) =>
        (if flags.contains 'n' then Text.encodeAny s!"{k + 1}:" else []) ++ line ++ [0x0A]
    setStatus (if failed then 2 else if hits.isEmpty then 1 else 0)

/-! ## Numbers and time -/

/-- The numbers from one to another. -/
def span (from_ step to_ : Int) : List Int :=
  if step == 0 then []
  else
    let count := (to_ - from_).fdiv step + 1
    (List.range (min count.toNat 1000000)).map fun (k : Nat) => from_ + step * k

/-- Writes the numbers from one to another. -/
def seq (arguments : List String) : Act Unit := do
  setStatus 0
  let (separator, words) := match arguments with
    | "-s" :: s :: rest => (s, rest)
    | _ => ("\n", arguments)
  let numbers := words.filterMap String.toInt?
  if numbers.length != words.length then
    let bad := (words.find? fun w => w.toInt?.isNone).getD ""
    grumble "seq" s!"invalid floating point argument: {curly bad}"
    hint "seq"
    setStatus 1
  else
    let listed := match numbers with
      | [last] => span 1 1 last
      | [first, last] => span first 1 last
      | [first, step, last] => span first step last
      | _ => []
    if !listed.isEmpty then say 1 (separator.intercalate (listed.map toString) ++ "\n")

/-- The milliseconds that an interval names. -/
def interval? (text : String) : Option Nat :=
  let cs := text.toList
  let whole := cs.takeWhile Char.isDigit
  let (fraction, tail) := match cs.drop whole.length with
    | '.' :: rest =>
      let digits := rest.takeWhile Char.isDigit
      (digits, rest.drop digits.length)
    | rest => ([], rest)
  let unit : Option Nat := match tail with
    | [] => some 1
    | ['s'] => some 1
    | ['m'] => some 60
    | ['h'] => some 3600
    | ['d'] => some 86400
    | _ => none
  if text == "infinity" || text == "inf" then some (Nat.pow 10 12)
  else if whole.isEmpty && fraction.isEmpty then none
  else
    let value (digits : List Char) : Nat := digits.foldl (fun n c => n * 10 + (c.toNat - 48)) 0
    unit.map fun u =>
      (value whole * 1000 + value ((fraction ++ ['0', '0', '0']).take 3)) * u

/-- Lets time pass. -/
def sleep (arguments : List String) : Act Unit := do
  if arguments.isEmpty then missingOperand "sleep"
  else
    match arguments.find? fun a => (interval? a).isNone with
    | some bad =>
      grumble "sleep" s!"invalid time interval {curly bad}"
      hint "sleep"
      setStatus 1
    | none =>
      pass ((arguments.filterMap interval?).foldl (· + ·) 0)
      setStatus 0

/-- Writes a word again and again, as long as a reader may want it. -/
def yes (arguments : List String) : Act Unit := do
  let word := if arguments.isEmpty then "y" else " ".intercalate arguments
  say 1 ("".intercalate (List.replicate 60000 (word ++ "\n")))
  setStatus 0

/-! ## Files -/

/-- Uses a change of the disk for each of some names, and complains where it is refused. -/
def forEach (tool what : String) (inQuotes : String → String) (names : List String)
    (change : Files.Disk → Path → Except Files.Trouble Files.Disk) : Act Unit := do
  setStatus 0
  for name in names do
    let path ← pathOf name
    match ← changeDisk fun d => change d path with
    | some trouble =>
      grumble tool s!"{what} {inQuotes name}: {wording trouble}"
      setStatus 1
    | none => pure ()

/-- Makes folders. -/
def mkdir (arguments : List String) : Act Unit := do
  let (flags, names) := splitFlags arguments
  if names.isEmpty then missingOperand "mkdir"
  else forEach "mkdir" "cannot create directory" curly names fun d p =>
    if flags.contains 'p' then d.makeFolders p
    else d.change p Files.Node.makeFolder

/-- Takes files away. -/
def rm (arguments : List String) : Act Unit := do
  let (flags, names) := splitFlags arguments
  let forced := flags.contains 'f'
  let deep := flags.contains 'r' || flags.contains 'R'
  if names.isEmpty then if forced then setStatus 0 else missingOperand "rm"
  else
    let there ← names.filterM fun name => do
      return !forced || (← disk).has (← pathOf name)
    forEach "rm" "cannot remove" straight there fun d p => if deep then d.removeTree p else d.unlink p

/-- Takes empty folders away. -/
def rmdir (arguments : List String) : Act Unit := do
  let (_, names) := splitFlags arguments
  setStatus 0
  for name in names do
    let path ← pathOf name
    match (← disk).names path with
    | .ok [] =>
      let _ ← changeDisk fun d => d.removeTree path
    | .ok _ =>
      grumble "rmdir" s!"failed to remove '{name}': Directory not empty"
      setStatus 1
    | .error trouble =>
      grumble "rmdir" s!"failed to remove '{name}': {wording trouble}"
      setStatus 1

/-- Makes files that may already be there. -/
def touch (arguments : List String) : Act Unit := do
  let (_, names) := splitFlags arguments
  forEach "touch" "cannot touch" straight names fun d p =>
    if d.has p then .ok d else d.writeBytes p []

/-- Where a file goes: into a folder under its own name, or to the path itself. -/
def destination (d : Files.Disk) (source target : Path) : Path :=
  if d.isFolder target then target.child source.name else target

/-- Copies or moves a file. -/
def transfer (tool : String) (moves : Bool) (arguments : List String) : Act Unit := do
  let (_, names) := splitFlags arguments
  setStatus 0
  match names.reverse with
  | [] => missingOperand tool
  | target :: sources =>
    let target ← pathOf target
    for name in sources.reverse do
      let source ← pathOf name
      match (← disk).query source Files.Node.find with
      | .error trouble =>
        grumble tool s!"cannot stat '{name}': {wording trouble}"
        setStatus 1
      | .ok node =>
        match ← changeDisk fun d => do
          let place := destination d source target
          let d ← d.change place (Files.Node.plant node)
          if moves then d.removeTree source else return d with
        | some trouble =>
          grumble tool s!"cannot create regular file '{target.text}': {wording trouble}"
          setStatus 1
        | none => pure ()

/-- Writes the names in folders. -/
def ls (arguments : List String) : Act Unit := do
  setStatus 0
  let (flags, names) := splitFlags arguments
  let shown (names : List String) : List String :=
    (if flags.contains 'a' then [".", ".."] else []) ++
      names.filter fun name => flags.contains 'a' || flags.contains 'A' || !name.startsWith "."
  let names := if names.isEmpty then ["."] else names
  let mut files := []
  let mut folders := []
  for name in names do
    let path ← pathOf name
    if (← disk).isFolder path && !flags.contains 'd' then folders := folders ++ [name]
    else if (← disk).has path then files := files ++ [name]
    else
      grumble "ls" s!"cannot access '{name}': No such file or directory"
      setStatus 2
  for name in files do
    say 1 s!"{name}\n"
  let headed := names.length > 1
  let mut isFirst := files.isEmpty
  for name in folders do
    match (← disk).names (← pathOf name) with
    | .ok entries =>
      if headed then say 1 ((if isFirst then "" else "\n") ++ name ++ ":\n")
      for entry in shown entries do
        say 1 s!"{entry}\n"
    | .error _ => pure ()
    isFirst := false

/-- Writes the last name of a path, without a given ending. -/
def basename (arguments : List String) : Act Unit := do
  match arguments with
  | [] => missingOperand "basename"
  | path :: more =>
    let p := Path.ofString path
    let name := if p.names.isEmpty then (if p.root == "" then path else "/") else p.name
    let name := match more with
      | suffix :: _ =>
        if name.endsWith suffix && name != suffix then
          String.ofList (name.toList.take (name.length - suffix.length))
        else name
      | [] => name
    say 1 s!"{name}\n"
    setStatus 0

/-- Writes a path without its last name. -/
def dirname (arguments : List String) : Act Unit := do
  match arguments with
  | [] => missingOperand "dirname"
  | path :: _ =>
    say 1 s!"{(Path.ofString path).parent.text}\n"
    setStatus 0

/-- The tools by name. -/
def named : List (String × (List String → Act Unit)) :=
  [("cat", cat), ("wc", wc), ("tr", tr), ("head", head), ("tail", tail), ("sort", sort),
    ("uniq", uniq), ("rev", rev), ("tee", tee), ("grep", grep), ("seq", seq), ("sleep", sleep),
    ("mkdir", mkdir), ("rm", rm), ("rmdir", rmdir), ("touch", touch),
    ("cp", transfer "cp" false), ("mv", transfer "mv" true), ("ls", ls), ("basename", basename),
    ("dirname", dirname), ("yes", yes), ("cut", cut), ("uname", uname), ("echo", echo),
    ("env", printenv), ("printenv", printenv), ("sync", fun _ => setStatus 0)]

end Runbook.Shell.Tools

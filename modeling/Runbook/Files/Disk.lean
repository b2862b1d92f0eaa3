import Runbook.Files.Path
import Runbook.Files.Tree
import Runbook.Text.Half
import Runbook.Text.Quoted
import Runbook.Text.Utf8

/-!
# The disk

A disk is a file tree together with the name of its top folder, by which absolute paths are
understood. Its operations take paths, and their troubles name the path as it was given. Writing a
text opens the file first and then encodes the text, so that a text that cannot be encoded leaves an
empty file.
-/

set_option autoImplicit false

namespace Runbook.Files

/-- What can be wrong with a use of the disk. -/
inductive Trouble where
  /-- The system refuses it. -/
  | refused (why : Refusal) (path : String)
  /-- The path holds a null character. -/
  | nullCharacter
  /-- A text holds unpaired halves of characters, the first `count` of them from `place` on. -/
  | unencodable (code place count : Nat)
  deriving DecidableEq, Repr

/-- Whether the system refused. -/
def Trouble.isRefusal : Trouble → Bool
  | refused .. => true
  | _ => false

/-- The message of a trouble. -/
def Trouble.message : Trouble → String
  | refused why path => s!"[Errno {why.number}] {why.wording}: {Text.quoted path}"
  | nullCharacter => "embedded null byte"
  | unencodable code place count =>
    if count ≤ 1 then
      s!"'utf-8' codec can't encode character '\\u{String.ofList (Nat.toDigits 16 code)}' " ++
        s!"in position {place}: surrogates not allowed"
    else
      s!"'utf-8' codec can't encode characters in position {place}-{place + count - 1}: " ++
        "surrogates not allowed"

/-- The kind of error that a trouble is reported as. -/
def Trouble.kind : Trouble → String
  | refused why _ => why.kind
  | nullCharacter => "ValueError"
  | unencodable .. => "UnicodeEncodeError"

/-- The trouble with encoding a text. -/
def encodingTrouble? (s : String) : Option Trouble :=
  (Text.firstHalf? s.toList).map fun (place, code) =>
    .unencodable code place
      ((s.toList.drop place).takeWhile fun c => (Text.halfCode? c).isSome).length

/-- The trouble with handing a text over to the system. -/
def handoverTrouble? (text : String) : Option Trouble :=
  match Text.strayRun? 0 text.toList with
  | some (code, place, count) => some (.unencodable code place count)
  | none => if text.toList.contains '\x00' then some .nullCharacter else none

/-- The trouble with a path as such. -/
def pathTrouble? (p : Path) : Option Trouble := handoverTrouble? p.text

/-- A file tree and the name of its top folder. -/
structure Disk where
  home : Path
  top : Node := .folder []
  deriving Repr

namespace Disk

/-- Whether a path begins with that of the top folder. -/
def isWithin (d : Disk) (p : Path) : Bool :=
  p.root == d.home.root && d.home.names.isPrefixOf p.names

/-- A path in full, as seen from the top folder. -/
def inFull (d : Disk) (p : Path) : Path := if d.isWithin p then p else d.home.join p

/-- The location that a path names, seen from the top folder. -/
def locate (d : Disk) (p : Path) : Option Location :=
  if d.isWithin p then
    some ((Path.resolveNames [] (p.names.drop d.home.names.length)).map systemName)
  else if p.root == "" then some ((Path.resolveNames [] p.names).map systemName)
  else none

/-- Uses the tree at the location of a path. -/
def query {α : Type} (d : Disk) (p : Path) (use : Location → Node → Except Refusal α) :
    Except Trouble α :=
  match pathTrouble? p with
  | some trouble => .error trouble
  | none =>
    match d.locate p with
    | none => .error (.refused .notFound p.text)
    | some at_ => (use at_ d.top).mapError fun why => .refused why p.text

/-- Changes the tree at the location of a path. -/
def change (d : Disk) (p : Path) (use : Location → Node → Except Refusal Node) :
    Except Trouble Disk :=
  (d.query p use).map fun top => { d with top := top }

/-- Whether there is anything at a path. -/
def has (d : Disk) (p : Path) : Bool := (d.query p Node.find).isOk

/-- Whether there is a file at a path. -/
def isFile (d : Disk) (p : Path) : Bool :=
  match d.query p Node.find with
  | .ok (.file _) => true
  | _ => false

/-- Whether there is a folder at a path. -/
def isFolder (d : Disk) (p : Path) : Bool :=
  match d.query p Node.find with
  | .ok (.folder _) => true
  | _ => false

/-- The bytes of a file. -/
def read (d : Disk) (p : Path) : Except Trouble (List UInt8) := d.query p Node.read

/-- The names in a folder, sorted. -/
def names (d : Disk) (p : Path) : Except Trouble (List String) := d.query p Node.names

/-- Puts bytes into a file. -/
def writeBytes (d : Disk) (p : Path) (bytes : List UInt8) : Except Trouble Disk :=
  d.change p fun at_ top => top.write at_ bytes

/-- Takes a file away. -/
def unlink (d : Disk) (p : Path) : Except Trouble Disk := d.change p Node.unlink

/-- Takes a file or a folder with all that it holds away. -/
def removeTree (d : Disk) (p : Path) : Except Trouble Disk := d.change p Node.removeTree

/-- Makes a folder that may already be there. -/
def makeFolder (d : Disk) (p : Path) : Except Trouble Disk :=
  match d.change p Node.makeFolder with
  | .ok d => .ok d
  | .error trouble => if d.isFolder p then .ok d else .error trouble

/-- Makes a folder and the missing ones above it; `depth` bounds their number. -/
def makeFoldersTo : Nat → Disk → Path → Except Trouble Disk
  | 0, d, p => d.makeFolder p
  | depth + 1, d, p =>
    match d.makeFolder p with
    | .error (.refused .notFound path) =>
      if p.names.isEmpty then .error (.refused .notFound path)
      else do
        let d ← makeFoldersTo depth d p.parent
        d.makeFolder p
    | result => result

/-- Makes a folder and the missing ones above it. -/
def makeFolders (d : Disk) (p : Path) : Except Trouble Disk :=
  makeFoldersTo p.names.length d p

/-- Puts a text into a file. The new disk is there also if the text cannot be encoded. -/
def writeText (d : Disk) (p : Path) (text : String) : Disk × Option Trouble :=
  match d.writeBytes p [] with
  | .error trouble => (d, some trouble)
  | .ok emptied =>
    match encodingTrouble? text with
    | some trouble => (emptied, some trouble)
    | none =>
      match d.writeBytes p (Text.Utf8.encode text) with
      | .ok written => (written, none)
      | .error trouble => (emptied, some trouble)

end Disk

end Runbook.Files

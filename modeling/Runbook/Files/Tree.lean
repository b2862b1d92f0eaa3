import Runbook.Assoc
import Runbook.Text.AnyBytes

/-!
# File trees

A tree of folders and files, and what may be done at a location, which is a list of names from the
top. Every operation either succeeds or says why the system refuses it. The system knows a name by
its bytes; `systemName` is the name that it gives back for one.
-/

set_option autoImplicit false

namespace Runbook.Files

/-- Why the system refuses an operation. -/
inductive Refusal where
  | notFound
  | permission
  | alreadyThere
  | notFolder
  | isFolder
  | nameTooLong
  deriving DecidableEq, Repr

/-- The number of a refusal. -/
def Refusal.number : Refusal → Nat
  | notFound => 2
  | permission => 13
  | alreadyThere => 17
  | notFolder => 20
  | isFolder => 21
  | nameTooLong => 36

/-- The wording of a refusal. -/
def Refusal.wording : Refusal → String
  | notFound => "No such file or directory"
  | permission => "Permission denied"
  | alreadyThere => "File exists"
  | notFolder => "Not a directory"
  | isFolder => "Is a directory"
  | nameTooLong => "File name too long"

/-- The kind of error that a refusal is reported as. -/
def Refusal.kind : Refusal → String
  | notFound => "FileNotFoundError"
  | permission => "PermissionError"
  | alreadyThere => "FileExistsError"
  | notFolder => "NotADirectoryError"
  | isFolder => "IsADirectoryError"
  | nameTooLong => "OSError"

/-- A file with its bytes, or a folder with its entries. -/
inductive Node where
  | file (bytes : List UInt8)
  | folder (entries : List (String × Node))
  deriving Inhabited, Repr

/-- A place in a tree. -/
abbrev Location := List String

/-- The longest name, in bytes. -/
def nameLimit : Nat := 255

/-- Whether a name is too long for the system. -/
def isTooLong (name : String) : Bool := (Text.encodeAny name).length > nameLimit

/-- The name with the same bytes in which only faulty bytes are kept as halves. -/
def systemName (name : String) : String :=
  if name.toList.any fun c => (Text.strayByte? c).isSome then Text.decodeAny (Text.encodeAny name)
  else name

namespace Node

/-- What is at a location. -/
def find : Location → Node → Except Refusal Node
  | [], node => .ok node
  | _ :: _, file _ => .error .notFolder
  | name :: rest, folder entries =>
    if isTooLong name then .error .nameTooLong
    else
      match Assoc.get? entries name with
      | some node => find rest node
      | none => .error .notFound

/-- Changes the entries of the folder at a location. -/
def change (f : Assoc Node → Except Refusal (Assoc Node)) : Location → Node → Except Refusal Node
  | _, file _ => .error .notFolder
  | [], folder entries => (f entries).map folder
  | name :: rest, folder entries =>
    if isTooLong name then .error .nameTooLong
    else
      match Assoc.get? entries name with
      | some node => (change f rest node).map fun node => folder (Assoc.put entries name node)
      | none => .error .notFound

/-- Changes the entry with the given name of the folder at a location. -/
def changeEntry (f : Option Node → Except Refusal (Option Node)) (at_ : Location) (name : String)
    (top : Node) : Except Refusal Node :=
  top.change (fun entries =>
    if isTooLong name then .error .nameTooLong
    else (f (Assoc.get? entries name)).map fun
      | some node => Assoc.put entries name node
      | none => Assoc.erase entries name) at_

/-- Makes a folder. -/
def makeFolder (at_ : Location) (top : Node) : Except Refusal Node :=
  match at_.getLast? with
  | none => .error .alreadyThere
  | some name =>
    top.changeEntry (fun
      | some _ => .error .alreadyThere
      | none => .ok (some (folder []))) at_.dropLast name

/-- The bytes of a file. -/
def read (at_ : Location) (top : Node) : Except Refusal (List UInt8) := do
  match ← top.find at_ with
  | file bytes => return bytes
  | folder _ => throw .isFolder

/-- Puts a file with the given bytes in place of one that may be there. -/
def write (at_ : Location) (bytes : List UInt8) (top : Node) : Except Refusal Node :=
  match at_.getLast? with
  | none => .error .isFolder
  | some name =>
    top.changeEntry (fun
      | some (folder _) => .error .isFolder
      | _ => .ok (some (file bytes))) at_.dropLast name

/-- Puts a node in place of a file that may be there. -/
def plant (node : Node) (at_ : Location) (top : Node) : Except Refusal Node :=
  match at_.getLast? with
  | none => .error .isFolder
  | some name =>
    top.changeEntry (fun
      | some (folder _) => .error .isFolder
      | _ => .ok (some node)) at_.dropLast name

/-- Takes a file away. -/
def unlink (at_ : Location) (top : Node) : Except Refusal Node :=
  match at_.getLast? with
  | none => .error .isFolder
  | some name =>
    top.changeEntry (fun
      | some (folder _) => .error .isFolder
      | some (file _) => .ok none
      | none => .error .notFound) at_.dropLast name

/-- Takes a file or a folder with all that it holds away. -/
def removeTree (at_ : Location) (top : Node) : Except Refusal Node :=
  match at_.getLast? with
  | none => .ok (folder [])
  | some name =>
    top.changeEntry (fun
      | some _ => .ok none
      | none => .error .notFound) at_.dropLast name

/-- The names in a folder, sorted. -/
def names (at_ : Location) (top : Node) : Except Refusal (List String) := do
  match ← top.find at_ with
  | folder entries => return (Assoc.keys entries).mergeSort fun a b => a ≤ b
  | file _ => throw .notFolder

/-- Whether there is a file at a location. -/
def isFile (at_ : Location) (top : Node) : Bool :=
  match top.find at_ with
  | .ok (file _) => true
  | _ => false

/-- Whether there is a folder at a location. -/
def isFolder (at_ : Location) (top : Node) : Bool :=
  match top.find at_ with
  | .ok (folder _) => true
  | _ => false

end Node

end Runbook.Files

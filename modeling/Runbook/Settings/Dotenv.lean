import Runbook.Assoc
import Runbook.Text.Blank
import Runbook.Text.Lines

/-!
# Files of settings

A file of settings holds a line `NAME=value` for each setting. A value may stand between quotes, in
which escapes are read and lines may end; without quotes it ends before a comment and is trimmed.
`${NAME}` stands for the value of a setting above or of the environment, `${NAME:-text}` has a text
to fall back on. A name without an equals sign has no value; a line that cannot be read is passed
over.
-/

set_option autoImplicit false

namespace Runbook.Settings

/-- Whether a character is blank and does not end a line. -/
def isLineBlank (c : Char) : Bool := Text.isBlank c && c != '\n' && c != '\r'

/-- Reads a value up to the closing quote, of which one behind a backslash does not count. -/
def readQuoted (quote : Char) (read : List Char) : List Char → Option (List Char × List Char)
  | [] => none
  | '\\' :: c :: rest =>
    if c == quote then
      match readQuoted quote (c :: '\\' :: read) rest with
      | some found => some found
      -- The backslash may also be the last character of the value.
      | none => some (('\\' :: read).reverse, rest)
    else readQuoted quote ('\\' :: read) (c :: rest)
  | c :: rest => if c == quote then some (read.reverse, rest) else readQuoted quote (c :: read) rest
termination_by cs => cs.length

/-- The character that a backslash and a letter stand for. -/
def escapedChar? (quote : Char) (c : Char) : Option Char :=
  if c == '\\' || c == '\'' then some c
  else if quote == '\'' then none
  else
    match c with
    | '"' => some '"'
    | 'a' => some '\x07'
    | 'b' => some '\x08'
    | 'f' => some '\x0c'
    | 'n' => some '\n'
    | 'r' => some '\r'
    | 't' => some '\t'
    | 'v' => some '\x0b'
    | _ => none

/-- Reads the escapes of a quoted value. -/
def unescape (quote : Char) : List Char → List Char
  | '\\' :: c :: rest =>
    match escapedChar? quote c with
    | some ch => ch :: unescape quote rest
    | none => '\\' :: unescape quote (c :: rest)
  | c :: rest => c :: unescape quote rest
  | [] => []
termination_by cs => cs.length

/-- The part of a value without quotes in front of a comment; `pending` holds the blanks that may
belong to it, in reverse. -/
def cutComment (pending : List Char) : List Char → List Char
  | [] => pending.reverse
  | c :: rest =>
    if c == '#' && !pending.isEmpty then []
    else if Text.isBlank c then cutComment (c :: pending) rest
    else pending.reverse ++ c :: cutComment [] rest

/-- Reads the value behind an equals sign. -/
def readValue (cs : List Char) : Option (List Char × List Char) :=
  match cs with
  | '\'' :: rest => (readQuoted '\'' [] rest).map fun (value, rest) => (unescape '\'' value, rest)
  | '"' :: rest => (readQuoted '"' [] rest).map fun (value, rest) => (unescape '"' value, rest)
  | _ =>
    let line := cs.takeWhile fun c => c != '\n' && c != '\r'
    some (Text.stripEnd (cutComment [] line), cs.drop line.length)

/-- Skips a comment. -/
def skipComment (cs : List Char) : List Char :=
  match cs.dropWhile isLineBlank with
  | '#' :: rest => rest.dropWhile fun c => c != '\n' && c != '\r'
  | _ => cs

/-- Skips the end of a line, which must come next. -/
def skipLineEnd? (cs : List Char) : Option (List Char) :=
  match cs.dropWhile isLineBlank with
  | [] => some []
  | '\n' :: rest => some rest
  | '\r' :: '\n' :: rest => some rest
  | '\r' :: rest => some rest
  | _ => none

/-- Skips what is left of a line. -/
def skipLine (cs : List Char) : List Char :=
  match cs.dropWhile fun c => c != '\n' && c != '\r' with
  | '\r' :: '\n' :: rest => rest
  | _ :: rest => rest
  | [] => []

/-- Skips the word `export` in front of a name. -/
def skipExport (cs : List Char) : List Char :=
  if "export".toList.isPrefixOf cs then
    let behind := cs.drop 6
    let rest := behind.dropWhile isLineBlank
    if rest.length < behind.length then rest else cs
  else cs

/-- Reads the name of a setting; none for a comment. -/
def readKey (cs : List Char) : Option (Option (List Char) × List Char) :=
  match cs with
  | '#' :: _ => some (none, cs)
  | '\'' :: rest =>
    let name := rest.takeWhile (· != '\'')
    match rest.drop name.length with
    | _ :: behind => if name.isEmpty then none else some (some name, behind)
    | [] => none
  | _ =>
    let name := cs.takeWhile fun c => c != '=' && c != '#' && !Text.isBlank c
    if name.isEmpty then none else some (some name, cs.drop name.length)

/-- A name and its value, if it has one. -/
abbrev Binding := String × Option String

/-- Reads one line. What cannot be read is skipped up to the end of its line. -/
def readLine (cs : List Char) : Option Binding × List Char :=
  let start := skipExport cs
  match readKey start with
  | none => (none, skipLine start)
  | some (key, behind) =>
    let behind := behind.dropWhile isLineBlank
    let finish (value : Option (List Char)) (cs : List Char) : Option Binding × List Char :=
      let cs := skipComment cs
      match skipLineEnd? cs with
      | some rest => (key.map fun key => (String.ofList key, value.map String.ofList), rest)
      | none => (none, skipLine cs)
    match behind with
    | '=' :: rest =>
      let rest := rest.dropWhile isLineBlank
      match readValue rest with
      | some (value, rest) => finish (some value) rest
      | none => (none, skipLine rest)
    | _ => finish none behind

/-- Reads all lines; each takes at least one character. -/
def readLines (fuel : Nat) (cs : List Char) : List Binding :=
  match fuel with
  | 0 => []
  | fuel + 1 =>
    match cs.dropWhile Text.isBlank with
    | [] => []
    | cs =>
      let (binding, rest) := readLine cs
      binding.toList ++ readLines fuel rest

/-- The text of a reference `${...}` and the characters behind it. -/
def readReference? (cs : List Char) : Option (List Char × List Char × List Char) :=
  match cs with
  | '$' :: '\x7b' :: rest =>
    let name := rest.takeWhile fun c => c != '\x7d' && c != ':'
    match rest.drop name.length with
    | '\x7d' :: behind => some (name, [], behind)
    | ':' :: '-' :: behind =>
      let fallback := behind.takeWhile (· != '\x7d')
      match behind.drop fallback.length with
      | _ :: behind => some (name, fallback, behind)
      | [] => none
    | _ => none
  | _ => none

/-- Puts the values of names in place of references; `known` gives a name's value, if it has an
entry at all. -/
def fillReferences (known : String → Option (Option String)) (fuel : Nat) (cs : List Char) :
    List Char :=
  match fuel with
  | 0 => []
  | fuel + 1 =>
    match readReference? cs, cs with
    | some (name, fallback, rest), _ =>
      let value := match known (String.ofList name) with
        | some value => (value.getD "").toList
        | none => fallback
      value ++ fillReferences known fuel rest
    | none, c :: rest => c :: fillReferences known fuel rest
    | none, [] => []

/-- The settings in a file, later ones of a name replacing earlier ones. -/
def readDotenv (environment : Scope) (text : String) : Assoc (Option String) :=
  let cs := Text.normalizeNewlines text.toList
  (readLines (cs.length + 1) cs).foldl (fun known (name, value) =>
    let lookUp (name : String) : Option (Option String) :=
      match known.get? name with
      | some value => some value
      | none => (environment.get? name).map some
    known.put name (value.map fun v =>
      String.ofList (fillReferences lookUp (v.length + 1) v.toList))) []

end Runbook.Settings

import Runbook.Json.Limits
import Runbook.Json.Printer
import Runbook.Number.Scientific
import Runbook.Text.Half

/-!
# Percent placeholders

A log message may hold placeholders such as `%s`, `%5d`, `%(name)s` or `%.2f`, which arguments fill in
order, or by name if the only argument is an object. `fill` gives the finished message or says why
the arguments do not fit.
-/

set_option autoImplicit false

namespace Runbook.Journal

/-- Why a record has no line: mostly, why its arguments do not fit its message. -/
inductive Misfit where
  | tooFew
  | tooMany
  | namesNeeded
  | noSuchName (name : String)
  | incomplete
  | incompleteName
  | starNotInt
  | widthTooBig
  | precisionTooBig
  | unknownLetter (letter : Char) (place : Nat)
  | notNumber (letter : Char) (kind : String)
  | notInteger (letter : Char) (kind : String)
  | notReal (kind : String)
  | notChar
  | charOutOfRange
  | notANumber
  | infinite
  | tooLargeForReal
  | widthTooLarge
  | precisionTooLarge
  | outOfMemory
  | notCallable (kind : String)
  | unwritable (excess : Json.Excess)
  deriving DecidableEq, Repr

/-- The message for a record without a line. -/
def Misfit.message : Misfit → String
  | .tooFew => "not enough arguments for format string"
  | .tooMany => "not all arguments converted during string formatting"
  | .namesNeeded => "format requires a mapping"
  | .noSuchName name => Text.quoted name
  | .incomplete => "incomplete format"
  | .incompleteName => "incomplete format key"
  | .starNotInt => "* wants int"
  | .widthTooBig => "width too big"
  | .precisionTooBig => "precision too big"
  | .unknownLetter letter place =>
    let shown := if 31 ≤ letter.toNat && letter.toNat ≤ 126 then letter else '?'
    let code := String.ofList (Nat.toDigits 16 letter.toNat)
    s!"unsupported format character '{shown}' (0x{code}) at index {place}"
  | .notNumber letter kind => s!"%{letter} format: a real number is required, not {kind}"
  | .notInteger letter kind => s!"%{letter} format: an integer is required, not {kind}"
  | .notReal kind => s!"must be real number, not {kind}"
  | .notChar => "%c requires int or char"
  | .charOutOfRange => "%c arg not in range(0x110000)"
  | .notANumber => "cannot convert float NaN to integer"
  | .infinite => "cannot convert float infinity to integer"
  | .tooLargeForReal => "int too large to convert to float"
  | .widthTooLarge => "Python int too large to convert to C ssize_t"
  | .precisionTooLarge => "Python int too large to convert to C int"
  | .outOfMemory => ""
  | .notCallable kind => s!"'{kind}' object is not callable"
  | .unwritable excess => excess.message

/-! ## Values as messages show them -/

/-- The name of the kind of a value. -/
def kindName : Json → String
  | .null => "NoneType"
  | .bool _ => "bool"
  | .int _ => "int"
  | .real _ => "float"
  | .str _ => "str"
  | .arr _ => "list"
  | .obj _ => "dict"

/-- The text of a binary number. -/
def realText : Binary → String
  | .finite negative m q => Binary.finiteText negative m q
  | .infinite true => "-inf"
  | .infinite false => "inf"
  | .notANumber => "nan"

/-- The text of a value that holds no others. -/
def scalarText : Json → String
  | .null => "None"
  | .bool true => "True"
  | .bool false => "False"
  | .int n => toString n
  | .real x => realText x
  | .str s => Text.quoted s
  | .arr _ => "[]"
  | .obj _ => "\x7b\x7d"

mutual

/-- A value as it is shown inside another: texts in quotes. -/
def inspect : Json → String
  | .arr [] => "[]"
  | .arr (item :: items) => "[" ++ inspect item ++ inspectItems items ++ "]"
  | .obj [] => "\x7b\x7d"
  | .obj (field :: fields) => "\x7b" ++ inspectField field ++ inspectFields fields ++ "\x7d"
  | other => scalarText other

/-- Further items, each behind a comma. -/
def inspectItems : List Json → String
  | [] => ""
  | item :: items => ", " ++ inspect item ++ inspectItems items

/-- A named item. -/
def inspectField : String × Json → String
  | (key, value) => Text.quoted key ++ ": " ++ inspect value

/-- Further named items, each behind a comma. -/
def inspectFields : List (String × Json) → String
  | [] => ""
  | field :: fields => ", " ++ inspectField field ++ inspectFields fields

end

/-- A value as it is shown on its own: a text without quotes. -/
def display : Json → String
  | .str s => s
  | other => inspect other

/-- A text with characters beyond ASCII written by their numbers. -/
def escapeWide (s : String) : List Char :=
  s.toList.flatMap fun c =>
    let code := (Text.halfCode? c).getD c.toNat
    if code < 0x80 then [c]
    else if code < 0x100 then '\\' :: 'x' :: Text.hexDigits 2 code
    else if code < 0x10000 then '\\' :: 'u' :: Text.hexDigits 4 code
    else '\\' :: 'U' :: Text.hexDigits 8 code

/-! ## Placeholders -/

/-- A placeholder. -/
structure Placeholder where
  name : Option String := none
  left : Bool := false
  plus : Bool := false
  blank : Bool := false
  alternate : Bool := false
  zero : Bool := false
  width : Option Nat := none
  precision : Option Nat := none
  letter : Char

/-- The arguments: those left in order, or those with names. `unused` says that the one object has
not yet been taken as a whole. -/
inductive Arguments where
  | inOrder (left : List Json)
  | named (all : Assoc Json) (unused : Bool)

/-- Takes the next argument. -/
def Arguments.next : Arguments → Except Misfit (Json × Arguments)
  | .inOrder (value :: left) => .ok (value, .inOrder left)
  | .inOrder [] => .error .tooFew
  | .named all true => .ok (.obj all, .named all false)
  | .named _ false => .error .tooFew

/-- The name of a placeholder and the characters behind its closing parenthesis. -/
def readName (open_ : Nat) (read : List Char) : List Char → Except Misfit (String × List Char)
  | [] => .error .incompleteName
  | c :: rest =>
    if c == ')' then
      match open_ with
      | 0 => .ok (String.ofList read.reverse, rest)
      | open_ + 1 => readName open_ (c :: read) rest
    else readName (if c == '(' then open_ + 1 else open_) (c :: read) rest

/-- Reads the flags of a placeholder. -/
def readFlags (p : Placeholder) : List Char → Placeholder × List Char
  | [] => (p, [])
  | c :: rest =>
    if c == '-' then readFlags { p with left := true } rest
    else if c == '+' then readFlags { p with plus := true } rest
    else if c == ' ' then readFlags { p with blank := true } rest
    else if c == '#' then readFlags { p with alternate := true } rest
    else if c == '0' then readFlags { p with zero := true } rest
    else (p, c :: rest)

/-- The number that a list of digits names. -/
def digitsSize (cs : List Char) : Nat := cs.foldl (fun n c => n * 10 + (c.toNat - 48)) 0

/-- The largest width that can be laid out. -/
def widthLimit : Nat := Nat.pow 2 36

/-- Sets the width. -/
def Placeholder.withWidth (p : Placeholder) (width : Nat) : Except Misfit Placeholder :=
  if width > widthLimit then .error .outOfMemory else .ok { p with width := some width }

/-- Reads a width. -/
def readWidth (p : Placeholder) (arguments : Arguments) (cs : List Char) :
    Except Misfit (Placeholder × Arguments × List Char) :=
  match cs with
  | '*' :: rest => do
    let (value, arguments) ← arguments.next
    match value with
    | .int n =>
      if n.natAbs > Nat.pow 2 63 || n == Nat.pow 2 63 then .error .widthTooLarge
      else
        let p ← { p with left := p.left || n < 0 }.withWidth n.natAbs
        return (p, arguments, rest)
    | .bool b => return (← p.withWidth (if b then 1 else 0), arguments, rest)
    | _ => .error .starNotInt
  | _ =>
    let digits := cs.takeWhile Char.isDigit
    if digits.isEmpty then .ok (p, arguments, cs)
    else if digitsSize digits ≥ Nat.pow 2 63 then .error .widthTooBig
    else (p.withWidth (digitsSize digits)).map fun p => (p, arguments, cs.drop digits.length)

/-- Reads a precision. -/
def readPrecision (p : Placeholder) (arguments : Arguments) (cs : List Char) :
    Except Misfit (Placeholder × Arguments × List Char) :=
  match cs with
  | '.' :: '*' :: rest => do
    let (value, arguments) ← arguments.next
    match value with
    | .int n =>
      if n.natAbs > Nat.pow 2 31 || n == Nat.pow 2 31 then .error .precisionTooLarge
      else .ok ({ p with precision := some n.toNat }, arguments, rest)
    | .bool b => .ok ({ p with precision := some (if b then 1 else 0) }, arguments, rest)
    | _ => .error .starNotInt
  | '.' :: rest =>
    let digits := rest.takeWhile Char.isDigit
    if digitsSize digits ≥ Nat.pow 2 31 then .error .precisionTooBig
    else .ok ({ p with precision := some (digitsSize digits) }, arguments, rest.drop digits.length)
  | _ => .ok (p, arguments, cs)

/-- Reads a placeholder from behind its percent sign. One with a name has the value of that name as
its only argument. -/
def readPlaceholder (arguments : Arguments) (cs : List Char) :
    Except Misfit (Placeholder × Arguments × List Char) := do
  let (name, arguments, cs) ← match cs with
    | '(' :: rest =>
      match arguments with
      | .inOrder _ => throw .namesNeeded
      | .named all _ => do
        let (name, rest) ← readName 0 [] rest
        match all.get? name with
        | some value => pure (some name, .inOrder [value], rest)
        | none => throw (.noSuchName name)
    | _ => pure (none, arguments, cs)
  let (p, cs) := readFlags { name := name, letter := '%' } cs
  let (p, arguments, cs) ← readWidth p arguments cs
  let (p, arguments, cs) ← readPrecision p arguments cs
  let cs := match cs with
    | 'h' :: rest => rest
    | 'l' :: rest => rest
    | 'L' :: rest => rest
    | _ => cs
  match cs with
  | [] => throw .incomplete
  | letter :: rest => return ({ p with letter := letter }, arguments, rest)

/-! ## Filling -/

/-- A text as wide as the placeholder asks for. -/
def Placeholder.pad (p : Placeholder) (cs : List Char) : List Char :=
  let spaces := List.replicate ((p.width.getD 0) - cs.length) ' '
  if p.left then cs ++ spaces else spaces ++ cs

/-- A number as wide as the placeholder asks for; `mark` stands between sign and digits. -/
def Placeholder.padNumber (p : Placeholder) (negative : Bool) (mark digits : List Char) :
    List Char :=
  let sign := if negative then ['-'] else if p.plus then ['+'] else if p.blank then [' '] else []
  let size := sign.length + mark.length + digits.length
  let missing := (p.width.getD 0) - size
  if p.left then sign ++ mark ++ digits ++ List.replicate missing ' '
  else if p.zero then sign ++ mark ++ List.replicate missing '0' ++ digits
  else List.replicate missing ' ' ++ sign ++ mark ++ digits

/-- An integer in the base of the placeholder. -/
def Placeholder.putInt (p : Placeholder) (n : Int) : List Char :=
  let base := if p.letter == 'o' then 8 else if p.letter == 'x' || p.letter == 'X' then 16 else 10
  let digits := Nat.toDigits base n.natAbs
  let digits := List.replicate ((p.precision.getD 0) - digits.length) '0' ++ digits
  let mark := if !p.alternate || base == 10 then []
    else ['0', if base == 8 then 'o' else 'x']
  let capital (cs : List Char) := if p.letter == 'X' then cs.map Char.toUpper else cs
  p.padNumber (n < 0) (capital mark) (capital digits)

/-- The integer for a placeholder of an integer. -/
def Placeholder.intOf (p : Placeholder) (value : Json) : Except Misfit Int :=
  let wide := p.letter == 'o' || p.letter == 'x' || p.letter == 'X'
  match value with
  | .int n => .ok n
  | .bool b => .ok (if b then 1 else 0)
  | .real x =>
    if wide then .error (.notInteger p.letter "float")
    else
      match x with
      | .finite negative m q =>
        let (n, d) := Binary.ratio m q
        .ok (if negative then -((n / d : Nat) : Int) else ((n / d : Nat) : Int))
      | .infinite _ => .error .infinite
      | .notANumber => .error .notANumber
  | other =>
    .error (if wide then .notInteger p.letter (kindName other)
      else .notNumber p.letter (kindName other))

/-- A binary number as the placeholder asks for. -/
def Placeholder.putReal (p : Placeholder) (x : Binary) : List Char :=
  let places := p.precision.getD 6
  let small := p.letter.toLower
  let (negative, cs) := match x with
    | .finite negative m q =>
      (negative,
        if small == 'e' then Binary.scientificText p.alternate places m q
        else if small == 'g' then Binary.generalText p.alternate places m q
        else (Binary.fixedText places false m q).toList ++
          (if p.alternate && places == 0 then ['.'] else []))
    | .infinite negative => (negative, "inf".toList)
    | .notANumber => (false, "nan".toList)
  p.padNumber negative [] (if p.letter == small then cs else cs.map Char.toUpper)

/-- The binary number for a placeholder of one. -/
def realOf (value : Json) : Except Misfit Binary :=
  let ofInt (n : Int) : Except Misfit Binary :=
    match Binary.ofInt n with
    | .infinite _ => .error .tooLargeForReal
    | x => .ok x
  match value with
  | .real x => .ok x
  | .int n => ofInt n
  | .bool b => ofInt (if b then 1 else 0)
  | other => .error (.notReal (kindName other))

/-- The character for a placeholder of one. -/
def charOf (value : Json) : Except Misfit Char :=
  let ofCode (n : Int) : Except Misfit Char :=
    if n < 0 || n > 0x10FFFF then .error .charOutOfRange
    else if 0xD800 ≤ n && n ≤ 0xDFFF then .ok (Text.halfChar n.toNat)
    else .ok (Char.ofNat n.toNat)
  match value with
  | .int n => ofCode n
  | .bool b => ofCode (if b then 1 else 0)
  | .str s =>
    match s.toList with
    | [c] => .ok c
    | _ => .error .notChar
  | _ => .error .notChar

/-- An argument as the placeholder asks for; `place` is where its letter stands. -/
def Placeholder.put (p : Placeholder) (place : Nat) (value : Json) : Except Misfit (List Char) :=
  let cut (cs : List Char) := match p.precision with
    | some n => cs.take n
    | none => cs
  if p.letter == 's' then .ok (p.pad (cut (display value).toList))
  else if p.letter == 'r' then .ok (p.pad (cut (inspect value).toList))
  else if p.letter == 'a' then .ok (p.pad (cut (escapeWide (inspect value))))
  else if "diuoxX".toList.contains p.letter then (p.intOf value).map p.putInt
  else if "eEfFgG".toList.contains p.letter then (realOf value).map p.putReal
  else if p.letter == 'c' then (charOf value).map fun c => p.pad [c]
  else .error (.unknownLetter p.letter place)

/-- Fills the rest of a message; `size` is the length of the whole one. -/
def fillFrom (size fuel : Nat) (arguments : Arguments) (cs : List Char) :
    Except Misfit (List Char × Arguments) :=
  match fuel with
  | 0 => .ok ([], arguments)
  | fuel + 1 =>
    match cs with
    | [] => .ok ([], arguments)
    | '%' :: '%' :: rest => do
      let (more, arguments) ← fillFrom size fuel arguments rest
      return ('%' :: more, arguments)
    | '%' :: rest => do
      let (p, own, rest) ← readPlaceholder arguments rest
      let (value, own) ← own.next
      let arguments := match p.name, arguments with
        | some _, .named all _ => .named all false
        | _, _ => own
      let shown ← p.put (size - rest.length - 1) value
      let (more, arguments) ← fillFrom size fuel arguments rest
      return (shown ++ more, arguments)
    | c :: rest => do
      let (more, arguments) ← fillFrom size fuel arguments rest
      return (c :: more, arguments)

/-- The finished message. A message without arguments is taken as it is. -/
def fill (message : String) (arguments : List Json) : Except Misfit String :=
  let cs := message.toList
  let start : Arguments := match arguments with
    | [.obj (field :: fields)] => .named (field :: fields) true
    | _ => .inOrder arguments
  if arguments.isEmpty then .ok message
  else do
    let (filled, rest) ← fillFrom cs.length (cs.length + 1) start cs
    match rest with
    | .inOrder (_ :: _) => throw .tooMany
    | _ => return String.ofList filled

end Runbook.Journal

import Runbook.Shell.Script.Basic

/-!
# Reading shell scripts

A script is read line by line, as it is run. Reserved words count only where a command may begin, and
a `#` only where a word may begin. The text of a here-document stands behind the line that names it
and is taken out of the rest as soon as its delimiter has been read.
-/

set_option autoImplicit false

namespace Runbook.Shell

/-- What is left of a script, and the line on which it begins. -/
structure Cursor where
  rest : List Char
  line : Nat := 1

/-- A step of reading. -/
abbrev Reading := StateT Cursor (Except Misplaced)

namespace Reading

/-- Fails at the present line. -/
def fail {α : Type} (flaw : Flaw) : Reading α := fun c => .error ⟨c.line, flaw⟩

/-! ## Characters -/

/-- Whether a character ends a word that is not quoted. -/
def endsWord (c : Char) : Bool := " \t\n&|;<>()".toList.contains c

/-- Whether a character may begin a name. -/
def startsName (c : Char) : Bool := c.isAlpha || c == '_'

/-- Whether a character may stand in a name. -/
def isNameChar (c : Char) : Bool := c.isAlphanum || c == '_'

/-- Whether a text is a name. -/
def isName : List Char → Bool
  | [] => false
  | c :: rest => startsName c && rest.all isNameChar

/-- Parameters whose name is a single sign. -/
def isSpecial (c : Char) : Bool := "@*#?-$!".toList.contains c

/-- Leaves out blanks, joined lines and a comment. -/
def dropBlanks (line : Nat) : List Char → List Char × Nat
  | ' ' :: rest => dropBlanks line rest
  | '\t' :: rest => dropBlanks line rest
  | '\\' :: '\n' :: rest => dropBlanks (line + 1) rest
  | '#' :: rest => (rest.dropWhile (· != '\n'), line)
  | rest => (rest, line)

/-- Leaves out blanks, joined lines and a comment. -/
def skipBlanks : Reading Unit := modify fun c =>
  let (rest, line) := dropBlanks c.line c.rest
  ⟨rest, line⟩

/-- Moves behind some characters, none of which is a line feed. -/
def skip (n : Nat) : Reading Unit := modify fun c => { c with rest := c.rest.drop n }

/-- Moves behind characters. -/
def advanceOver (text : List Char) : Reading Unit := modify fun c =>
  ⟨c.rest.drop text.length, c.line + text.count '\n'⟩

/-- What is left. -/
def rest : Reading (List Char) := fun c => .ok (c.rest, c)

/-- The present line. -/
def line : Reading Nat := fun c => .ok (c.line, c)

/-! ## Tokens -/

/-- The operators, longer ones first. -/
def operators : List String :=
  ["&&", "||", ";;", "<<-", "<<", "<&", "<>", ">>", ">&", ">|", "&", "|", ";", "(", ")", "<", ">",
    "\n"]

/-- The operator at the start of a text. -/
def operatorAt? (text : List Char) : Option String :=
  operators.find? fun op => op.toList.isPrefixOf text

/-- The words that are reserved where a command may begin. -/
def reservedWords : List String :=
  ["if", "then", "else", "elif", "fi", "do", "done", "case", "esac", "while", "until", "for", "\x7b",
    "\x7d", "!"]

/-- The reserved word at the start of a text. -/
def reservedAt? (text : List Char) : Option String :=
  let word := String.ofList (text.takeWhile (!endsWord ·))
  if reservedWords.contains word then some word else none

/-- The words behind which no command begins. -/
def isCloser (word : String) : Bool :=
  ["then", "else", "elif", "fi", "do", "done", "esac", "\x7d"].contains word

/-- How an unexpected token is called. -/
def describe (text : List Char) : String :=
  match text, operatorAt? text, reservedAt? text with
  | [], _, _ => "end of file"
  | _, some "\n", _ => "newline"
  | _, some op, _ =>
    if op.startsWith "<" || op.startsWith ">" then "redirection" else s!"\"{op}\""
  | _, _, some word => s!"\"{word}\""
  | _, _, _ => "word"

/-- Fails because of the token at hand. -/
def unexpected {α : Type} (expecting : Option String := none) : Reading α := do
  skipBlanks
  fail (.unexpected (describe (← rest)) (expecting.map fun e => s!"\"{e}\""))

/-- Moves behind an operator if it is at hand. -/
def takeOperator (op : String) : Reading Bool := do
  skipBlanks
  if operatorAt? (← rest) == some op then
    advanceOver op.toList
    return true
  else return false

/-- Moves behind a reserved word, which must be at hand. -/
def expectWord (word : String) : Reading Unit := do
  skipBlanks
  if reservedAt? (← rest) == some word then skip word.length
  else unexpected (some word)

/-- Moves behind line feeds; `fuel` bounds their number. -/
def skipLines : Nat → Reading Unit
  | 0 => pure ()
  | fuel + 1 => do
    if ← takeOperator "\n" then skipLines fuel

/-- Moves behind line feeds. -/
def skipNewlines : Reading Unit := do
  skipLines (← rest).length

/-! ## Pieces -/

/-- How the characters of a stretch of text are understood. -/
structure Style where
  /-- Quotes quote. -/
  quotes : Bool
  /-- What stands there is quoted. -/
  isQuoted : Bool
  /-- A backslash quotes any character or only some. -/
  escapes : Char → Bool

/-- Words. -/
def Style.plain : Style := ⟨true, false, fun _ => true⟩

/-- Text between double quotes. -/
def Style.quoted : Style := ⟨false, true, fun c => "$`\"\\".toList.contains c⟩

/-- Here-documents and sums. -/
def Style.document : Style := ⟨false, true, fun c => "$`\\".toList.contains c⟩

/-- Alternatives within quoted braces. -/
def Style.alternative : Style := ⟨false, true, fun c => "$`\"\\\x7d".toList.contains c⟩

/-- Adds a character to pieces, of which the last comes first. -/
def addChar (pieces : List Piece) (c : Char) (isQuoted : Bool) : List Piece :=
  match pieces with
  | .text s q :: more =>
    if q == isQuoted then .text (s.push c) q :: more else .text c.toString isQuoted :: pieces
  | _ => .text c.toString isQuoted :: pieces

/-- The text in front of the parenthesis pair that closes a sum, if there is one. -/
def sumText? (depth : Nat) (read : List Char) : List Char → Option (List Char)
  | ')' :: ')' :: rest =>
    if depth == 0 then some read.reverse else sumText? (depth - 1) (')' :: read) (')' :: rest)
  | ')' :: rest => sumText? (depth - 1) (')' :: read) rest
  | '(' :: rest => sumText? (depth + 1) ('(' :: read) rest
  | c :: rest => sumText? depth (c :: read) rest
  | [] => none

/-- The script between backquotes, and what stands behind them. -/
def backquoted? (isQuoted : Bool) (read : List Char) : List Char → Option (List Char × Nat)
  | '`' :: _ => some (read.reverse, 1)
  | '\\' :: c :: rest =>
    if c == '`' || c == '$' || c == '\\' || (isQuoted && c == '"') then
      (backquoted? isQuoted (c :: read) rest).map fun (body, n) => (body, n + 2)
    else (backquoted? isQuoted (c :: '\\' :: read) rest).map fun (body, n) => (body, n + 2)
  | c :: rest => (backquoted? isQuoted (c :: read) rest).map fun (body, n) => (body, n + 1)
  | [] => none

/-- The name of the parameter at the start of a text within braces. -/
def parameterName (text : List Char) : List Char :=
  match text with
  | [] => []
  | c :: _ =>
    if startsName c then text.takeWhile isNameChar
    else if c.isDigit then text.takeWhile Char.isDigit
    else if isSpecial c then [c]
    else []

/-- The modifier at the start of a text, whether empty values count as missing, and its length. -/
def modifierAt? : List Char → Option (Modifier × Bool × Nat)
  | ':' :: '-' :: _ => some (.default, true, 2)
  | ':' :: '=' :: _ => some (.assign, true, 2)
  | ':' :: '?' :: _ => some (.complain, true, 2)
  | ':' :: '+' :: _ => some (.alternative, true, 2)
  | '-' :: _ => some (.default, false, 1)
  | '=' :: _ => some (.assign, false, 1)
  | '?' :: _ => some (.complain, false, 1)
  | '+' :: _ => some (.alternative, false, 1)
  | '%' :: '%' :: _ => some (.cutEnd true, false, 2)
  | '%' :: _ => some (.cutEnd false, false, 1)
  | '#' :: '#' :: _ => some (.cutStart true, false, 2)
  | '#' :: _ => some (.cutStart false, false, 1)
  | _ => none

/-- Whether the plain text of a word is an assignment; its name. -/
def assignmentName? (text : List Char) : Option (List Char) :=
  let name := text.takeWhile isNameChar
  if isName name && (text.drop name.length).head? == some '=' then some name else none

/-- The lines of a here-document and what stands behind it. -/
def documentLines (delimiter : List Char) (stripTabs : Bool) (read : List Char) :
    List (List Char) → List Char × List (List Char)
  | [] => (read, [])
  | line :: rest =>
    let line := if stripTabs then line.dropWhile (· == '\t') else line
    if line == delimiter then (read, rest)
    else documentLines delimiter stripTabs (read ++ line ++ ['\n']) rest

/-- Splits at line feeds. -/
def splitAtFeeds : List Char → List (List Char)
  | [] => [[]]
  | '\n' :: rest => [] :: splitAtFeeds rest
  | c :: rest =>
    match splitAtFeeds rest with
    | [] => [[c]]
    | line :: lines => (c :: line) :: lines

/-- Takes a here-document out from behind the present line. -/
def takeDocument (delimiter : List Char) (stripTabs : Bool) : Reading (List Char) := fun c =>
  let here := c.rest.takeWhile (· != '\n')
  match c.rest.drop here.length with
  | [] => .ok ([], c)
  | _ :: behind =>
    let lines := splitAtFeeds behind
    let lines := if lines.getLast? == some [] then lines.dropLast else lines
    let (body, lines) := documentLines delimiter stripTabs [] lines
    .ok (body, { c with rest := here ++ '\n' :: ['\n'].intercalate lines })

/-- The text of a delimiter. -/
def delimiterText (word : Word) : List Char :=
  word.flatMap fun
    | .text s _ => s.toList
    | _ => []

/-- Whether a part of a delimiter is quoted. -/
def isQuotedDelimiter (word : Word) : Bool :=
  word.any fun
    | .text _ isQuoted => isQuoted
    | _ => false

/-! ## Commands -/

/-- The redirection operators with what they do and the descriptor that they mean. -/
def redirects : List (String × Redirect × Nat) :=
  [("<", .read, 0), (">", .write, 1), (">|", .write, 1), (">>", .append, 1), ("<>", .readWrite, 0),
    ("<&", .duplicate, 0), (">&", .duplicate, 1), ("<<", .text, 0), ("<<-", .text, 0)]

/-- The descriptor that is given in front of a redirection, and its length. -/
def givenDescriptor (text : List Char) : Option Nat × Nat :=
  let digits := text.takeWhile Char.isDigit
  match text.drop digits.length with
  | c :: _ =>
    if !digits.isEmpty && (c == '<' || c == '>') then
      (some (digits.foldl (fun n d => n * 10 + (d.toNat - 48)) 0), digits.length)
    else (none, 0)
  | [] => (none, 0)

/-- The redirection operator at hand: its descriptor, what it does, the operator, and its length. -/
def redirectAt? (text : List Char) : Option (Nat × Redirect × String × Nat) := do
  let (given, n) := givenDescriptor text
  let op ← operatorAt? (text.drop n)
  let (what, usual) ← redirects.lookup op
  return (given.getD usual, what, op, n + op.length)

/-- Adds redirections to a command. -/
def withRedirections (body : Command) (redirections : List Redirection) : Command :=
  if redirections.isEmpty then body else .redirected body redirections

/-- A command that does nothing. -/
def nothing : Command := .sequence []

mutual

/-- Reads pieces until the text stops; the last piece comes first. -/
def readPieces (fuel : Nat) (style : Style) (stops : List Char → Bool) (read : List Piece) :
    Reading (List Piece) := do
  match fuel with
  | 0 => fail .tooDeep
  | fuel + 1 =>
    let text ← rest
    if stops text then return read
    else
      match text with
      | [] => return read
      | '\\' :: '\n' :: _ =>
        advanceOver ['\\', '\n']
        readPieces fuel style stops read
      | '\\' :: c :: _ =>
        if style.escapes c then
          advanceOver ['\\', c]
          readPieces fuel style stops (addChar read c true)
        else
          skip 1
          readPieces fuel style stops (addChar read '\\' style.isQuoted)
      | '\'' :: behind =>
        if style.quotes then
          let quoted := behind.takeWhile (· != '\'')
          if quoted.length == behind.length then fail .unterminatedQuote
          else
            advanceOver ('\'' :: quoted ++ ['\''])
            readPieces fuel style stops (.text (String.ofList quoted) true :: read)
        else
          skip 1
          readPieces fuel style stops (addChar read '\'' style.isQuoted)
      | '"' :: _ =>
        if style.quotes then
          skip 1
          let inner ← readPieces fuel .quoted (fun t => t.head? == some '"') []
          if (← rest).isEmpty then fail .unterminatedQuote
          else
            skip 1
            readPieces fuel style stops ((if inner.isEmpty then [.text "" true] else inner) ++ read)
        else
          skip 1
          readPieces fuel style stops (addChar read '"' style.isQuoted)
      | '$' :: behind =>
        match ← readDollar fuel style behind with
        | some piece => readPieces fuel style stops (piece :: read)
        | none =>
          skip 1
          readPieces fuel style stops (addChar read '$' style.isQuoted)
      | '`' :: behind =>
        match backquoted? style.isQuoted [] behind with
        | none => fail .missingBackquote
        | some (body, n) =>
          let start ← line
          advanceOver ('`' :: behind.take n)
          let script ← readWhole fuel ⟨body, start⟩
          readPieces fuel style stops (.output script style.isQuoted :: read)
      | c :: _ =>
        advanceOver [c]
        readPieces fuel style stops (addChar read c style.isQuoted)
  termination_by structural fuel

/-- Reads what begins with a dollar sign, if that has a meaning. -/
def readDollar (fuel : Nat) (style : Style) (behind : List Char) : Reading (Option Piece) := do
  match fuel with
  | 0 => fail .tooDeep
  | fuel + 1 =>
    match behind with
    | '(' :: '(' :: inner =>
      match sumText? 0 [] inner with
      | none => fail .missingParentheses
      | some text =>
        let start ← line
        advanceOver ('$' :: '(' :: '(' :: text ++ [')', ')'])
        let word ← readApart fuel .document ⟨text, start⟩
        return some (.sum word style.isQuoted)
    | '(' :: _ =>
      skip 2
      let body ← readBody fuel
      if ← takeOperator ")" then return some (.output body style.isQuoted)
      else unexpected (some ")")
    | '\x7b' :: inner =>
      skip 2
      readBraces fuel style inner
    | c :: _ =>
      if startsName c then
        let name := behind.takeWhile isNameChar
        skip (name.length + 1)
        return some (.value (String.ofList name) style.isQuoted)
      else if c.isDigit || isSpecial c then
        skip 2
        return some (.value c.toString style.isQuoted)
      else return none
    | [] => return none
  termination_by structural fuel

/-- Reads what stands between braces behind a dollar sign. -/
def readBraces (fuel : Nat) (style : Style) (inner : List Char) : Reading (Option Piece) := do
  match fuel with
  | 0 => fail .tooDeep
  | fuel + 1 =>
    let lengthName := parameterName (inner.drop 1)
    if inner.head? == some '#' && !lengthName.isEmpty &&
        (inner.drop (1 + lengthName.length)).head? == some '\x7d' then
      skip (lengthName.length + 2)
      return some (.length (String.ofList lengthName))
    else
      let name := parameterName inner
      let behind := inner.drop name.length
      skip name.length
      match behind, modifierAt? behind with
      | '\x7d' :: _, _ =>
        skip 1
        return some (if name.isEmpty then .unusable
          else .value (String.ofList name) style.isQuoted)
      | _, some (how, orEmpty, n) =>
        skip n
        let inside : Style := if !style.isQuoted then .plain
          else
            match how with
            | .cutEnd _ | .cutStart _ => .plain
            | _ => .alternative
        let word ← readPieces fuel inside (fun t => t.head? == some '\x7d') []
        if (← rest).isEmpty then fail .missingBrace
        else
          skip 1
          return some (if name.isEmpty then .unusable
            else .modified (String.ofList name) orEmpty how word.reverse style.isQuoted)
      | _, none =>
        let junk := behind.takeWhile (· != '\x7d')
        if junk.length == behind.length then fail .missingBrace
        else
          advanceOver (junk ++ ['\x7d'])
          return some .unusable
  termination_by structural fuel

/-- Reads a text of its own as pieces. -/
def readApart (fuel : Nat) (style : Style) (text : Cursor) : Reading Word := do
  match fuel with
  | 0 => fail .tooDeep
  | fuel + 1 =>
    let outside ← get
    set text
    let pieces ← readPieces fuel style (fun _ => false) []
    set outside
    return pieces.reverse
  termination_by structural fuel

/-- Reads a text of its own as commands. -/
def readWhole (fuel : Nat) (text : Cursor) : Reading Command := do
  match fuel with
  | 0 => fail .tooDeep
  | fuel + 1 =>
    let outside ← get
    set text
    let body ← readBody fuel
    if !(← rest).isEmpty then unexpected
    else
      set outside
      return body
  termination_by structural fuel

/-- Reads a word. -/
def readWord (fuel : Nat) : Reading Word := do
  match fuel with
  | 0 => fail .tooDeep
  | fuel + 1 =>
    let pieces ← readPieces fuel .plain (fun t => (t.head?.map endsWord).getD true) []
    return pieces.reverse
  termination_by structural fuel

/-- Reads a redirection whose operator is at hand. -/
def readRedirection (fuel : Nat) (descriptor : Nat) (what : Redirect) (op : String) (n : Nat) :
    Reading Redirection := do
  match fuel with
  | 0 => fail .tooDeep
  | fuel + 1 =>
    skip n
    skipBlanks
    if ((← rest).head?.map endsWord).getD true then unexpected
    else
      let word ← readWord fuel
      if what == .text then
        let body ← takeDocument (delimiterText word) (op == "<<-")
        if isQuotedDelimiter word then return .mk descriptor .text [.text (String.ofList body) true]
        else return .mk descriptor .text (← readApart fuel .document ⟨body, ← line⟩)
      else return .mk descriptor what word
  termination_by structural fuel

/-- Reads the redirections at hand. -/
def readRedirections (fuel : Nat) : Reading (List Redirection) := do
  match fuel with
  | 0 => fail .tooDeep
  | fuel + 1 =>
    skipBlanks
    match redirectAt? (← rest) with
    | none => return []
    | some (descriptor, what, op, n) =>
      let first ← readRedirection fuel descriptor what op n
      return first :: (← readRedirections fuel)
  termination_by structural fuel

/-- Reads the rest of a simple command; what was read of it comes first. -/
def readSimple (fuel : Nat) (start : Nat) (assignments : List (String × Word)) (words : List Word)
    (redirections : List Redirection) : Reading Command := do
  match fuel with
  | 0 => fail .tooDeep
  | fuel + 1 =>
    skipBlanks
    let text ← rest
    match redirectAt? text, operatorAt? text, assignmentName? text with
    | some (descriptor, what, op, n), _, _ =>
      let r ← readRedirection fuel descriptor what op n
      readSimple fuel start assignments words (redirections ++ [r])
    | none, some "(", _ =>
      match assignments, words, redirections with
      | [], [[.text name false]], [] =>
        skip 1
        if ← takeOperator ")" then
          if isName name.toList then
            skipNewlines
            return .define name (← readCommand fuel)
          else fail .badFunctionName
        else unexpected (some ")")
      | _, _, _ => unexpected
    | none, some _, _ => return .simple start assignments words redirections
    | none, none, some name =>
      if words.isEmpty then
        skip (name.length + 1)
        let value ← readWord fuel
        readSimple fuel start (assignments ++ [(String.ofList name, value)]) words redirections
      else
        let word ← readWord fuel
        readSimple fuel start assignments (words ++ [word]) redirections
    | none, none, none =>
      if text.isEmpty then return .simple start assignments words redirections
      else
        let word ← readWord fuel
        readSimple fuel start assignments (words ++ [word]) redirections
  termination_by structural fuel

/-- Reads the words of a list. -/
def readWords (fuel : Nat) : Reading (List Word) := do
  match fuel with
  | 0 => fail .tooDeep
  | fuel + 1 =>
    skipBlanks
    if ((← rest).head?.map endsWord).getD true then return []
    else
      let word ← readWord fuel
      return word :: (← readWords fuel)
  termination_by structural fuel

/-- Reads a command. -/
def readCommand (fuel : Nat) : Reading Command := do
  match fuel with
  | 0 => fail .tooDeep
  | fuel + 1 =>
    skipBlanks
    let text ← rest
    let start ← line
    match operatorAt? text, reservedAt? text with
    | some "(", _ =>
      skip 1
      let body ← readBody fuel
      if ← takeOperator ")" then
        return withRedirections (.subshell body) (← readRedirections fuel)
      else unexpected (some ")")
    | some op, _ =>
      if (redirects.lookup op).isSome then readSimple fuel start [] [] [] else unexpected
    | none, some "\x7b" =>
      skip 1
      let body ← readBody fuel
      expectWord "\x7d"
      return withRedirections body (← readRedirections fuel)
    | none, some "if" =>
      skip 2
      let body ← readBranch fuel
      return withRedirections body (← readRedirections fuel)
    | none, some "while" =>
      skip 5
      let body ← readLoop fuel false
      return withRedirections body (← readRedirections fuel)
    | none, some "until" =>
      skip 5
      let body ← readLoop fuel true
      return withRedirections body (← readRedirections fuel)
    | none, some "for" =>
      skip 3
      let body ← readEach fuel
      return withRedirections body (← readRedirections fuel)
    | none, some "case" =>
      skip 4
      let body ← readChoose fuel
      return withRedirections body (← readRedirections fuel)
    | none, some _ => unexpected
    | none, none => if text.isEmpty then unexpected else readSimple fuel start [] [] []
  termination_by structural fuel

/-- Reads what follows `if` or `elif`. -/
def readBranch (fuel : Nat) : Reading Command := do
  match fuel with
  | 0 => fail .tooDeep
  | fuel + 1 =>
    let condition ← readBody fuel
    expectWord "then"
    let whenTrue ← readBody fuel
    skipBlanks
    match reservedAt? (← rest) with
    | some "elif" =>
      skip 4
      return .branch condition whenTrue (← readBranch fuel)
    | some "else" =>
      skip 4
      let whenFalse ← readBody fuel
      expectWord "fi"
      return .branch condition whenTrue whenFalse
    | _ =>
      expectWord "fi"
      return .branch condition whenTrue nothing
  termination_by structural fuel

/-- Reads what follows `while` or `until`. -/
def readLoop (fuel : Nat) (isUntil : Bool) : Reading Command := do
  match fuel with
  | 0 => fail .tooDeep
  | fuel + 1 =>
    let condition ← readBody fuel
    expectWord "do"
    let body ← readBody fuel
    expectWord "done"
    return .loop isUntil condition body
  termination_by structural fuel

/-- Reads what follows `for`. -/
def readEach (fuel : Nat) : Reading Command := do
  match fuel with
  | 0 => fail .tooDeep
  | fuel + 1 =>
    skipBlanks
    let name := (← rest).takeWhile (!endsWord ·)
    if !isName name then fail .badLoopVariable
    else
      skip name.length
      skipBlanks
      let words ← if (← rest).takeWhile (!endsWord ·) == ['i', 'n'] then do
          skip 2
          let words ← readWords fuel
          if !((← takeOperator ";") || (← takeOperator "\n")) then unexpected
          else pure (some words)
        else do
          let _ ← takeOperator ";"
          pure none
      skipNewlines
      expectWord "do"
      let body ← readBody fuel
      expectWord "done"
      return .each (String.ofList name) words body
  termination_by structural fuel

/-- Reads what follows `case`. -/
def readChoose (fuel : Nat) : Reading Command := do
  match fuel with
  | 0 => fail .tooDeep
  | fuel + 1 =>
    let start ← line
    skipBlanks
    if ((← rest).head?.map endsWord).getD true then unexpected
    else
      let word ← readWord fuel
      skipNewlines
      skipBlanks
      if (← rest).takeWhile (!endsWord ·) != ['i', 'n'] then unexpected (some "in")
      else
        skip 2
        skipNewlines
        return .choose start word (← readArms fuel)
  termination_by structural fuel

/-- Reads the arms of a choice. -/
def readArms (fuel : Nat) : Reading (List (List Word × Command)) := do
  match fuel with
  | 0 => fail .tooDeep
  | fuel + 1 =>
    skipNewlines
    skipBlanks
    if reservedAt? (← rest) == some "esac" then
      skip 4
      return []
    else
      let _ ← takeOperator "("
      let patterns ← readPatterns fuel
      let body ← readCommands fuel
      if ← takeOperator ";;" then return (patterns, .sequence body) :: (← readArms fuel)
      else
        skipBlanks
        if reservedAt? (← rest) == some "esac" then
          skip 4
          return [(patterns, .sequence body)]
        else unexpected (some ";;")
  termination_by structural fuel

/-- Reads the patterns of an arm and the parenthesis behind them. -/
def readPatterns (fuel : Nat) : Reading (List Word) := do
  match fuel with
  | 0 => fail .tooDeep
  | fuel + 1 =>
    skipBlanks
    if ((← rest).head?.map endsWord).getD true then unexpected
    else
      let pattern ← readWord fuel
      if ← takeOperator "|" then return pattern :: (← readPatterns fuel)
      else if ← takeOperator ")" then return [pattern]
      else unexpected (some ")")
  termination_by structural fuel

/-- Reads commands joined by pipes. -/
def readParts (fuel : Nat) : Reading (List Command) := do
  match fuel with
  | 0 => fail .tooDeep
  | fuel + 1 =>
    let first ← readCommand fuel
    if ← takeOperator "|" then
      skipNewlines
      return first :: (← readParts fuel)
    else return [first]
  termination_by structural fuel

/-- Reads a pipeline. -/
def readPipeline (fuel : Nat) : Reading Command := do
  match fuel with
  | 0 => fail .tooDeep
  | fuel + 1 =>
    skipBlanks
    if reservedAt? (← rest) == some "!" then
      skip 1
      return .negated (← readPipeline fuel)
    else
      match ← readParts fuel with
      | [one] => return one
      | parts => return .pipeline parts
  termination_by structural fuel

/-- Reads the rest of pipelines joined by `&&` and `||`. -/
def readJoined (fuel : Nat) (first : Command) : Reading Command := do
  match fuel with
  | 0 => fail .tooDeep
  | fuel + 1 =>
    if ← takeOperator "&&" then
      skipNewlines
      readJoined fuel (.both first (← readPipeline fuel))
    else if ← takeOperator "||" then
      skipNewlines
      readJoined fuel (.either first (← readPipeline fuel))
    else return first
  termination_by structural fuel

/-- Reads commands until none can begin; line feeds separate them as well. -/
def readCommands (fuel : Nat) : Reading (List Command) := do
  match fuel with
  | 0 => fail .tooDeep
  | fuel + 1 =>
    skipNewlines
    skipBlanks
    let text ← rest
    let isOver := match operatorAt? text, reservedAt? text with
      | some op, _ => op == ")" || op == ";;"
      | none, some word => isCloser word
      | none, none => text.isEmpty
    if isOver then return []
    else
      let first ← readJoined fuel (← readPipeline fuel)
      if ← takeOperator "&" then return .background first :: (← readCommands fuel)
      else if ← takeOperator ";" then return first :: (← readCommands fuel)
      else if ← takeOperator "\n" then return first :: (← readCommands fuel)
      else return [first]
  termination_by structural fuel

/-- Reads the commands within a compound command, of which there must be one; the end of the script
is left to what must follow them. -/
def readBody (fuel : Nat) : Reading Command := do
  match fuel with
  | 0 => fail .tooDeep
  | fuel + 1 =>
    match ← readCommands fuel with
    | [] => if (← rest).isEmpty then return nothing else unexpected
    | [one] => return one
    | parts => return .sequence parts
  termination_by structural fuel

/-- Reads the commands of one line. -/
def readLine (fuel : Nat) : Reading (List Command) := do
  match fuel with
  | 0 => fail .tooDeep
  | fuel + 1 =>
    skipBlanks
    let text ← rest
    if text.isEmpty then return []
    else if ← takeOperator "\n" then return []
    else
      let first ← readJoined fuel (← readPipeline fuel)
      if ← takeOperator "&" then return .background first :: (← readLine fuel)
      else if ← takeOperator ";" then return first :: (← readLine fuel)
      else if ← takeOperator "\n" then return [first]
      else
        skipBlanks
        if (← rest).isEmpty then return [first] else unexpected
  termination_by structural fuel

end

/-- The lines of a script; `fuel` bounds their number, `depth` the depth of each. -/
def readLines (depth : Nat) : Nat → Cursor → Script
  | 0, _ => ⟨[], none⟩
  | fuel + 1, c =>
    if c.rest.isEmpty then ⟨[], none⟩
    else
      match (readLine depth).run c with
      | .error misplaced => ⟨[], some misplaced⟩
      | .ok (commands, c) =>
        let script := readLines depth fuel c
        ⟨.sequence commands :: script.lines, script.flaw⟩

end Reading

/-- Reads a script. -/
def Script.read (text : List Char) : Script :=
  Reading.readLines (20 * text.length + 40) (text.length + 1) ⟨text, 1⟩

end Runbook.Shell

import Runbook.Json.Reader

/-!
# Why a text is no JSON

`Json.diagnose` walks over a text that is meant to be JSON and gives the first `Obstacle` with its
place. Words and numbers are looked at character by character, so that the place is the character
that does not fit. A diagnosis names a line, and a column in bytes that begins at one.
-/

set_option autoImplicit false

namespace Runbook.Json

/-- What keeps a text from being read. -/
inductive Obstacle where
  | endInArray
  | endInObject
  | endInString
  | endInValue
  | noColon
  | noArrayComma
  | noObjectComma
  | noWord
  | noValue
  | noKey
  | badEscape
  | badNumber
  | longNumber
  | control
  | loneHalf
  | shortEscape
  | trailingComma
  | trailingCharacters
  | tooDeep
  deriving DecidableEq, Repr

/-- The wording of an obstacle. -/
def Obstacle.message : Obstacle → String
  | .endInArray => "EOF while parsing a list"
  | .endInObject => "EOF while parsing an object"
  | .endInString => "EOF while parsing a string"
  | .endInValue => "EOF while parsing a value"
  | .noColon => "expected \x60:\x60"
  | .noArrayComma => "expected \x60,\x60 or \x60]\x60"
  | .noObjectComma => "expected \x60,\x60 or \x60\x7d\x60"
  | .noWord => "expected ident"
  | .noValue => "expected value"
  | .noKey => "key must be a string"
  | .badEscape => "invalid escape"
  | .badNumber => "invalid number"
  | .longNumber => "number out of range"
  | .control => "control character (\\u0000-\\u001F) found while parsing a string"
  | .loneHalf => "lone leading surrogate in hex escape"
  | .shortEscape => "unexpected end of hex escape"
  | .trailingComma => "trailing comma"
  | .trailingCharacters => "trailing characters"
  | .tooDeep => "recursion limit exceeded"

/-- An obstacle and the place, in characters, where it stands. -/
structure Diagnosis where
  obstacle : Obstacle
  place : Nat
  deriving DecidableEq, Repr

/-- The number of bytes of characters. -/
def byteCount (cs : List Char) : Nat := cs.foldl (fun n c => n + c.utf8Size) 0

/-- The line and the column of a place: a line feed is the start of the line behind it, and the end
of a text has the column of the last character. -/
def lineAndColumn (text : List Char) (place : Nat) : Nat × Nat :=
  let before := text.take place
  let line := before.count '\n' + 1
  let column := byteCount (before.reverse.takeWhile (· != '\n'))
  match text[place]? with
  | none => (line, column)
  | some c => if c == '\n' then (line + 1, 0) else (line, column + 1)

/-- The message for what keeps a text from being read. -/
def Diagnosis.message (d : Diagnosis) (text : List Char) : String :=
  let (line, column) := lineAndColumn text d.place
  s!"{d.obstacle.message} at line {line} column {column}"

/-! ## Strings -/

/-- The code of the four hexadecimal digits that start at a place. -/
def scanHex (place : Nat) (cs : List Char) : Except Diagnosis Nat :=
  if byteCount cs < 4 then .error ⟨.endInString, place + cs.length⟩
  else
    match ((cs.take 4).zipIdx.find? fun (c, _) => (hexValue? c).isNone) with
    | some (_, k) => .error ⟨.badEscape, place + k⟩
    | none => .ok ((cs.take 4).foldl (fun n c => n * 16 + (hexValue? c).getD 0) 0)

/-- The length of the rest of an escape, which stands behind its backslash. -/
def scanEscape (place : Nat) : List Char → Except Diagnosis Nat
  | [] => .error ⟨.endInString, place⟩
  | 'u' :: rest => do
    let code ← scanHex (place + 1) rest
    if isLowHalf code then .error ⟨.loneHalf, place + 4⟩
    else if !isHighHalf code then .ok 5
    else
      match rest.drop 4 with
      | '\\' :: 'u' :: more => do
        let low ← scanHex (place + 7) more
        if isLowHalf low then .ok 11 else .error ⟨.loneHalf, place + 10⟩
      | [] => .error ⟨.endInString, place + 5⟩
      | ['\\'] => .error ⟨.endInString, place + 6⟩
      | '\\' :: _ => .error ⟨.shortEscape, place + 6⟩
      | _ => .error ⟨.shortEscape, place + 5⟩
  | c :: _ => if (escapeChar? c).isSome then .ok 1 else .error ⟨.badEscape, place⟩

/-- Walks over a string from behind its opening quote. -/
def scanString (place : Nat) : List Char → Except Diagnosis Cursor
  | [] => .error ⟨.endInString, place⟩
  | '"' :: rest => .ok ⟨place + 1, rest⟩
  | '\\' :: rest =>
    match scanEscape (place + 1) rest with
    | .error d => .error d
    | .ok n => scanString (place + 1 + n) (rest.drop n)
  | c :: rest => if c.toNat < 0x20 then .error ⟨.control, place⟩ else scanString (place + 1) rest
termination_by cs => cs.length
decreasing_by all_goals simp only [List.length_cons, List.length_drop] <;> omega

/-! ## Words and numbers -/

/-- Walks over the characters of a word. -/
def scanWord (place : Nat) : List Char → List Char → Except Diagnosis Cursor
  | [], rest => .ok ⟨place, rest⟩
  | _ :: _, [] => .error ⟨.endInValue, place⟩
  | w :: word, c :: rest =>
    if w == c then scanWord (place + 1) word rest else .error ⟨.noWord, place⟩

/-- Walks over digits. -/
def Cursor.skipDigits (c : Cursor) : Cursor := c.skip (c.rest.takeWhile isAsciiDigit).length

/-- Walks over digits, of which there must be one. -/
def scanDigits (at_ : Cursor) : Except Diagnosis Cursor :=
  match at_.rest with
  | [] => .error ⟨.endInValue, at_.place⟩
  | c :: _ => if isAsciiDigit c then .ok at_.skipDigits else .error ⟨.badNumber, at_.place⟩

/-- Walks over an exponent if one comes next. -/
def scanExponent (at_ : Cursor) : Except Diagnosis Cursor :=
  match at_.rest with
  | e :: sign :: _ =>
    if e != 'e' && e != 'E' then .ok at_
    else scanDigits (at_.skip (if sign == '+' || sign == '-' then 2 else 1))
  | [e] => if e == 'e' || e == 'E' then scanDigits (at_.skip 1) else .ok at_
  | [] => .ok at_

/-- Walks over a fraction and an exponent if they come next. -/
def scanFraction (at_ : Cursor) : Except Diagnosis Cursor :=
  match at_.rest with
  | '.' :: _ => do scanExponent (← scanDigits (at_.skip 1))
  | _ => scanExponent at_

/-- Walks over a number without its sign. -/
def scanSize (at_ : Cursor) : Except Diagnosis Cursor :=
  match at_.rest with
  | [] => .error ⟨.endInValue, at_.place⟩
  | 'I' :: _ => scanWord at_.place "Infinity".toList at_.rest
  | '0' :: rest =>
    match rest with
    | c :: _ =>
      if isAsciiDigit c then .error ⟨.badNumber, at_.place + 1⟩ else scanFraction (at_.skip 1)
    | [] => .ok (at_.skip 1)
  | c :: _ =>
    if !isAsciiDigit c then .error ⟨.badNumber, at_.place⟩
    else
      let behind := at_.skipDigits
      let isWhole := match behind.rest with
        | c :: _ => c != '.' && c != 'e' && c != 'E'
        | [] => true
      if isWhole && behind.place > at_.place + 4300 then .error ⟨.longNumber, at_.place + 4301⟩
      else scanFraction behind

/-- Walks over a word or a number. -/
def scanScalar (at_ : Cursor) : Except Diagnosis Cursor :=
  let word (w : String) : Except Diagnosis Cursor := scanWord at_.place w.toList at_.rest
  match at_.rest with
  | 't' :: _ => word "true"
  | 'f' :: _ => word "false"
  | 'n' :: _ => word "null"
  | 'N' :: _ => word "NaN"
  | '-' :: _ => scanSize (at_.skip 1)
  | c :: _ => if isAsciiDigit c || c == 'I' then scanSize at_ else .error ⟨.noValue, at_.place⟩
  | [] => .error ⟨.endInValue, at_.place⟩

/-! ## Values -/

mutual

/-- Walks over one value. -/
def scanValue (fuel depth : Nat) (at_ : Cursor) : Except Diagnosis Cursor :=
  match fuel with
  | 0 => .error ⟨.tooDeep, at_.place⟩
  | fuel + 1 =>
    match at_.rest with
    | '"' :: rest => scanString (at_.place + 1) rest
    | '[' :: _ =>
      let inside := (at_.skip 1).skipSpace
      match inside.rest with
      | [] => .error ⟨.endInArray, inside.place⟩
      | ']' :: _ => .ok (inside.skip 1)
      | _ =>
        if depth == 0 then .error ⟨.tooDeep, inside.place⟩ else scanItems fuel (depth - 1) inside
    | '\x7b' :: _ =>
      let inside := (at_.skip 1).skipSpace
      match inside.rest with
      | [] => .error ⟨.endInObject, inside.place⟩
      | '\x7d' :: _ => .ok (inside.skip 1)
      | '"' :: _ =>
        if depth == 0 then .error ⟨.tooDeep, inside.place⟩ else scanFields fuel (depth - 1) inside
      | _ => .error ⟨.noKey, inside.place⟩
    | _ => scanScalar at_

/-- Walks over the items of an array up to its closing bracket. -/
def scanItems (fuel depth : Nat) (at_ : Cursor) : Except Diagnosis Cursor :=
  match fuel with
  | 0 => .error ⟨.tooDeep, at_.place⟩
  | fuel + 1 =>
    match scanValue fuel depth at_ with
    | .error d => .error d
    | .ok behind =>
      let behind := behind.skipSpace
      match behind.rest with
      | [] => .error ⟨.endInArray, behind.place⟩
      | ']' :: _ => .ok (behind.skip 1)
      | ',' :: _ =>
        let next := (behind.skip 1).skipSpace
        match next.rest with
        | [] => .error ⟨.endInValue, next.place⟩
        | ']' :: _ => .error ⟨.trailingComma, next.place⟩
        | _ => scanItems fuel depth next
      | _ => .error ⟨.noArrayComma, behind.place⟩

/-- Walks over the fields of an object, from the quote of a key up to the closing brace. -/
def scanFields (fuel depth : Nat) (at_ : Cursor) : Except Diagnosis Cursor :=
  match fuel with
  | 0 => .error ⟨.tooDeep, at_.place⟩
  | fuel + 1 =>
    match scanString (at_.place + 1) (at_.rest.drop 1) with
    | .error d => .error d
    | .ok behind =>
      let behind := behind.skipSpace
      match behind.rest with
      | [] => .error ⟨.endInObject, behind.place⟩
      | ':' :: _ =>
        match scanValue fuel depth (behind.skip 1).skipSpace with
        | .error d => .error d
        | .ok behind =>
          let behind := behind.skipSpace
          match behind.rest with
          | [] => .error ⟨.endInObject, behind.place⟩
          | '\x7d' :: _ => .ok (behind.skip 1)
          | ',' :: _ =>
            let next := (behind.skip 1).skipSpace
            match next.rest with
            | [] => .error ⟨.endInValue, next.place⟩
            | '"' :: _ => scanFields fuel depth next
            | '\x7d' :: _ => .error ⟨.trailingComma, next.place⟩
            | _ => .error ⟨.noKey, next.place⟩
          | _ => .error ⟨.noObjectComma, behind.place⟩
      | _ => .error ⟨.noColon, behind.place⟩

end

/-- The first obstacle to reading a text as a definition, if there is one. -/
def diagnose (text : List Char) : Option Diagnosis :=
  match scanValue (2 * text.length + 2) Dialect.definition.maxDepth (skipSpaceFrom 0 text) with
  | .error d => some d
  | .ok behind =>
    let behind := behind.skipSpace
    if behind.rest.isEmpty then none else some ⟨.trailingCharacters, behind.place⟩

end Runbook.Json

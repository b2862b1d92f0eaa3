import Runbook.Json.Basic
import Runbook.Text.Half

/-!
# Reading JSON text

`Json.read` turns a text into a value or says what is wrong and where. A `Dialect` fixes the two
points on which readers of the format differ here: whether an escape may name an unpaired half of a
character, and how deep values may nest. The words `NaN`, `Infinity` and `-Infinity` are numbers.
-/

set_option autoImplicit false

namespace Runbook.Json

/-- What is wrong with a text. -/
inductive Flaw where
  | expectingValue
  | expectingKey
  | expectingColon
  | expectingComma
  | unterminated
  | invalidControl
  | invalidEscape
  | invalidUnicodeEscape
  | extraData
  | byteOrderMark
  | tooDeep (inObject : Bool)
  | tooManyDigits (count : Nat)
  deriving DecidableEq, Repr

/-- A flaw and the place, in characters, where it shows. -/
structure Fault where
  flaw : Flaw
  place : Nat
  deriving DecidableEq, Repr

/-- The wording of a flaw. -/
def Flaw.message : Flaw → String
  | .expectingValue => "Expecting value"
  | .expectingKey => "Expecting property name enclosed in double quotes"
  | .expectingColon => "Expecting ':' delimiter"
  | .expectingComma => "Expecting ',' delimiter"
  | .unterminated => "Unterminated string starting at"
  | .invalidControl => "Invalid control character at"
  | .invalidEscape => "Invalid \\escape"
  | .invalidUnicodeEscape => "Invalid \\uXXXX escape"
  | .extraData => "Extra data"
  | .byteOrderMark => "Unexpected UTF-8 BOM (decode using utf-8-sig)"
  | .tooDeep inObject =>
    "maximum recursion depth exceeded while decoding a JSON " ++
      (if inObject then "object" else "array") ++ " from a unicode string"
  | .tooManyDigits count =>
    s!"Exceeds the limit (4300 digits) for integer string conversion: value has {count} digits; " ++
      "use sys.set_int_max_str_digits() to increase the limit"

/-- The message for a fault in a text: line, column and place count from the text's start. -/
def Fault.message (f : Fault) (text : List Char) : String :=
  let before := text.take f.place
  let line := before.count '\n' + 1
  let column := (before.reverse.takeWhile (· != '\n')).length + 1
  s!"{f.flaw.message}: line {line} column {column} (char {f.place})"

/-- The points on which readers differ. -/
structure Dialect where
  /-- Whether an escape may name an unpaired half. -/
  halves : Bool
  /-- How many arrays and objects may enclose a value. -/
  maxDepth : Nat

/-- The reader of definitions: every escape names a character, and nesting ends at 200. -/
def Dialect.definition : Dialect := ⟨false, 200⟩

/-- The reader of stored lists and request bodies: an escape may name a half. -/
def Dialect.plain : Dialect := ⟨true, 950⟩

/-- Whether a character separates values. -/
def isSpace (c : Char) : Bool := c == ' ' || c == '\t' || c == '\n' || c == '\r'

/-- A place in the text and the characters from there on. -/
structure Cursor where
  place : Nat
  rest : List Char

/-- Skips separating characters. -/
def skipSpaceFrom (place : Nat) : List Char → Cursor
  | [] => ⟨place, []⟩
  | c :: rest => if isSpace c then skipSpaceFrom (place + 1) rest else ⟨place, c :: rest⟩

/-- Skips separating characters. -/
def Cursor.skipSpace (c : Cursor) : Cursor := skipSpaceFrom c.place c.rest

/-- The cursor `n` characters on. -/
def Cursor.skip (c : Cursor) (n : Nat) : Cursor := ⟨c.place + n, c.rest.drop n⟩

/-- The value of a hexadecimal digit. -/
def hexValue? (c : Char) : Option Nat :=
  if '0' ≤ c && c ≤ '9' then some (c.toNat - 48)
  else if 'a' ≤ c && c ≤ 'f' then some (c.toNat - 87)
  else if 'A' ≤ c && c ≤ 'F' then some (c.toNat - 55)
  else none

/-- The number of four hexadecimal digits. -/
def hexNumber? (a b c d : Char) : Option Nat := do
  let a ← hexValue? a
  let b ← hexValue? b
  let c ← hexValue? c
  let d ← hexValue? d
  return ((a * 16 + b) * 16 + c) * 16 + d

/-- The character of a two-character escape. -/
def escapeChar? : Char → Option Char
  | '"' => some '"'
  | '\\' => some '\\'
  | '/' => some '/'
  | 'b' => some '\x08'
  | 'f' => some '\x0c'
  | 'n' => some '\n'
  | 'r' => some '\r'
  | 't' => some '\t'
  | _ => none

/-- Whether a code is the first half of a two-part code. -/
def isHighHalf (n : Nat) : Bool := 0xD800 ≤ n && n ≤ 0xDBFF

/-- Whether a code is the second half of a two-part code. -/
def isLowHalf (n : Nat) : Bool := 0xDC00 ≤ n && n ≤ 0xDFFF

/-- The character of a code, if the dialect has one for it. -/
def codeChar? (dialect : Dialect) (code : Nat) : Option Char :=
  if isHighHalf code || isLowHalf code then
    if dialect.halves then some (Text.halfChar code) else none
  else some (Char.ofNat code)

/-- The code that an escape ahead names, if one comes next with a character behind it. -/
def escapeAhead : List Char → Except Unit (Option Nat)
  | '\\' :: 'u' :: a :: b :: c :: d :: _ :: _ =>
    match hexNumber? a b c d with
    | none => .error ()
    | some code => .ok (some code)
  | _ => .ok none

/-- Reads a string from behind its opening quote, which stands at `start`. -/
def readString (dialect : Dialect) (start : Nat) (read : List Char) (place : Nat) :
    List Char → Except Fault (List Char × Cursor)
  | [] => .error ⟨.unterminated, start⟩
  | '"' :: rest => .ok (read.reverse, ⟨place + 1, rest⟩)
  | ['\\'] => .error ⟨.unterminated, start⟩
  | '\\' :: 'u' :: a :: b :: c :: d :: e :: rest =>
    match hexNumber? a b c d with
    | none => .error ⟨.invalidUnicodeEscape, place + 1⟩
    | some code =>
      match if isHighHalf code then escapeAhead (e :: rest) else .ok none with
      | .error _ => .error ⟨.invalidUnicodeEscape, place + 7⟩
      | .ok ahead =>
        match ahead.filter isLowHalf with
        | some low =>
          let whole := 0x10000 + (code - 0xD800) * 0x400 + (low - 0xDC00)
          readString dialect start (Char.ofNat whole :: read) (place + 12) ((e :: rest).drop 6)
        | none =>
          match codeChar? dialect code with
          | none => .error ⟨.invalidUnicodeEscape, place + 1⟩
          | some ch => readString dialect start (ch :: read) (place + 6) (e :: rest)
  | '\\' :: c :: rest =>
    if c == 'u' then .error ⟨.invalidUnicodeEscape, place + 1⟩
    else
      match escapeChar? c with
      | none => .error ⟨.invalidEscape, place⟩
      | some ch => readString dialect start (ch :: read) (place + 2) rest
  | c :: rest =>
    if c.toNat < 0x20 then .error ⟨.invalidControl, place⟩
    else readString dialect start (c :: read) (place + 1) rest
termination_by cs => cs.length
decreasing_by all_goals simp only [List.length_cons, List.length_drop] <;> omega

/-- Whether a character is an ASCII digit. -/
def isAsciiDigit (c : Char) : Bool := '0' ≤ c && c ≤ '9'

/-- The number of a list of digits. -/
def digitsToNat (cs : List Char) : Nat := cs.foldl (fun n c => n * 10 + (c.toNat - 48)) 0

/-- The parts of a number: sign, whole digits, fraction digits, exponent. -/
structure NumberParts where
  negative : Bool
  whole : List Char
  fraction : Option (List Char)
  exponent : Option Int

/-- The value of a number from its parts; only whole digits make an integer. -/
def NumberParts.value (n : NumberParts) : Json :=
  match n.fraction, n.exponent with
  | none, none =>
    let size := digitsToNat n.whole
    .int (if n.negative then -(size : Int) else size)
  | fraction, exponent =>
    let digits := fraction.getD []
    .real (Binary.ofDecimal n.negative (digitsToNat (n.whole ++ digits))
      (exponent.getD 0 - digits.length))

/-- Reads the whole digits of a number: a zero alone or digits that start with another one. -/
def readWhole : List Char → Option (List Char × List Char)
  | '0' :: rest => some (['0'], rest)
  | cs =>
    let digits := cs.takeWhile isAsciiDigit
    if digits.isEmpty then none else some (digits, cs.drop digits.length)

/-- Reads a fraction if a point with a digit behind it comes next. -/
def readFraction : List Char → Option (List Char) × List Char
  | '.' :: cs =>
    let digits := cs.takeWhile isAsciiDigit
    if digits.isEmpty then (none, '.' :: cs) else (some digits, cs.drop digits.length)
  | cs => (none, cs)

/-- Reads an exponent if one with a digit comes next. -/
def readExponent (cs : List Char) : Option Int × List Char :=
  match cs with
  | e :: rest =>
    if e == 'e' || e == 'E' then
      let (negative, rest) := match rest with
        | '-' :: r => (true, r)
        | '+' :: r => (false, r)
        | r => (false, r)
      let digits := rest.takeWhile isAsciiDigit
      if digits.isEmpty then (none, cs)
      else
        let size : Int := digitsToNat digits
        (some (if negative then -size else size), rest.drop digits.length)
    else (none, cs)
  | [] => (none, cs)

/-- Reads a number. -/
def readNumber (at_ : Cursor) : Except Fault (Json × Cursor) :=
  let (negative, cs) := match at_.rest with
    | '-' :: r => (true, r)
    | r => (false, r)
  match readWhole cs with
  | none => .error ⟨.expectingValue, at_.place⟩
  | some (whole, cs) =>
    let (fraction, cs) := readFraction cs
    let (exponent, cs) := readExponent cs
    if fraction.isNone && exponent.isNone && whole.length > 4300 then
      .error ⟨.tooManyDigits whole.length, at_.place⟩
    else
      .ok ((NumberParts.mk negative whole fraction exponent).value,
        ⟨at_.place + (at_.rest.length - cs.length), cs⟩)

/-- The words that stand for values. -/
def words : List (String × Json) :=
  [("null", .null), ("true", .bool true), ("false", .bool false), ("NaN", .real .notANumber),
    ("Infinity", .real (.infinite false)), ("-Infinity", .real (.infinite true))]

/-- Reads a word or a number. -/
def readScalar (at_ : Cursor) : Except Fault (Json × Cursor) :=
  match words.find? fun (word, _) => word.toList.isPrefixOf at_.rest with
  | some (word, value) => .ok (value, at_.skip word.length)
  | none => readNumber at_

mutual

/-- Reads one value. -/
def readValue (dialect : Dialect) (fuel depth : Nat) (at_ : Cursor) :
    Except Fault (Json × Cursor) :=
  match fuel with
  | 0 => .error ⟨.tooDeep false, at_.place⟩
  | fuel + 1 =>
    match at_.rest with
    | [] => .error ⟨.expectingValue, at_.place⟩
    | '"' :: rest =>
      (readString dialect at_.place [] (at_.place + 1) rest).map fun (cs, at_) =>
        (.str (String.ofList cs), at_)
    | '[' :: _ =>
      if depth == 0 then .error ⟨.tooDeep false, at_.place⟩
      else
        let inside := (at_.skip 1).skipSpace
        match inside.rest with
        | ']' :: _ => .ok (.arr [], inside.skip 1)
        | _ => readItems dialect fuel (depth - 1) [] inside
    | '\x7b' :: _ =>
      if depth == 0 then .error ⟨.tooDeep true, at_.place⟩
      else
        let inside := (at_.skip 1).skipSpace
        match inside.rest with
        | '\x7d' :: _ => .ok (.obj [], inside.skip 1)
        | _ => readFields dialect fuel (depth - 1) [] inside
    | _ => readScalar at_

/-- Reads the items of an array up to its closing bracket; `read` holds the earlier ones in
reverse. -/
def readItems (dialect : Dialect) (fuel depth : Nat) (read : List Json) (at_ : Cursor) :
    Except Fault (Json × Cursor) :=
  match fuel with
  | 0 => .error ⟨.tooDeep false, at_.place⟩
  | fuel + 1 =>
    match readValue dialect fuel depth at_ with
    | .error f => .error f
    | .ok (value, behind) =>
      let behind := behind.skipSpace
      match behind.rest with
      | ']' :: _ => .ok (.arr (value :: read).reverse, behind.skip 1)
      | ',' :: _ => readItems dialect fuel depth (value :: read) (behind.skip 1).skipSpace
      | _ => .error ⟨.expectingComma, behind.place⟩

/-- Reads the fields of an object up to its closing brace. -/
def readFields (dialect : Dialect) (fuel depth : Nat) (read : List (String × Json))
    (at_ : Cursor) : Except Fault (Json × Cursor) :=
  match fuel with
  | 0 => .error ⟨.tooDeep false, at_.place⟩
  | fuel + 1 =>
    match at_.rest with
    | '"' :: rest =>
      match readString dialect at_.place [] (at_.place + 1) rest with
      | .error f => .error f
      | .ok (key, behind) =>
        let behind := behind.skipSpace
        match behind.rest with
        | ':' :: _ =>
          match readValue dialect fuel depth (behind.skip 1).skipSpace with
          | .error f => .error f
          | .ok (value, behind) =>
            let read := Assoc.put read (String.ofList key) value
            let behind := behind.skipSpace
            match behind.rest with
            | '\x7d' :: _ => .ok (.obj read, behind.skip 1)
            | ',' :: _ => readFields dialect fuel depth read (behind.skip 1).skipSpace
            | _ => .error ⟨.expectingComma, behind.place⟩
        | _ => .error ⟨.expectingColon, behind.place⟩
    | _ => .error ⟨.expectingKey, at_.place⟩

end

/-- Reads a text that holds one value and nothing else. -/
def read (dialect : Dialect) (text : List Char) : Except Fault Json :=
  match text with
  | '\uFEFF' :: _ => .error ⟨.byteOrderMark, 0⟩
  | _ =>
    match readValue dialect (2 * text.length + 2) dialect.maxDepth (skipSpaceFrom 0 text) with
    | .error f => .error f
    | .ok (value, behind) =>
      let behind := behind.skipSpace
      if behind.rest.isEmpty then .ok value else .error ⟨.extraData, behind.place⟩

end Runbook.Json

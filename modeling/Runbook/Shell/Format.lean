import Runbook.Journal.Percent
import Runbook.Shell.Arithmetic
import Runbook.Text.AnyBytes

/-!
# Writing with escapes and directives

What `echo` and `printf` write. Escapes name single bytes, so the result is bytes. A format is used
again and again until all arguments are taken; missing ones count as empty or zero.
-/

set_option autoImplicit false

namespace Runbook.Shell.Format

/-- The value of up to `count` octal digits, and what stands behind them. -/
def octal : Nat → Nat → List Char → Nat × List Char
  | count + 1, value, c :: rest =>
    if '0' ≤ c && c ≤ '7' then octal count (value * 8 + (c.toNat - 48)) rest else (value, c :: rest)
  | _, value, rest => (value, rest)

/-- The byte of an escape, given what stands behind the backslash, and the rest. -/
def escape (text : List Char) : UInt8 × List Char :=
  match text with
  | [] => (0x5C, [])
  | c :: rest =>
    match c with
    | '\\' => (0x5C, rest)
    | 'a' => (7, rest)
    | 'b' => (8, rest)
    | 'e' => (27, rest)
    | 'f' => (12, rest)
    | 'n' => (10, rest)
    | 'r' => (13, rest)
    | 't' => (9, rest)
    | 'v' => (11, rest)
    | _ =>
      if '0' ≤ c && c ≤ '7' then
        let (value, rest) := octal 3 0 text
        (UInt8.ofNat value, rest)
      else (0x5C, text)

/-- The bytes of a text with escapes, and whether it ends all output; `fuel` bounds its length. -/
def escapedFrom : Nat → List Char → List UInt8 × Bool
  | 0, _ => ([], false)
  | fuel + 1, text =>
    match text with
    | [] => ([], false)
    | '\\' :: 'c' :: _ => ([], true)
    | '\\' :: rest =>
      let rest := match rest with
        | '0' :: d :: more => if '0' ≤ d && d ≤ '7' then d :: more else rest
        | _ => rest
      let (b, rest) := escape rest
      let (more, isLast) := escapedFrom fuel rest
      (b :: more, isLast)
    | c :: rest =>
      let (more, isLast) := escapedFrom fuel rest
      (Text.charBytes c ++ more, isLast)

/-- The bytes of a text with escapes, and whether it ends all output. -/
def escaped (text : String) : List UInt8 × Bool := escapedFrom (text.length + 1) text.toList

/-- What `echo` writes. -/
def echo (arguments : List String) : List UInt8 :=
  let (arguments, ending) := match arguments with
    | "-n" :: rest => (rest, [])
    | _ => (arguments, [(10 : UInt8)])
  let rec write : List String → List UInt8
    | [] => ending
    | [last] =>
      let (bytes, isLast) := escaped last
      bytes ++ if isLast then [] else ending
    | word :: rest =>
      let (bytes, isLast) := escaped word
      bytes ++ if isLast then [] else 0x20 :: write rest
  write arguments

/-- What a format comes to so far. -/
structure Written where
  bytes : List UInt8 := []
  arguments : List String
  /-- What is wrong with an argument, in order. -/
  complaints : List String := []
  isOver : Bool := false
  /-- The format itself is faulty. -/
  isBroken : Bool := false
  /-- Whether an argument was asked for. -/
  asked : Bool := false

namespace Written

/-- Adds bytes. -/
def add (w : Written) (bytes : List UInt8) : Written := { w with bytes := w.bytes ++ bytes }

/-- Takes the next argument. -/
def next (w : Written) : Option String × Written :=
  match w.arguments with
  | [] => (none, { w with asked := true })
  | a :: rest => (some a, { w with arguments := rest, asked := true })

/-- Adds a complaint. -/
def complain (w : Written) (words : String) : Written :=
  { w with complaints := w.complaints ++ [words] }

/-- Stops at a directive that is none. -/
def refuse (w : Written) (directive : String) : Written :=
  { w.complain s!"{directive}: invalid directive" with isOver := true, isBroken := true }

end Written

/-- The longest numeral at the start of a text, its length, and whether it is one at all. -/
def leadingInt (text : List Char) : Int × Nat :=
  let blank := (text.takeWhile fun c => c == ' ' || c == '\t').length
  let body := text.drop blank
  let (sign, body, n) := match body with
    | '-' :: b => ((-1 : Int), b, 1)
    | '+' :: b => (1, b, 1)
    | b => (1, b, 0)
  let isHex (c : Char) : Bool := c.isDigit || ('a' ≤ c.toLower && c.toLower ≤ 'f')
  let (base, digits, m) := match body with
    | '0' :: 'x' :: c :: b => if isHex c then (16, (c :: b).takeWhile isHex, 2) else (8, ['0'], 0)
    | '0' :: 'X' :: c :: b => if isHex c then (16, (c :: b).takeWhile isHex, 2) else (8, ['0'], 0)
    | '0' :: b => (8, '0' :: b.takeWhile fun c => '0' ≤ c && c ≤ '7', 0)
    | b => (10, b.takeWhile Char.isDigit, 0)
  if digits.isEmpty then (0, 0)
  else (sign * ((Sum.digitsValue? base digits).getD 0 : Nat), blank + n + m + digits.length)

/-- The integer that an argument names, with complaints. -/
def Written.intOf (w : Written) : Option String → Int × Written
  | none => (0, w)
  | some text =>
    match text.toList with
    | [] => (0, w)
    | '"' :: c :: _ => (c.toNat, w)
    | '\'' :: c :: _ => (c.toNat, w)
    | cs =>
      let (n, size) := leadingInt cs
      if size == 0 then (0, w.complain s!"{text}: expected numeric value")
      else if size < cs.length then (n, w.complain s!"{text}: not completely converted")
      else (n, w)

/-- The number that an argument names, with complaints. -/
def Written.realOf (w : Written) : Option String → Binary × Written
  | none => (.finite false 0 0, w)
  | some text =>
    let cs := text.toList
    let (negative, body) := match cs with
      | '-' :: b => (true, b)
      | '+' :: b => (false, b)
      | b => (false, b)
    let whole := body.takeWhile Char.isDigit
    let fraction := match body.drop whole.length with
      | '.' :: b => b.takeWhile Char.isDigit
      | _ => []
    let hasPoint := (body.drop whole.length).head? == some '.'
    let used := whole.length + fraction.length + if hasPoint then 1 else 0
    let (exponent, tail) := match body.drop used with
      | e :: b =>
        let (n, size) := leadingInt b
        if (e == 'e' || e == 'E') && size > 0 then (n, b.drop size) else (0, e :: b)
      | [] => (0, [])
    if text == "" then (.finite false 0 0, w)
    else if whole.isEmpty && fraction.isEmpty then
      (.finite false 0 0, w.complain s!"{text}: expected numeric value")
    else
      let digits : Nat := (whole ++ fraction).foldl (fun n c => n * 10 + (c.toNat - 48)) 0
      let value := Binary.ofDecimal negative digits (exponent - fraction.length)
      (value, if tail.isEmpty then w else w.complain s!"{text}: not completely converted")

/-- Pads bytes to a width. -/
def pad (toLeft : Bool) (width : Nat) (bytes : List UInt8) : List UInt8 :=
  let space := List.replicate (width - bytes.length) (0x20 : UInt8)
  if toLeft then bytes ++ space else space ++ bytes

/-- A directive of a format. -/
structure Directive where
  flags : List Char := []
  width : Nat := 0
  precision : Option Nat := none

/-- The directive as text, with the given letter. -/
def Directive.text (d : Directive) (letter : Char) : String :=
  let width := if d.width == 0 then "" else toString d.width
  let precision := match d.precision with
    | some p => s!".{p}"
    | none => ""
  "%" ++ String.ofList d.flags ++ width ++ precision ++ letter.toString

/-- A number as a directive writes it. -/
def Directive.number (d : Directive) (letter : Char) (value : Json) : List UInt8 :=
  match Journal.fill (d.text letter) [value] with
  | .ok text => Text.encodeAny text
  | .error _ => []

/-- Reads a width or precision: digits, or a star that takes an argument. -/
def readSize (w : Written) (text : List Char) : Option Int × Written × List Char :=
  match text with
  | '*' :: rest =>
    let (argument, w) := w.next
    let (n, w) := w.intOf argument
    (some n, w, rest)
  | _ =>
    let digits := text.takeWhile Char.isDigit
    if digits.isEmpty then (none, w, text)
    else (some ((Sum.digitsValue? 10 digits).getD 0 : Nat), w, text.drop digits.length)

/-- Reads the directive behind a percent sign. -/
def readDirective (w : Written) (text : List Char) : Directive × Written × List Char :=
  let flags := text.takeWhile fun c => "-+ 0#".toList.contains c
  let (width, w, text) := readSize w (text.drop flags.length)
  let (precision, w, text) := match text with
    | '.' :: rest =>
      let (p, w, rest) := readSize w rest
      (some (p.getD 0), w, rest)
    | _ => (none, w, text)
  let width := width.getD 0
  ({ flags := if width < 0 then '-' :: flags else flags, width := width.natAbs
     precision := match precision with
       | some p => if p < 0 then none else some p.toNat
       | none => none }, w, text)

/-- Writes one directive with the given letter. -/
def Directive.write (d : Directive) (w : Written) (letter : Char) : Written :=
  let toLeft := d.flags.contains '-'
  let cut (bytes : List UInt8) : List UInt8 := match d.precision with
    | some p => bytes.take p
    | none => bytes
  let (argument, w) := w.next
  match letter with
  | 's' => w.add (pad toLeft d.width (cut (Text.encodeAny (argument.getD ""))))
  | 'c' => w.add (pad toLeft d.width ((Text.encodeAny (argument.getD "")).take 1))
  | 'b' =>
    let (bytes, isLast) := escaped (argument.getD "")
    { w.add (pad toLeft d.width (cut bytes)) with isOver := isLast }
  | 'd' | 'i' =>
    let (n, w) := w.intOf argument
    w.add (d.number 'd' (.int n))
  | 'u' =>
    let (n, w) := w.intOf argument
    w.add (d.number 'd' (.int (n % Nat.pow 2 64)))
  | 'o' | 'x' | 'X' =>
    let (n, w) := w.intOf argument
    w.add (d.number letter (.int (n % Nat.pow 2 64)))
  | _ =>
    let (x, w) := w.realOf argument
    w.add (d.number letter (.real x))

/-- Writes a format once; `fuel` bounds its length. -/
def formatOnce : Nat → Written → List Char → Written
  | 0, w, _ => w
  | fuel + 1, w, text =>
    if w.isOver then w
    else
      match text with
      | [] => w
      | '\\' :: rest =>
        let (b, rest) := escape rest
        formatOnce fuel (w.add [b]) rest
      | '%' :: '%' :: rest => formatOnce fuel (w.add [0x25]) rest
      | '%' :: rest =>
        let (d, w, rest) := readDirective w rest
        match rest with
        | [] => w.refuse (d.text ' ')
        | letter :: rest =>
          if "scbdiuoxXeEfFgG".toList.contains letter then formatOnce fuel (d.write w letter) rest
          else w.refuse (d.text letter)
      | c :: rest => formatOnce fuel (w.add (Text.charBytes c)) rest

/-- Writes a format again until all arguments are taken; `fuel` bounds the rounds. -/
def formatAll (format : List Char) : Nat → Written → Written
  | 0, w => w
  | fuel + 1, w =>
    let w := formatOnce (format.length + 1) { w with asked := false } format
    if w.isOver || w.arguments.isEmpty || !w.asked then w else formatAll format fuel w

/-- What `printf` writes, and what it complains of. -/
def printf (format : String) (arguments : List String) : Written :=
  formatAll format.toList (arguments.length + 1) { arguments := arguments }

end Runbook.Shell.Format

import Runbook.Assoc

/-!
# Sums of a shell

The sums that a shell works out: whole numbers of sixty-four bits that wrap around, the usual
operators, and assignments to variables. A part whose value does not matter is read but neither
divides nor assigns.
-/

set_option autoImplicit false

namespace Runbook.Shell.Sum

/-- What is wrong with a sum. -/
inductive Fault where
  | expectingOperand
  | expectingEnd
  | expecting (sign : String)
  | divisionByZero
  | notNumber (text : String)
  | tooDeep
  deriving DecidableEq, Repr

/-- The message for a fault of the given sum. -/
def Fault.message (sum : String) : Fault → String
  | expectingOperand => s!"arithmetic expression: expecting primary: \"{sum}\""
  | expectingEnd => s!"arithmetic expression: expecting EOF: \"{sum}\""
  | expecting sign => s!"arithmetic expression: expecting '{sign}': \"{sum}\""
  | divisionByZero => s!"arithmetic expression: division by zero: \"{sum}\""
  | notNumber text => s!"Illegal number: {text}"
  | tooDeep => s!"arithmetic expression: nested too deeply: \"{sum}\""

/-- What is left of a sum, and the values of the variables. -/
structure State where
  rest : List Char
  vars : Scope
  /-- The variables that were assigned, the last one first. -/
  assigned : List (String × String) := []

/-- A step of working out a sum. -/
abbrev Work := StateT State (Except Fault)

/-- Fails. -/
def fail {α : Type} (fault : Fault) : Work α := fun _ => .error fault

/-- A number within sixty-four bits. -/
def wrap (n : Int) : Int := n.bmod (Nat.pow 2 64)

/-- Leaves out blanks. -/
def skipBlanks : Work Unit := modify fun s =>
  { s with rest := s.rest.dropWhile fun c => c == ' ' || c == '\t' || c == '\n' }

/-- The signs, longer ones first. -/
def signs : List String :=
  ["<<=", ">>=", "||", "&&", "==", "!=", "<=", ">=", "<<", ">>", "+=", "-=", "*=", "/=", "%=", "&=",
    "^=", "|=", "+", "-", "*", "/", "%", "<", ">", "&", "^", "|", "=", "?", ":", "(", ")", "!", "~"]

/-- The sign at hand. -/
def sign? : Work (Option String) := do
  skipBlanks
  let text := (← get).rest
  return signs.find? fun sign => sign.toList.isPrefixOf text

/-- Moves behind some characters. -/
def skip (n : Nat) : Work Unit := modify fun s => { s with rest := s.rest.drop n }

/-- Moves behind a sign that must be at hand. -/
def expect (sign : String) : Work Unit := do
  if (← sign?) == some sign then skip sign.length else fail (.expecting sign)

/-- The binary operators by level, the loosest first. -/
def levels : List (List String) :=
  [["||"], ["&&"], ["|"], ["^"], ["&"], ["==", "!="], ["<", ">", "<=", ">="], ["<<", ">>"],
    ["+", "-"], ["*", "/", "%"]]

/-- One for true and zero for false. -/
def ofBool (b : Bool) : Int := if b then 1 else 0

/-- The bits of a number. -/
def bits (n : Int) : Nat := (n % Nat.pow 2 64).toNat

/-- The result of an operator. -/
def apply (op : String) (a b : Int) : Work Int :=
  match op with
  | "||" => pure (ofBool (a != 0 || b != 0))
  | "&&" => pure (ofBool (a != 0 && b != 0))
  | "|" => pure (wrap (bits a ||| bits b))
  | "^" => pure (wrap (bits a ^^^ bits b))
  | "&" => pure (wrap (bits a &&& bits b))
  | "==" => pure (ofBool (a == b))
  | "!=" => pure (ofBool (a != b))
  | "<" => pure (ofBool (a < b))
  | ">" => pure (ofBool (a > b))
  | "<=" => pure (ofBool (a ≤ b))
  | ">=" => pure (ofBool (a ≥ b))
  | "<<" => pure (wrap (a * Nat.pow 2 (bits b % 64)))
  | ">>" => pure (a.fdiv (Nat.pow 2 (bits b % 64)))
  | "+" => pure (wrap (a + b))
  | "-" => pure (wrap (a - b))
  | "*" => pure (wrap (a * b))
  | "/" => if b == 0 then fail .divisionByZero else pure (wrap (a.tdiv b))
  | "%" => if b == 0 then fail .divisionByZero else pure (wrap (a.tmod b))
  | _ => fail .expectingOperand

/-- The value of digits in a base, if all are digits of it. -/
def digitsValue? (base : Nat) (digits : List Char) : Option Nat :=
  digits.foldl (fun value c => do
    let n ← value
    let d := if c.isDigit then c.toNat - 48
      else if 'a' ≤ c && c ≤ 'f' then c.toNat - 87
      else if 'A' ≤ c && c ≤ 'F' then c.toNat - 55 else 99
    if d < base then some (n * base + d) else none) (some 0)

/-- The number that a numeral names: hexadecimal behind `0x`, octal behind `0`. -/
def numeral? : List Char → Option Nat
  | '0' :: 'x' :: c :: digits => digitsValue? 16 (c :: digits)
  | '0' :: 'X' :: c :: digits => digitsValue? 16 (c :: digits)
  | '0' :: digits => digitsValue? 8 digits
  | [] => none
  | digits => digitsValue? 10 digits

/-- The number that the value of a variable names; a missing one names zero. -/
def number? (text : String) : Option Int :=
  let blank (c : Char) : Bool := c == ' ' || c == '\t' || c == '\n'
  let cs := ((text.toList.dropWhile blank).reverse.dropWhile blank).reverse
  match cs with
  | [] => some 0
  | '-' :: digits => (numeral? digits).map fun n => -(n : Int)
  | '+' :: digits => (numeral? digits).map fun n => (n : Int)
  | digits => (numeral? digits).map fun n => (n : Int)

/-- The value of a variable. -/
def lookUp (name : String) : Work Int := do
  let text := ((← get).vars.get? name).getD ""
  match number? text with
  | some n => return n
  | none => fail (.notNumber text)

/-- Gives a variable a value. -/
def assign (name : String) (value : Int) : Work Unit := modify fun s =>
  { s with
    vars := s.vars.put name (toString value)
    assigned := (name, toString value) :: s.assigned }

/-- Whether a character may begin a name. -/
def startsName (c : Char) : Bool := c.isAlpha || c == '_'

/-- Whether a character may stand in a name. -/
def isNameChar (c : Char) : Bool := c.isAlphanum || c == '_'

/-- The assignment signs and the operators that they apply. -/
def assignmentSigns : List (String × Option String) :=
  [("=", none), ("+=", some "+"), ("-=", some "-"), ("*=", some "*"), ("/=", some "/"),
    ("%=", some "%"), ("<<=", some "<<"), (">>=", some ">>"), ("&=", some "&"), ("^=", some "^"),
    ("|=", some "|")]

/-- The variable and the assignment sign at hand, and the length of the name. -/
def assignment? : Work (Option (String × String × Option String)) := do
  skipBlanks
  let before ← get
  match before.rest with
  | [] => return none
  | c :: _ =>
    if !startsName c then return none
    else
      let name := before.rest.takeWhile isNameChar
      skip name.length
      match ← sign? with
      | none =>
        set before
        return none
      | some sign =>
        match assignmentSigns.lookup sign with
        | some op => return some (String.ofList name, sign, op)
        | none =>
          set before
          return none

mutual

/-- An assignment or what binds closer; `live` says that its value matters. -/
def assignment (fuel : Nat) (live : Bool) : Work Int := do
  match fuel with
  | 0 => fail .tooDeep
  | fuel + 1 =>
    match ← assignment? with
    | none => conditional fuel live
    | some (name, sign, op) =>
      skip sign.length
      let right ← assignment fuel live
      if !live then return right
      else
        let value ← match op with
          | none => pure right
          | some op => do apply op (← lookUp name) right
        assign name value
        return value
  termination_by structural fuel

/-- A choice between two parts, or what binds closer. -/
def conditional (fuel : Nat) (live : Bool) : Work Int := do
  match fuel with
  | 0 => fail .tooDeep
  | fuel + 1 =>
    let condition ← binary fuel levels live
    if (← sign?) == some "?" then
      skip 1
      let a ← assignment fuel (live && condition != 0)
      expect ":"
      let b ← conditional fuel (live && condition == 0)
      return if condition != 0 then a else b
    else return condition
  termination_by structural fuel

/-- Operands joined by the operators of the given levels. -/
def binary (fuel : Nat) (rest : List (List String)) (live : Bool) : Work Int := do
  match fuel with
  | 0 => fail .tooDeep
  | fuel + 1 =>
    match rest with
    | [] => operand fuel live
    | level :: closer =>
      let first ← binary fuel closer live
      joined fuel level closer live first
  termination_by structural fuel

/-- What follows an operand on a level. -/
def joined (fuel : Nat) (level : List String) (closer : List (List String)) (live : Bool)
    (first : Int) : Work Int := do
  match fuel with
  | 0 => fail .tooDeep
  | fuel + 1 =>
    match ← sign? with
    | none => return first
    | some op =>
      if !level.contains op then return first
      else
        skip op.length
        let matters := live && !(op == "||" && first != 0) && !(op == "&&" && first == 0)
        let second ← binary fuel closer matters
        let value ← if matters then apply op first second
          else pure (if op == "||" then 1 else 0)
        joined fuel level closer live value
  termination_by structural fuel

/-- A number, a variable, a part in parentheses, or one of them behind a sign. -/
def operand (fuel : Nat) (live : Bool) : Work Int := do
  match fuel with
  | 0 => fail .tooDeep
  | fuel + 1 =>
    match ← sign? with
    | some "-" =>
      skip 1
      return wrap (-(← operand fuel live))
    | some "+" =>
      skip 1
      operand fuel live
    | some "!" =>
      skip 1
      return ofBool ((← operand fuel live) == 0)
    | some "~" =>
      skip 1
      return wrap (-(← operand fuel live) - 1)
    | some "(" =>
      skip 1
      let value ← assignment fuel live
      expect ")"
      return value
    | some _ => fail .expectingOperand
    | none =>
      let text := (← get).rest
      match text with
      | [] => fail .expectingOperand
      | c :: _ =>
        let word := text.takeWhile isNameChar
        if startsName c then
          skip word.length
          if live then lookUp (String.ofList word) else return 0
        else if c.isDigit then
          skip word.length
          match numeral? word with
          | some n => return wrap n
          | none => fail .expectingEnd
        else fail .expectingOperand
  termination_by structural fuel

end

/-- The value of a sum and the variables that it assigns, the last one first. -/
def eval (vars : Scope) (text : String) : Except Fault (Int × List (String × String)) := do
  let work : Work Int := do
    skipBlanks
    if (← get).rest.isEmpty then return 0
    else
      let value ← assignment (20 * text.length + 60) true
      skipBlanks
      if (← get).rest.isEmpty then return value else fail .expectingEnd
  let (value, s) ← work.run { rest := text.toList, vars := vars }
  return (value, s.assigned)

end Runbook.Shell.Sum

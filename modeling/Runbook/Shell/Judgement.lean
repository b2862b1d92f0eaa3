import Runbook.Files.Disk
import Runbook.Shell.Arithmetic

/-!
# Judging conditions

The conditions that `test` and `[` judge: texts, numbers and files, joined by `-a`, `-o`, `!` and
parentheses. One argument alone is true if it is not empty, whatever it is.
-/

set_option autoImplicit false

namespace Runbook.Shell.Judgement

/-- What is wrong with a condition. -/
inductive Fault where
  | argumentExpected
  | closingExpected
  | unexpectedOperator (word : String)
  | notNumber (word : String)
  | missingBracket
  deriving DecidableEq, Repr

/-- The message for a fault. -/
def Fault.message : Fault → String
  | argumentExpected => "argument expected"
  | closingExpected => "closing paren expected"
  | unexpectedOperator word => s!"{word}: unexpected operator"
  | notNumber word => s!"Illegal number: {word}"
  | missingBracket => "missing ]"

/-- The disk, and the folder from which paths are seen. -/
structure Ground where
  disk : Files.Disk
  folder : Path

/-- A step of judging: the words that are left. -/
abbrev Judging := StateT (List String) (Except Fault)

/-- Fails. -/
def fail {α : Type} (fault : Fault) : Judging α := fun _ => .error fault

/-- The number that a word names. -/
def number (word : String) : Except Fault Int :=
  let cs := ((word.toList.dropWhile (· == ' ')).reverse.dropWhile (· == ' ')).reverse
  let (sign, digits) := match cs with
    | '-' :: d => ((-1 : Int), d)
    | '+' :: d => (1, d)
    | d => (1, d)
  if digits.isEmpty then .error (.notNumber word)
  else
    match Sum.digitsValue? 10 digits with
    | some n => .ok (sign * n)
    | none => .error (.notNumber word)

/-- The operators on one word. -/
def unaryOperators : List String :=
  ["-n", "-z", "-e", "-f", "-d", "-r", "-w", "-x", "-s", "-h", "-L", "-t", "-p", "-S", "-b", "-c",
    "-g", "-u", "-k", "-O", "-G"]

/-- The operators between two words. -/
def binaryOperators : List String :=
  ["=", "!=", "<", ">", "-eq", "-ne", "-lt", "-le", "-gt", "-ge", "-nt", "-ot", "-ef"]

/-- Judges an operator on one word. -/
def unary (g : Ground) (op word : String) : Bool :=
  let path := g.folder.join (Path.ofString word)
  match op with
  | "-n" => word != ""
  | "-z" => word == ""
  | "-e" => g.disk.has path || word == "/dev/null" || word == "/"
  | "-f" => g.disk.isFile path
  | "-d" => g.disk.isFolder path || word == "/"
  | "-r" | "-w" => g.disk.has path || word == "/dev/null"
  | "-x" => g.disk.isFolder path
  | "-s" => match g.disk.read path with
    | .ok bytes => !bytes.isEmpty
    | .error _ => g.disk.isFolder path
  | "-O" | "-G" => g.disk.has path
  | _ => false

/-- Judges an operator between two words. -/
def binary (a op b : String) : Except Fault Bool :=
  let compare (f : Int → Int → Bool) : Except Fault Bool := do
    let x ← number a
    return f x (← number b)
  match op with
  | "=" => .ok (a == b)
  | "!=" => .ok (a != b)
  | "<" => .ok (a < b)
  | ">" => .ok (b < a)
  | "-eq" => compare (· == ·)
  | "-ne" => compare (· != ·)
  | "-lt" => compare (· < ·)
  | "-le" => compare (· ≤ ·)
  | "-gt" => compare (· > ·)
  | "-ge" => compare (· ≥ ·)
  | _ => .ok false

/-- Takes the next word. -/
def next? : Judging (Option String) := do
  match ← get with
  | [] => return none
  | word :: rest =>
    set rest
    return some word

mutual

/-- Conditions joined by `-o`. -/
def anyOf (g : Ground) (fuel : Nat) : Judging Bool := do
  match fuel with
  | 0 => fail .argumentExpected
  | fuel + 1 =>
    let first ← allOf g fuel
    match ← get with
    | "-o" :: rest =>
      set rest
      let second ← anyOf g fuel
      return first || second
    | _ => return first
  termination_by structural fuel

/-- Conditions joined by `-a`. -/
def allOf (g : Ground) (fuel : Nat) : Judging Bool := do
  match fuel with
  | 0 => fail .argumentExpected
  | fuel + 1 =>
    let first ← single g fuel
    match ← get with
    | "-a" :: rest =>
      set rest
      let second ← allOf g fuel
      return first && second
    | _ => return first
  termination_by structural fuel

/-- A single condition. -/
def single (g : Ground) (fuel : Nat) : Judging Bool := do
  match fuel with
  | 0 => fail .argumentExpected
  | fuel + 1 =>
    match ← get with
    | [] => fail .argumentExpected
    | a :: op :: b :: rest =>
      if binaryOperators.contains op then
        set rest
        match binary a op b with
        | .ok truth => return truth
        | .error fault => fail fault
      else prefixed g fuel
    | _ => prefixed g fuel
  termination_by structural fuel

/-- A condition that begins with its operator, or a word alone. -/
def prefixed (g : Ground) (fuel : Nat) : Judging Bool := do
  match fuel with
  | 0 => fail .argumentExpected
  | fuel + 1 =>
    match ← next? with
    | none => fail .argumentExpected
    | some "!" =>
      if (← get).isEmpty then return true
      else return !(← single g fuel)
    | some "(" =>
      let truth ← anyOf g fuel
      match ← next? with
      | some ")" => return truth
      | _ => fail .closingExpected
    | some word =>
      if unaryOperators.contains word then
        match ← get with
        | [] => return word != ""
        | operand :: rest =>
          set rest
          return unary g word operand
      else return word != ""
  termination_by structural fuel

end

/-- Judges a list of words. -/
def judge (g : Ground) (words : List String) : Except Fault Bool :=
  match words with
  | [] => .ok false
  | [word] => .ok (word != "")
  | _ => do
    let (truth, rest) ← (anyOf g (6 * words.length + 6)).run words
    if rest.isEmpty then return truth
    else throw (.unexpectedOperator ((words[words.length - rest.length - 1]?).getD ""))

/-- Judges the words behind `[`, the last of which is `]`. -/
def judgeBracket (g : Ground) (words : List String) : Except Fault Bool :=
  if words.getLast? == some "]" then judge g words.dropLast else .error .missingBracket

end Runbook.Shell.Judgement

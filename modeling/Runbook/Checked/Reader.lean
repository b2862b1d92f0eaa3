import Runbook.Checked.Basic
import Runbook.Timestamp.Reader

/-!
# Readers of simple values

The readers from which those of the definitions are built. Texts must be texts. An integer may also
come as a number without fraction, a truth value or a numeral; a truth value also as zero, one or a
word; a point in time also as a number of seconds.
-/

set_option autoImplicit false

namespace Runbook.Checked

variable {α : Type}

/-- Reads a text. -/
def text : Json → Checked String
  | .str s => .ok s
  | other => fail .notString other

/-- Whether a character may surround a numeral. -/
def isNumeralSpace (c : Char) : Bool :=
  let n := c.toNat
  (9 ≤ n && n ≤ 13) || n == 32 || n == 0x85 || n == 0xA0 || n == 0x1680 ||
    (0x2000 ≤ n && n ≤ 0x200A) || n == 0x2028 || n == 0x2029 || n == 0x202F || n == 0x205F ||
    n == 0x3000

/-- Takes single underscores out from between digits; none if one stands elsewhere. -/
def joinDigits : List Char → Option (List Char)
  | [] => none
  | [c] => if c.isDigit then some [c] else none
  | c :: '_' :: d :: rest =>
    if c.isDigit && d.isDigit then (joinDigits (d :: rest)).map (c :: ·) else none
  | c :: d :: rest => if c.isDigit then (joinDigits (d :: rest)).map (c :: ·) else none

/-- The integer that a numeral names: a sign, digits, and possibly a point and zeros. -/
def numeral? (cs : List Char) : Option Int :=
  let cs := ((cs.dropWhile isNumeralSpace).reverse.dropWhile isNumeralSpace).reverse
  let (negative, cs) := match cs with
    | '-' :: r => (true, r)
    | '+' :: r => (false, r)
    | r => (false, r)
  let whole := cs.takeWhile (· != '.')
  let tail := cs.drop whole.length
  let tailFits := match tail with
    | [] => true
    | _ :: zeros => !zeros.isEmpty && zeros.all (· == '0')
  if !tailFits then none
  else (joinDigits whole).map fun digits =>
    let size : Nat := digits.foldl (fun n c => n * 10 + (c.toNat - 48)) 0
    if negative then -(size : Int) else size

/-- Reads an integer. -/
def int : Json → Checked Int
  | .int n => .ok n
  | .bool b => .ok (if b then 1 else 0)
  | .real x =>
    match x with
    | .finite .. =>
      match x.toInt? with
      | some n => if -Nat.pow 2 63 ≤ n && n < Nat.pow 2 63 then .ok n else fail .intSize (.real x)
      | none => fail .intFraction (.real x)
    | _ => fail .intNotFinite (.real x)
  | .str s =>
    match numeral? s.toList with
    | some n => if s.length > 4300 then fail .intSize (.str s) else .ok n
    | none => fail .intText (.str s)
  | other => fail .notInt other

/-- Reads a truth value. -/
def bool (value : Json) : Checked Bool :=
  let ofInt (n : Int) : Checked Bool :=
    if n == 0 then .ok false else if n == 1 then .ok true
    else if -Nat.pow 2 63 ≤ n && n < Nat.pow 2 63 then fail .boolText value else fail .notBool value
  match value with
  | .bool b => .ok b
  | .int n => ofInt n
  | .real x =>
    match x.toInt? with
    | some n => ofInt n
    | none => fail .notBool value
  | .str s =>
    let word := s.map Char.toLower
    if ["true", "yes", "on", "y", "t", "1"].contains word then .ok true
    else if ["false", "no", "off", "n", "f", "0"].contains word then .ok false
    else fail .boolText value
  | _ => fail .notBool value

/-- Reads a point in time. -/
def timestamp (value : Json) : Checked Timestamp :=
  let orFault (t : Option Timestamp) (cause : Cause) : Checked Timestamp :=
    match t with
    | some t => .ok t
    | none => fail cause value
  match value with
  | .str s => orFault (Timestamp.read? s) (.timestampText (Timestamp.flawOfText s))
  | .int n =>
    if n.natAbs < Nat.pow 2 63 then
      orFault (Timestamp.ofCount? n 0) (.timestampNumber (Timestamp.flawOfSign (n < 0)))
    else fail .notTimestamp value
  | .real x => orFault (Timestamp.ofBinary? x) (.timestampNumber (Timestamp.flawOfBinary x))
  | _ => fail .notTimestamp value

/-- Reads a value or its absence, written as null. -/
def nullable (read : Json → Checked α) : Json → Checked (Option α)
  | .null => .ok none
  | other => some <$> read other

/-- Reads a value, null standing for a default. -/
def nullAs (default : α) (read : Json → Checked α) : Json → Checked α
  | .null => .ok default
  | other => read other

/-- Reads items from position `n` on. -/
def itemsFrom (read : Json → Checked α) : Nat → List Json → Checked (List α)
  | _, [] => .ok []
  | n, item :: items =>
    List.cons <$> under (.index n) (read item) <*> itemsFrom read (n + 1) items

/-- Reads a list. -/
def list (read : Json → Checked α) : Json → Checked (List α)
  | .arr items => itemsFrom read 0 items
  | other => fail .notList other

/-- Reads the values of named texts. -/
def scopeFields : Assoc Json → Checked Scope
  | [] => .ok []
  | (name, value) :: rest =>
    (fun text more => (name, text) :: more) <$> under (.field name) (text value) <*>
      scopeFields rest

/-- Reads named texts. -/
def scope : Json → Checked Scope
  | .obj fields => scopeFields fields
  | other => fail .notDict other

/-- Reads an object of the named model by its fields. -/
def model (name : String) (read : Assoc Json → Checked α) : Json → Checked α
  | .obj fields => read fields
  | other => fail (.notModel name) other

/-- Reads a field that must be there. -/
def required (fields : Assoc Json) (name : String) (read : Json → Checked α) : Checked α :=
  under (.field name) <|
    match fields.get? name with
    | some value => read value
    | none => fail .missing (.obj fields)

/-- Reads a field that has a default. -/
def optional (fields : Assoc Json) (name : String) (default : α) (read : Json → Checked α) :
    Checked α :=
  match fields.get? name with
  | some value => under (.field name) (read value)
  | none => .ok default

end Runbook.Checked

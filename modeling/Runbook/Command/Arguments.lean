import Runbook.Text.Quoted
import Runbook.Text.Word

/-!
# The grammar of command lines

A command line is a list of words. A `Grammar` says which flags it may hold, some of which take a
value, and which operands it must hold, in their order. Every word first gets a `Look`: what it is
taken for by itself. Then the words are read from the left, each flag with its value; the last
operand may be a command, which takes all words behind it.

A flag may be shortened as long as one flag only is meant, its value may stand in the same word, and
behind the first `--` every word is an operand. A word that looks like a flag but is none is left
over, as are operands that are too many.
-/

set_option autoImplicit false

namespace Runbook.Command

/-! ## Grammars -/

/-- What a flag is for. -/
inductive Purpose where
  | help
  | version
  | value
  deriving DecidableEq, Repr

/-- A flag, which may be spelled in several ways. -/
structure Flag where
  spellings : List String
  purpose : Purpose
  deriving DecidableEq, Repr

/-- A flag as messages name it. -/
def Flag.title (f : Flag) : String := "/".intercalate f.spellings

/-- The flag that asks for help. -/
def Flag.help : Flag := ⟨["-h", "--help"], .help⟩

/-- Something that must be given. -/
inductive Operand where
  | one (name : String)
  /-- One of the given commands, and all words behind it. -/
  | command (name : String) (choices : List String)
  deriving DecidableEq, Repr

/-- The name of an operand. -/
def Operand.name : Operand → String
  | one name => name
  | command name _ => name

/-- What a command line may hold. -/
structure Grammar where
  program : String
  flags : List Flag
  operands : List Operand
  deriving DecidableEq, Repr

/-- Every spelling with its flag, in the order of the grammar. -/
def Grammar.spellings (g : Grammar) : List (String × Flag) :=
  g.flags.flatMap fun f => f.spellings.map (·, f)

/-- The flag with a spelling. -/
def Grammar.flag? (g : Grammar) (spelling : String) : Option Flag := g.spellings.lookup spelling

/-! ## Misuse -/

/-- What can be wrong with a command line. -/
inductive Misuse where
  | ambiguous (word : String) (spellings : List String)
  | valueMissing (flag : Flag)
  | valueUnwanted (flag : Flag) (value : String)
  | operandsMissing (names : List String)
  | noSuchChoice (operand value : String) (choices : List String)
  | leftOver (words : List String)
  deriving DecidableEq, Repr

/-- The message for a misuse. -/
def Misuse.message : Misuse → String
  | ambiguous word spellings =>
    s!"ambiguous option: {word} could match " ++ ", ".intercalate spellings
  | valueMissing flag => s!"argument {flag.title}: expected one argument"
  | valueUnwanted flag value =>
    s!"argument {flag.title}: ignored explicit argument {Text.quoted value}"
  | operandsMissing names => "the following arguments are required: " ++ ", ".intercalate names
  | noSuchChoice operand value choices =>
    s!"argument {operand}: invalid choice: {Text.quoted value} (choose from " ++
      ", ".intercalate (choices.map Text.quoted) ++ ")"
  | leftOver words => "unrecognized arguments: " ++ " ".intercalate words

/-- Why reading a command line ends early. -/
inductive Stop where
  | help
  | version
  | misuse (misuse : Misuse)
  deriving DecidableEq, Repr

/-! ## Looks -/

/-- A value in the same word as its flag. -/
inductive Attached where
  | nothing
  | behindEquals (text : String)
  /-- Directly behind a flag of one letter. -/
  | glued (text : String)
  deriving DecidableEq, Repr

/-- What a word is taken for. -/
inductive Look where
  | operand
  /-- All words behind it are operands. -/
  | divider
  | unknownFlag
  | flag (flag : Flag) (attached : Attached)
  deriving DecidableEq, Repr

/-- The part of a word in front of its first equals sign, and what is behind the sign. -/
def cutAtEquals (word : List Char) : String × Attached :=
  match word.span (· != '=') with
  | (name, _ :: value) => (String.ofList name, .behindEquals (String.ofList value))
  | (name, []) => (String.ofList name, .nothing)

/-- The flags that a word may shorten, or that it starts with if they have one letter. -/
def Grammar.candidates (g : Grammar) (word : List Char) : List (String × Flag × Attached) :=
  match word with
  | '-' :: '-' :: _ =>
    let (name, attached) := cutAtEquals word
    (g.spellings.filter fun (spelling, _) => spelling.startsWith name).map
      fun (spelling, flag) => (spelling, flag, attached)
  | _ =>
    g.spellings.filterMap fun (spelling, flag) =>
      if spelling.toList == word.take 2 then
        some (spelling, flag, .glued (String.ofList (word.drop 2)))
      else if spelling.startsWith (String.ofList word) then some (spelling, flag, .nothing)
      else none

/-- Whether all characters are digits, and there is one. -/
def isDigits (cs : List Char) : Bool := !cs.isEmpty && cs.all Text.isDigit

/-- Whether what is behind a minus sign is a number; a line feed may end it. -/
def isNumeral (cs : List Char) : Bool :=
  let cs := if cs.getLast? == some '\n' then cs.dropLast else cs
  match cs.span (· != '.') with
  | (whole, []) => isDigits whole
  | (whole, _ :: fraction) => whole.all Text.isDigit && isDigits fraction

/-- What a word behind a minus sign is taken for if it spells no flag in full. -/
def Grammar.shortened (g : Grammar) (behind : List Char) : Except Misuse Look :=
  match g.candidates ('-' :: behind) with
  | [(_, flag, attached)] => .ok (.flag flag attached)
  | [] => .ok (if isNumeral behind || behind.contains ' ' then .operand else .unknownFlag)
  | many => .error (.ambiguous (String.ofList ('-' :: behind)) (many.map (·.1)))

/-- What a word that is no divider is taken for. -/
def Grammar.look (g : Grammar) (word : String) : Except Misuse Look :=
  match word.toList with
  | ['-'] => .ok .operand
  | '-' :: behind =>
    match g.flag? word with
    | some flag => .ok (.flag flag .nothing)
    | none =>
      match cutAtEquals ('-' :: behind) with
      | (_, .nothing) => g.shortened behind
      | (name, attached) =>
        match g.flag? name with
        | some flag => .ok (.flag flag attached)
        | none => g.shortened behind
  | _ => .ok .operand

/-- What the words of a command line are taken for. -/
def Grammar.looks (g : Grammar) : List String → Except Misuse (List (String × Look))
  | [] => .ok []
  | word :: rest =>
    if word == "--" then .ok ((word, .divider) :: rest.map (·, .operand))
    else do
      let look ← g.look word
      return (word, look) :: (← g.looks rest)

/-! ## Reading -/

/-- What was read of a command line. -/
structure Reading where
  /-- The operands that are still to come. -/
  pending : List Operand
  /-- The operands in their order; `none` stands for a second divider, which is no value. -/
  operands : List (Option String) := []
  /-- The values of flags in their order. -/
  values : List (Flag × String) := []
  /-- The command and the words behind it. -/
  command : List String := []
  leftOver : List String := []
  deriving DecidableEq, Repr

/-- The values of a flag. -/
def Reading.valuesOf (r : Reading) (flag : Flag) : List String :=
  (r.values.filter (·.1 == flag)).map (·.2)

/-- The operand at a place. -/
def Reading.operand (r : Reading) (n : Nat) : Option String := (r.operands[n]?).join

/-- Checks what is attached to a flag without value: only more flags of one letter may be. -/
def Grammar.checkAttached (g : Grammar) (flag : Flag) : List Char → Except Misuse Unit
  | [] => .ok ()
  | c :: rest =>
    if c == '-' then .error (.valueUnwanted flag (String.ofList (c :: rest)))
    else
      match g.flag? (String.ofList ['-', c]), rest with
      | none, _ => .ok ()
      | some next, '=' :: value => .error (.valueUnwanted next (String.ofList value))
      | some next, rest => g.checkAttached next rest

/-- What a flag without value comes to. -/
def Grammar.stopAt (g : Grammar) (flag : Flag) (attached : Attached) : Stop :=
  let checked : Except Misuse Unit := match attached with
    | .nothing => .ok ()
    | .behindEquals value => .error (.valueUnwanted flag value)
    | .glued text => g.checkAttached flag text.toList
  match checked with
  | .error misuse => .misuse misuse
  | .ok () => if flag.purpose == Purpose.version then Stop.version else Stop.help

/-- The words behind a divider, if one comes first. -/
def skipDivider : List (String × Look) → List (String × Look)
  | (_, .divider) :: rest => rest
  | words => words

theorem length_skipDivider_le (words : List (String × Look)) :
    (skipDivider words).length ≤ words.length := by
  unfold skipDivider
  split <;> simp

/-- Notes the value of a flag. -/
def Reading.giveValue (r : Reading) (flag : Flag) (value : String) : Reading :=
  { r with values := r.values ++ [(flag, value)] }

/-- Notes the next operand. -/
def Reading.giveOperand (r : Reading) (value : Option String) : Reading :=
  { r with pending := r.pending.tail, operands := r.operands ++ [value] }

/-- Leaves a word over. -/
def Reading.leave (r : Reading) (word : String) : Reading :=
  { r with leftOver := r.leftOver ++ [word] }

/-- Reads words from the left. -/
def Grammar.readFrom (g : Grammar) (r : Reading) : List (String × Look) → Except Stop Reading
  | [] => .ok r
  | (word, .unknownFlag) :: rest => g.readFrom (r.leave word) rest
  | (_, .flag flag attached) :: rest =>
    if flag.purpose != Purpose.value then .error (g.stopAt flag attached)
    else
      match attached with
      | .behindEquals value => g.readFrom (r.giveValue flag value) rest
      | .glued value => g.readFrom (r.giveValue flag value) rest
      | .nothing =>
        match rest with
        | (value, .operand) :: later => g.readFrom (r.giveValue flag value) later
        | _ => .error (.misuse (.valueMissing flag))
  | (word, .divider) :: rest =>
    match r.pending.head?, rest with
    | some (.one _), (value, .operand) :: later => g.readFrom (r.giveOperand (some value)) later
    | some (.command name choices), _ :: _ => .error (.misuse (.noSuchChoice name word choices))
    | _, _ => .ok { r with leftOver := r.leftOver ++ word :: rest.map (·.1) }
  | (word, .operand) :: rest =>
    match r.pending.head? with
    | none => g.readFrom (r.leave word) rest
    | some (.one _) =>
      have : (skipDivider rest).length < rest.length + 1 :=
        Nat.lt_succ_of_le (length_skipDivider_le rest)
      g.readFrom (r.giveOperand (if word == "--" then none else some word)) (skipDivider rest)
    | some (.command name choices) =>
      if choices.contains word then
        .ok { r with pending := r.pending.tail, command := word :: rest.map (·.1) }
      else .error (.misuse (.noSuchChoice name word choices))
termination_by words => words.length

/-- Reads a command line. -/
def Grammar.read (g : Grammar) (words : List String) : Except Stop Reading := do
  let looks ← (g.looks words).mapError Stop.misuse
  let r ← g.readFrom { pending := g.operands } looks
  if r.pending.isEmpty then return r
  else throw (.misuse (.operandsMissing (r.pending.map Operand.name)))

end Runbook.Command

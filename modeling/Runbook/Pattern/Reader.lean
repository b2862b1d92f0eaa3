import Runbook.Pattern.Syntax
import Runbook.Text.Half
import Runbook.Text.Quoted
import Runbook.Text.Word

/-!
# Reading search patterns

`Pattern.read` turns the text of a pattern into its tree and flags, or says what is wrong with it.
Most faults have a place; the others are not faults of the pattern's form but of its size, nesting or
flags, and are told apart by `Fault.isMalformed`.
-/

set_option autoImplicit false

namespace Runbook.Pattern

/-- What is wrong with a pattern. -/
inductive Fault where
  | malformed (message : String) (place : Option Nat)
  | repetitionTooLarge
  | tooManyDigits (count : Nat)
  | flagsConflict
  | tooDeep
  deriving DecidableEq, Repr

/-- Whether the pattern is not well formed, as opposed to too large or deep or with conflicting
flags. -/
def Fault.isMalformed : Fault → Bool
  | .malformed .. => true
  | _ => false

/-- The name of the kind of fault. -/
def Fault.kind : Fault → String
  | .malformed .. => "error"
  | .repetitionTooLarge => "OverflowError"
  | .tooManyDigits _ => "ValueError"
  | .flagsConflict => "ValueError"
  | .tooDeep => "RecursionError"

/-- The message for a fault of a pattern. A pattern of several lines has its place shown also by
line and column. -/
def Fault.message (pattern : String) : Fault → String
  | .malformed message none => message
  | .malformed message (some place) =>
    let cs := pattern.toList
    let before := cs.take place
    let line := before.count '\n' + 1
    let column := (before.reverse.takeWhile (· != '\n')).length + 1
    let shown := s!"{message} at position {place}"
    if cs.contains '\n' then s!"{shown} (line {line}, column {column})" else shown
  | .repetitionTooLarge => "the repetition number is too large"
  | .tooManyDigits count =>
    s!"Exceeds the limit (4300 digits) for integer string conversion: value has {count} digits; " ++
      "use sys.set_int_max_str_digits() to increase the limit"
  | .flagsConflict => "ASCII and UNICODE flags are incompatible"
  | .tooDeep => "maximum recursion depth exceeded"

/-- A token of a pattern: one character, or a backslash with the character behind it. -/
inductive Token where
  | plain (c : Char)
  | escaped (c : Char)
  deriving DecidableEq, Repr

/-- The number of characters of a token. -/
def Token.size : Token → Nat
  | .plain _ => 1
  | .escaped _ => 2

/-- The characters of a token. -/
def Token.source : Token → List Char
  | .plain c => [c]
  | .escaped c => ['\\', c]

/-- The state of reading: what is left from `place` on, and the groups seen so far. -/
structure Source where
  place : Nat
  rest : List Char
  /-- The flags for the whole pattern. -/
  flags : Flags
  /-- The widths of the groups; an open one has none. The first is the whole pattern. -/
  groups : List (Option (Nat × Nat))
  names : List (String × Nat)
  /-- The number of groups at the start of the outermost look behind. -/
  behindGroups : Option Nat
  /-- The groups that conditions refer to, and where. -/
  conditionPlaces : List (Nat × Nat)

/-- Reading with faults. -/
abbrev Parse (α : Type) := StateT Source (Except Fault) α

namespace Parse

/-- Fails with a message at a place `back` characters before the next token. -/
def failAt {α : Type} (message : String) (back : Nat) : Parse α := do
  throw (.malformed message (some ((← get).place - back)))

/-- The next token. -/
def peek : Parse (Option Token) := do
  match (← get).rest with
  | '\\' :: c :: _ => return some (.escaped c)
  | c :: _ => return some (.plain c)
  | [] => return none

/-- Refuses a backslash at the very end as soon as it is the next token. -/
def checkNext : Parse Unit := do
  let s ← get
  match s.rest with
  | ['\\'] => throw (.malformed "bad escape (end of pattern)" (some s.place))
  | _ => return ()

/-- Takes the next token. -/
def next : Parse (Option Token) := do
  let token ← peek
  match token with
  | none => return none
  | some t =>
    modify fun s => { s with place := s.place + t.size, rest := s.rest.drop t.size }
    checkNext
    return some t

/-- Takes the next token if it is the given character. -/
def accept (c : Char) : Parse Bool := do
  if (← peek) == some (.plain c) then
    let _ ← next
    return true
  else return false

/-- Takes at most `n` characters of a class. -/
def takeUpTo (allowed : Char → Bool) : Nat → Parse (List Char)
  | 0 => return []
  | n + 1 => do
    match ← peek with
    | some (.plain c) =>
      if allowed c then
        let _ ← next
        return c :: (← takeUpTo allowed n)
      else return []
    | _ => return []

/-- Takes the characters up to a closing one, which ends the name of what is described. -/
def takeUntil (closing : Char) (what : String) : Nat → List Char → Parse (List Char)
  | 0, read => return read
  | fuel + 1, read => do
    match ← next with
    | none =>
      if read.isEmpty then failAt ("missing " ++ what) 0
      else failAt s!"missing {closing}, unterminated name" read.length
    | some t =>
      if t == .plain closing then
        if read.isEmpty then failAt ("missing " ++ what) 1 else return read
      else takeUntil closing what fuel (read ++ t.source)

end Parse

open Parse

/-- Whether a character is an octal digit. -/
def isOctal (c : Char) : Bool := '0' ≤ c && c ≤ '7'

/-- Whether a character is an ASCII letter. -/
def isLetter (c : Char) : Bool := ('a' ≤ c && c ≤ 'z') || ('A' ≤ c && c ≤ 'Z')

/-- Whether a character is a hexadecimal digit. -/
def isHex (c : Char) : Bool := c.isDigit || ('a' ≤ c && c ≤ 'f') || ('A' ≤ c && c ≤ 'F')

/-- The number that digits of a base name. -/
def digitsValue (base : Nat) (cs : List Char) : Nat :=
  cs.foldl (fun n c =>
    let d := if c.isDigit then c.toNat - 48
      else if c.toNat ≥ 97 then c.toNat - 87 else c.toNat - 55
    n * base + d) 0

/-- The number of a run of decimal digits, unless there are too many to read. -/
def decimalValue (cs : List Char) : Parse Nat :=
  if cs.length > 4300 then throw (.tooManyDigits cs.length) else return digitsValue 10 cs

/-- The characters of escapes that name a control. -/
def controlEscape? : Char → Option Char
  | 'a' => some '\x07'
  | 'b' => some '\x08'
  | 'f' => some '\x0c'
  | 'n' => some '\n'
  | 'r' => some '\r'
  | 't' => some '\t'
  | 'v' => some '\x0b'
  | '\\' => some '\\'
  | _ => none

/-- The classes that escapes name. -/
def classEscape? : Char → Option SetItem
  | 'd' => some (.ofClass .digit false)
  | 'D' => some (.ofClass .digit true)
  | 's' => some (.ofClass .space false)
  | 'S' => some (.ofClass .space true)
  | 'w' => some (.ofClass .word false)
  | 'W' => some (.ofClass .word true)
  | _ => none

/-- The places that escapes name. -/
def anchorEscape? : Char → Option Anchor
  | 'A' => some .textStart
  | 'b' => some .boundary
  | 'B' => some .noBoundary
  | 'Z' => some .textEnd
  | _ => none

/-- Reads the digits of an escape with a fixed number of hexadecimal digits. -/
def readHexEscape (letter : Char) (count : Nat) : Parse Char := do
  let digits ← takeUpTo isHex count
  let source := String.ofList ('\\' :: letter :: digits)
  if digits.length != count then failAt ("incomplete escape " ++ source) (digits.length + 2)
  else
    let code := digitsValue 16 digits
    if code > 0x10FFFF then failAt ("bad escape " ++ source) (digits.length + 2)
    else if 0xD800 ≤ code && code ≤ 0xDFFF then return Text.halfChar code
    else return Char.ofNat code

/-- Reads the name of a character in braces; no names are known. -/
def readNamedEscape : Parse Char := do
  if !(← accept '\x7b') then failAt "missing \x7b" 0
  else
    let name ← takeUntil '\x7d' "character name" ((← get).rest.length + 1) []
    failAt ("undefined character name " ++ Text.quoted (String.ofList name)) (name.length + 4)

/-- Refuses an octal escape above the range of one byte. -/
def octalChar (digits : List Char) : Parse Char := do
  let code := digitsValue 8 digits
  if code > 0o377 then
    let escape := String.ofList ('\\' :: digits)
    failAt s!"octal escape value {escape} outside of range 0-0o377" (digits.length + 1)
  else return Char.ofNat code

/-- The escape in a set of characters. -/
def readSetEscape (c : Char) : Parse SetItem := do
  match controlEscape? c, classEscape? c with
  | some ch, _ => return .char ch
  | none, some item => return item
  | none, none =>
    if c == 'x' then return .char (← readHexEscape c 2)
    else if c == 'u' then return .char (← readHexEscape c 4)
    else if c == 'U' then return .char (← readHexEscape c 8)
    else if c == 'N' then return .char (← readNamedEscape)
    else if isOctal c then
      let more ← takeUpTo isOctal 2
      return .char (← octalChar (c :: more))
    else if c.isDigit || isLetter c then
      failAt (String.ofList ("bad escape \\".toList ++ [c])) 2
    else return .char c

/-- Whether a group is closed. -/
def isClosed (s : Source) (index : Nat) : Bool :=
  match s.groups[index]? with
  | some (some _) => true
  | _ => false

/-- Refuses a reference inside a look behind to a group opened there. -/
def checkBehind (index : Nat) : Parse Unit := do
  let s ← get
  match s.behindGroups with
  | none => return ()
  | some outer =>
    if !isClosed s index then failAt "cannot refer to an open group" 0
    else if index ≥ outer then
      failAt "cannot refer to group defined in the same lookbehind subpattern" 0
    else return ()

/-- The reference to a closed group. -/
def backrefTo (index : Nat) : Parse Node := do
  let (low, high) := (((← get).groups[index]?).getD none).getD (0, 0)
  return .backref index low high

/-- Reads a reference to a group by number, of which the first digits are read. -/
def readReference (digits : List Char) : Parse Node := do
  let index := digitsValue 10 digits
  let s ← get
  if index < s.groups.length then
    if !isClosed s index then failAt "cannot refer to an open group" (digits.length + 1)
    else
      checkBehind index
      backrefTo index
  else failAt s!"invalid group reference {index}" digits.length

/-- The escape outside of sets. -/
def readEscape (c : Char) : Parse Node := do
  match anchorEscape? c, classEscape? c, controlEscape? c with
  | some a, _, _ => return .place a
  | none, some item, _ => return .one (.set [item] false)
  | none, none, some ch => return .one (.char ch false)
  | none, none, none =>
    let char (p : Parse Char) : Parse Node := do return .one (.char (← p) false)
    if c == 'x' then char (readHexEscape c 2)
    else if c == 'u' then char (readHexEscape c 4)
    else if c == 'U' then char (readHexEscape c 8)
    else if c == 'N' then char readNamedEscape
    else if c == '0' then
      let more ← takeUpTo isOctal 2
      char (return Char.ofNat (digitsValue 8 (c :: more)))
    else if c.isDigit then
      match ← peek with
      | some (.plain d) =>
        if d.isDigit then
          let _ ← next
          match ← peek with
          | some (.plain e) =>
            if isOctal c && isOctal d && isOctal e then
              let _ ← next
              char (octalChar [c, d, e])
            else readReference [c, d]
          | _ => readReference [c, d]
        else readReference [c]
      | _ => readReference [c]
    else if isLetter c then failAt (String.ofList ("bad escape \\".toList ++ [c])) 2
    else return .one (.char c false)

/-- A read member of a set and the text it was read from. -/
def readSetMember (t : Token) : Parse SetItem :=
  match t with
  | .escaped c => readSetEscape c
  | .plain c => return .char c

/-- Reads a set of characters from behind its opening bracket at `start`. -/
def readSet (start : Nat) : Nat → List SetItem → Parse (List SetItem)
  | 0, items => return items
  | fuel + 1, items => do
    let unterminated {α : Type} : Parse α := do
      failAt "unterminated character set" ((← get).place - start)
    match ← next with
    | none => unterminated
    | some t =>
      if t == .plain ']' && !items.isEmpty then return items.reverse
      else
        let first ← readSetMember t
        if ← accept '-' then
          match ← next with
          | none => unterminated
          | some t' =>
            if t' == .plain ']' then return (.char '-' :: first :: items).reverse
            else
              let second ← readSetMember t'
              let bad {α : Type} : Parse α :=
                failAt (String.ofList ("bad character range ".toList ++ t.source ++ '-' :: t'.source))
                  (t.size + 1 + t'.size)
              match first, second with
              | .char lo, .char hi =>
                if hi < lo then bad else readSet start fuel (.range lo hi :: items)
              | _, _ => bad
        else readSet start fuel (first :: items)

/-- The flag that a letter names. -/
def flag? : Char → Option Flags
  | 'i' => some { ignoreCase := true }
  | 'm' => some { multiline := true }
  | 's' => some { dotAll := true }
  | 'x' => some { verbose := true }
  | 'a' => some { ascii := true }
  | 't' => some { template := true }
  | 'u' => some { unicode := true }
  | 'L' => some {}
  | _ => none

/-- Whether a flag chooses the alphabet. -/
def Flags.isAlphabet (f : Flags) : Bool := f.ascii || f.unicode

/-- Whether a token is a letter, for the wording of faults. -/
def isAlphaToken : Token → Bool
  | .plain c => Text.isAlphanumeric c && !Text.isDigit c
  | .escaped _ => false

/-- The character of a plain token. -/
def Token.char? : Token → Option Char
  | .plain c => some c
  | .escaped _ => none

/-- Reads flags to turn on, the first of which is read; gives them and what ended them. -/
def readFlagsOn (c : Char) : Nat → Flags → Parse (Flags × Char)
  | 0, flags => return (flags, ')')
  | fuel + 1, flags => do
    if c == 'L' then
      failAt "bad inline flags: cannot use 'L' flag with a str pattern" 0
    else
      let flag := (flag? c).getD {}
      let flags := flags.union flag
      if flag.isAlphabet && flags.ascii && flags.unicode then
        failAt "bad inline flags: flags 'a', 'u' and 'L' are incompatible" 0
      else
        match ← next with
        | none => failAt "missing -, : or )" 0
        | some t =>
          match t.char? with
          | some d =>
            if d == ')' || d == '-' || d == ':' then return (flags, d)
            else if (flag? d).isSome then readFlagsOn d fuel flags
            else failAt (if isAlphaToken t then "unknown flag" else "missing -, : or )") t.size
          | none => failAt "missing -, : or )" t.size

/-- Reads flags to turn off, the first of which is read, up to the colon. -/
def readFlagsOff (c : Char) : Nat → Flags → Parse Flags
  | 0, flags => return flags
  | fuel + 1, flags => do
    let flag := (flag? c).getD {}
    if flag.isAlphabet || c == 'L' then
      failAt "bad inline flags: cannot turn off flags 'a', 'u' and 'L'" 0
    else
      let flags := flags.union flag
      match ← next with
      | none => failAt "missing :" 0
      | some t =>
        match t.char? with
        | some d =>
          if d == ':' then return flags
          else if (flag? d).isSome then readFlagsOff d fuel flags
          else failAt (if isAlphaToken t then "unknown flag" else "missing :") t.size
        | none => failAt "missing :" t.size

/-- Reads flags; `none` if they are for the whole pattern. -/
def readFlags (c : Char) : Parse (Option (Flags × Flags)) := do
  let fuel := (← get).rest.length + 2
  let (add, ending) ← if c == '-' then pure (({} : Flags), '-') else readFlagsOn c fuel {}
  if ending == ')' then
    modify fun s => { s with flags := s.flags.union add }
    return none
  else if add.template then failAt "bad inline flags: cannot turn on global flag" 1
  else
    let del ← if ending == '-' then do
        match ← next with
        | none => failAt "missing flag" 0
        | some t =>
          match t.char? with
          | some d =>
            if (flag? d).isSome then readFlagsOff d fuel {}
            else failAt (if isAlphaToken t then "unknown flag" else "missing flag") t.size
          | none => failAt "missing flag" t.size
      else pure {}
    if del.template then failAt "bad inline flags: cannot turn off global flag" 1
    else if add.meets del then failAt "bad inline flags: flag turned on and off" 1
    else return some (add, del)

/-- Whether a text can be the name of a group. -/
def isGroupName : List Char → Bool
  | [] => false
  | c :: rest => (c == '_' || (Text.isAlphanumeric c && !Text.isDigit c)) && rest.all Text.isWord

/-- Refuses a text that is no group name. -/
def checkName (name : List Char) : Parse Unit := do
  if isGroupName name then return ()
  else
    let message := "bad character in group name " ++ Text.quoted (String.ofList name)
    failAt message (name.length + 1)

/-- The largest count of a repetition that is still refused. -/
def repetitionLimit : Nat := 4294967295

/-- Reads the bounds of a repetition in braces; `none` if the brace stands for itself. -/
def readBounds (here : Nat) : Parse (Option (Nat × Option Nat)) := do
  let before ← get
  let fuel := before.rest.length
  if (← peek) == some (.plain '\x7d') then return none
  else
    let low ← takeUpTo Char.isDigit fuel
    let high ← if ← accept ',' then takeUpTo Char.isDigit fuel else pure low
    if !(← accept '\x7d') then
      set before
      return none
    else
      let least ← if low.isEmpty then pure 0 else decimalValue low
      if least ≥ repetitionLimit then throw .repetitionTooLarge
      else if high.isEmpty then return some (least, none)
      else
        let most ← decimalValue high
        if most ≥ repetitionLimit then throw .repetitionTooLarge
        else if most < least then
          failAt "min repeat greater than max repeat" ((← get).place - here)
        else return some (least, some most)

/-- An item of a sequence, with what a repetition behind it would have to know. -/
structure Item where
  node : Node
  isPlace : Bool := false
  isRepeat : Bool := false

/-- The kind of the group that a parenthesis opens. -/
inductive Opening where
  | capture (name : Option (List Char))
  | plain (add del : Flags)
  | atomic
  | look (ahead negated : Bool)
  | condition (index : Nat)
  | done (item : Option Item)

/-- Skips a comment up to its closing parenthesis. -/
def skipComment (start : Nat) : Nat → Parse Unit
  | 0 => return ()
  | fuel + 1 => do
    match ← peek with
    | none => failAt "missing ), unterminated comment" ((← get).place - start)
    | some _ =>
      if (← next) == some (.plain ')') then return () else skipComment start fuel

/-- Reads the number or name of the group on which a condition depends. -/
def readCondition : Parse Nat := do
  let name ← takeUntil ')' "group name" ((← get).rest.length + 1) []
  let index ←
    if isGroupName name then
      match (← get).names.find? (·.1 == String.ofList name) with
      | some (_, index) => pure index
      | none => failAt ("unknown group name " ++ Text.quoted (String.ofList name)) (name.length + 1)
    else if name.all Char.isDigit then do
      let index ← decimalValue name
      if index == 0 then failAt "bad group number" (name.length + 1)
      else if index ≥ 1073741823 then
        failAt s!"invalid group reference {index}" (name.length + 1)
      else
        modify fun s =>
          if s.conditionPlaces.any (·.1 == index) then s
          else { s with conditionPlaces :=
            s.conditionPlaces ++ [(index, s.place - name.length - 1)] }
        pure index
    else
      let message := "bad character in group name " ++ Text.quoted (String.ofList name)
      failAt message (name.length + 1)
  checkBehind index
  return index

/-- Reads what stands behind an opening parenthesis at `start` up to the contents of the group;
`atStart` says that flags for the whole pattern may stand here. -/
def readOpening (start : Nat) (atStart : Bool) : Parse Opening := do
  let fuel := (← get).rest.length + 1
  if !(← accept '?') then return .capture none
  else
    match ← next with
    | none => failAt "unexpected end of pattern" 0
    | some t =>
      match t with
      | .escaped c => failAt (String.ofList ("unknown extension ?\\".toList ++ [c])) (t.size + 1)
      | .plain 'P' =>
        if ← accept '<' then
          let name ← takeUntil '>' "group name" fuel []
          checkName name
          return .capture (some name)
        else if ← accept '=' then
          let name ← takeUntil ')' "group name" fuel []
          checkName name
          let s ← get
          match s.names.find? (·.1 == String.ofList name) with
          | none =>
            failAt ("unknown group name " ++ Text.quoted (String.ofList name)) (name.length + 1)
          | some (_, index) =>
            if !isClosed s index then failAt "cannot refer to an open group" (name.length + 1)
            else
              checkBehind index
              return .done (some ⟨← backrefTo index, false, false⟩)
        else
          match ← next with
          | none => failAt "unexpected end of pattern" 0
          | some t =>
            failAt (String.ofList ("unknown extension ?P".toList ++ t.source)) (t.size + 2)
      | .plain ':' => return .plain {} {}
      | .plain '#' =>
        skipComment start fuel
        return .done none
      | .plain '=' => return .look true false
      | .plain '!' => return .look true true
      | .plain '<' =>
        match ← next with
        | none => failAt "unexpected end of pattern" 0
        | some (.plain '=') => return .look false false
        | some (.plain '!') => return .look false true
        | some t =>
          failAt (String.ofList ("unknown extension ?<".toList ++ t.source)) (t.size + 2)
      | .plain '(' => return .condition (← readCondition)
      | .plain '>' => return .atomic
      | .plain c =>
        if c == '-' || (flag? c).isSome then
          match ← readFlags c with
          | some (add, del) => return .plain add del
          | none =>
            if atStart then return .done none
            else
              let back := (← get).place - start
              failAt "global flags not at the start of the expression" back
        else failAt (String.ofList ("unknown extension ?".toList ++ [c])) 2

/-- Opens a group that remembers its match; gives its number. -/
def openGroup (name : Option (List Char)) : Parse Nat := do
  let s ← get
  let index := s.groups.length
  match name with
  | none =>
    set { s with groups := s.groups ++ [none] }
    return index
  | some name =>
    let text := String.ofList name
    match s.names.find? (·.1 == text) with
    | some (_, earlier) =>
      failAt (s!"redefinition of group name {Text.quoted text} as group {index}; " ++
        s!"was group {earlier}") (name.length + 1)
    | none =>
      set { s with groups := s.groups ++ [none], names := s.names ++ [(text, index)] }
      return index

/-- Closes a group with the given contents. -/
def closeGroup (index : Nat) (body : Node) : Parse Unit :=
  modify fun s => { s with groups := s.groups.set index (some body.width) }

/-- Refuses a group that does not end here. -/
def expectClose (start : Nat) : Parse Unit := do
  if ← accept ')' then return ()
  else failAt "missing ), unterminated subpattern" ((← get).place - start)

/-- Whether a character is skipped in a verbose pattern. -/
def isLayout (c : Char) : Bool :=
  c == ' ' || c == '\t' || c == '\n' || c == '\r' || c == '\x0b' || c == '\x0c'

/-- Skips a verbose pattern's comment to the end of the line. -/
def skipLine : Nat → Parse Unit
  | 0 => return ()
  | fuel + 1 => do
    match ← next with
    | none => return ()
    | some (.plain '\n') => return ()
    | some _ => skipLine fuel

/-- Reads the sign behind a repetition that says how it chooses its count. -/
def readGreed : Parse Greed := do
  if ← accept '?' then return .lazy
  else if ← accept '+' then return .possessive
  else return .greedy

/-- Puts a repetition around the last item; `here` is the place behind its sign. -/
def repeatLast (items : List Item) (here signSize least : Nat) (most : Option Nat) :
    Parse (List Item) := do
  match items with
  | [] => failAt "nothing to repeat" ((← get).place - here + signSize)
  | item :: before =>
    if item.isPlace then failAt "nothing to repeat" ((← get).place - here + signSize)
    else if item.isRepeat then failAt "multiple repeat" ((← get).place - here + signSize)
    else
      return { node := .repeated (← readGreed) least most item.node, isRepeat := true } :: before

/-- How deep a pattern may nest. -/
def maxNesting : Nat := 985

/-- Goes down by as many levels as something nested takes; gives what is left. -/
def descend (levels depth : Nat) : Parse Nat :=
  if depth < levels then throw .tooDeep else return depth - levels

mutual

/-- Reads alternatives. `top` says that they are those of the whole pattern; `depth` is what is left for
nesting. -/
def readAlternatives (fuel depth : Nat) (verbose top : Bool) (read : List Node) : Parse Node := do
  match fuel with
  | 0 => return .empty
  | fuel + 1 =>
    let body ← readSequence fuel depth verbose (top && read.isEmpty) []
    if ← accept '|' then
      let flags := (← get).flags
      let verbose := if top then flags.verbose else verbose
      readAlternatives fuel depth verbose top (body :: read)
    else return .anyOf (body :: read).reverse

/-- Reads a sequence of items up to a bar, a closing parenthesis or the end; `items` holds the
earlier ones in reverse. -/
def readSequence (fuel depth : Nat) (verbose first : Bool) (items : List Item) : Parse Node := do
  match fuel with
  | 0 => return .empty
  | fuel + 1 =>
    match ← peek with
    | none => return .ofList (items.reverse.map Item.node)
    | some token =>
      if token == .plain '|' || token == .plain ')' then
        return .ofList (items.reverse.map Item.node)
      else
        let _ ← next
        let here := (← get).place
        match token with
        | .escaped c =>
          let node ← readEscape c
          readSequence fuel depth verbose first
            (⟨node, match node with | .place _ => true | _ => false, false⟩ :: items)
        | .plain c =>
          if verbose && isLayout c then readSequence fuel depth verbose first items
          else if verbose && c == '#' then
            skipLine ((← get).rest.length + 1)
            readSequence fuel depth verbose first items
          else if c == '[' then
            let start := here - 1
            let negated ← accept '^'
            let members ← readSet start ((← get).rest.length + 1) []
            let node : Node := match members.eraseDups with
              | [.char c] => .one (.char c negated)
              | members => .one (.set members negated)
            readSequence fuel depth verbose first (⟨node, false, false⟩ :: items)
          else if c == '?' then
            readSequence fuel depth verbose first (← repeatLast items here 1 0 (some 1))
          else if c == '*' then
            readSequence fuel depth verbose first (← repeatLast items here 1 0 none)
          else if c == '+' then
            readSequence fuel depth verbose first (← repeatLast items here 1 1 none)
          else if c == '\x7b' then
            match ← readBounds here with
            | none =>
              readSequence fuel depth verbose first (⟨.one (.char c false), false, false⟩ :: items)
            | some (least, most) =>
              readSequence fuel depth verbose first (← repeatLast items here 1 least most)
          else if c == '.' then
            readSequence fuel depth verbose first (⟨.one .any, false, false⟩ :: items)
          else if c == '^' then
            readSequence fuel depth verbose first (⟨.place .lineStart, true, false⟩ :: items)
          else if c == '$' then
            readSequence fuel depth verbose first (⟨.place .lineEnd, true, false⟩ :: items)
          else if c == '(' then
            let start := here - 1
            let item ← readGroup fuel depth verbose start (first && items.isEmpty)
            let flags := (← get).flags
            let verbose := verbose || (first && item.isNone && flags.verbose)
            readSequence fuel depth verbose first (item.toList ++ items)
          else readSequence fuel depth verbose first (⟨.one (.char c false), false, false⟩ :: items)

/-- Reads a group from behind its opening parenthesis; `none` for a comment or flags. -/
def readGroup (fuel depth : Nat) (verbose : Bool) (start : Nat) (atStart : Bool) :
    Parse (Option Item) := do
  match fuel with
  | 0 => return none
  | fuel + 1 =>
    match ← readOpening start atStart with
    | .done item => return item
    | .look ahead negated =>
      let outer := (← get).behindGroups
      if !ahead && outer.isNone then
        modify fun s => { s with behindGroups := some s.groups.length }
      let depth ← descend 2 depth
      let body ← readAlternatives fuel depth verbose false []
      if !ahead && outer.isNone then modify fun s => { s with behindGroups := none }
      expectClose start
      return some { node := .look ahead negated body }
    | .condition index =>
      let depth ← descend 1 depth
      let yes ← readSequence fuel depth verbose false []
      let no ← if ← accept '|' then do
          let no ← readSequence fuel depth verbose false []
          if (← peek) == some (.plain '|') then
            failAt "conditional backref with more than two branches" 0
          else pure no
        else pure .empty
      expectClose start
      return some { node := .conditional index yes no }
    | .capture name =>
      let index ← openGroup name
      let depth ← descend 2 depth
      let body ← readAlternatives fuel depth verbose false []
      expectClose start
      closeGroup index body
      return some { node := .group (some index) {} {} body }
    | .plain add del =>
      let inner := (verbose || add.verbose) && !del.verbose
      let depth ← descend 2 depth
      let body ← readAlternatives fuel depth inner false []
      expectClose start
      return some { node := .group none add del body }
    | .atomic =>
      let depth ← descend 2 depth
      let body ← readAlternatives fuel depth verbose false []
      expectClose start
      return some { node := .atomic body }

end

/-- Refuses a look behind whose width is not fixed, and repetitions under the template flag. -/
def checkWidths (flags : Flags) : Node → Except Fault Unit
  | .empty => .ok ()
  | .one _ => .ok ()
  | .place _ => .ok ()
  | .seq a b => do
    checkWidths flags a
    checkWidths flags b
  | .alt a b => do
    checkWidths flags a
    checkWidths flags b
  | .group _ add del body => checkWidths (flags.scoped add del) body
  | .atomic body => checkWidths flags body
  | .repeated greed _ _ body =>
    if flags.template then
      let name := match greed with
        | .greedy => "MAX_REPEAT"
        | .lazy => "MIN_REPEAT"
        | .possessive => "POSSESSIVE_REPEAT"
      .error (.malformed ("internal: unsupported template operator " ++ name) none)
    else checkWidths flags body
  | .backref .. => .ok ()
  | .conditional _ yes no => do
    checkWidths flags yes
    checkWidths flags no
  | .look ahead _ body => do
    if !ahead then
      let (low, high) := body.width
      if low != high then
        .error (.malformed "look-behind requires fixed-width pattern" none)
      else if low > 4294967295 then .error (.malformed "looks too much behind" none)
    checkWidths flags body

/-- A pattern that has been read: its tree and the flags for all of it. -/
structure Program where
  node : Node
  flags : Flags
  deriving Repr

/-- Reads a whole pattern. -/
def read (pattern : String) : Except Fault Program := do
  let cs := pattern.toList
  let start : Source := ⟨0, cs, {}, [none], [], none, []⟩
  let parse : Parse Node := do
    checkNext
    let node ← readAlternatives (3 * cs.length + 10) maxNesting false true []
    let s ← get
    if s.flags.ascii && s.flags.unicode then throw .flagsConflict
    else if (← peek).isSome then failAt "unbalanced parenthesis" 0
    else return node
  let (node, s) ← parse.run start
  for (index, place) in s.conditionPlaces do
    if index ≥ s.groups.length then
      throw (.malformed s!"invalid group reference {index}" (some place))
  if node.nesting > maxNesting then throw .tooDeep
  checkWidths s.flags node
  return ⟨node, s.flags⟩

end Runbook.Pattern

import Runbook.Assoc

/-!
# Command templates

A command may hold placeholders such as `{HOST}`: a name between braces. Any non-empty name
without a brace can be replaced by a value; only names in capitals, digits and underscores that do
not start with a digit are *required*. Filling in is one pass, so a value is never searched for
placeholders itself, and a placeholder without a value stays as it is written.
-/

set_option autoImplicit false

namespace Runbook.Template

/-- A piece of a command: one literal character or a placeholder. -/
inductive Token where
  | char (c : Char)
  | hole (name : List Char)
  deriving DecidableEq, Repr

/-- The characters of a token as they are written. -/
def Token.source : Token → List Char
  | .char c => [c]
  | .hole name => '\x7b' :: name ++ ['\x7d']

/-- Which characters a name starts with and which ones it goes on with. -/
structure NameRule where
  start : Char → Bool
  body : Char → Bool

/-- Any name without braces. -/
def NameRule.any : NameRule :=
  let free (c : Char) := c != '\x7b' && c != '\x7d'
  ⟨free, free⟩

/-- Names in capitals, digits and underscores. -/
def NameRule.required : NameRule :=
  let letter (c : Char) := ('A' ≤ c && c ≤ 'Z') || c == '_'
  ⟨letter, fun c => letter c || ('0' ≤ c && c ≤ '9')⟩

/-- The name and the rest behind the closing brace, if the text starts with both. -/
def NameRule.hole? (rule : NameRule) : List Char → Option (List Char × List Char)
  | [] => none
  | c :: rest =>
    if rule.start c then
      let more := rest.takeWhile rule.body
      match rest.drop more.length with
      | '\x7d' :: behind => some (c :: more, behind)
      | _ => none
    else none

theorem NameRule.length_lt_of_hole? (rule : NameRule) {cs name behind : List Char}
    (h : rule.hole? cs = some (name, behind)) : behind.length < cs.length := by
  cases cs with
  | nil => simp [NameRule.hole?] at h
  | cons c rest =>
    simp only [NameRule.hole?] at h
    split at h
    · split at h
      · rename_i tail heq
        have hlen := congrArg List.length heq
        simp only [List.length_drop, List.length_cons] at hlen
        simp only [Option.some.injEq, Prod.mk.injEq] at h
        obtain ⟨_, rfl⟩ := h
        simp only [List.length_cons]
        omega
      · simp at h
    · simp at h

/-- The tokens of a command whose placeholders have names of the given rule. -/
def tokens (rule : NameRule) : List Char → List Token
  | [] => []
  | c :: rest =>
    if c == '\x7b' then
      match h : rule.hole? rest with
      | some (name, behind) =>
        have := rule.length_lt_of_hole? h
        .hole name :: tokens rule behind
      | none => .char c :: tokens rule rest
    else .char c :: tokens rule rest
termination_by cs => cs.length

/-- The names of the placeholders among tokens, in order. -/
def holeNames : List Token → List String
  | [] => []
  | .char _ :: rest => holeNames rest
  | .hole name :: rest => String.ofList name :: holeNames rest

/-- The required names of a command in order of first mention. -/
def required (command : String) : List String :=
  (holeNames (tokens .required command.toList)).eraseDups

/-- A token with its value in place, if it has one. -/
def Token.fill (values : Scope) : Token → List Char
  | .char c => [c]
  | .hole name =>
    match values.get? (String.ofList name) with
    | some value => value.toList
    | none => (Token.hole name).source

/-- The command with every placeholder that has a value replaced. -/
def fill (command : String) (values : Scope) : String :=
  String.ofList ((tokens .any command.toList).flatMap (Token.fill values))

/-- The required names without a value. -/
def missing (command : String) (values : Scope) : List String :=
  (required command).filter (!values.has ·)

/-- The command with only the non-empty values filled in. -/
def preview (command : String) (values : Scope) : String :=
  fill command (values.filter (·.2 != ""))

end Runbook.Template

import Runbook.Json.Printer

/-!
# Layouts of JSON text

A text is laid out on one line, or with each item and field on a line of its own behind an
indentation, once for each level. `Layout.text` writes a value in a layout; `Json.compact` is the
layout on one line (`text_line`), `Json.indented` that with two spaces a level (`text_spaced`).
-/

set_option autoImplicit false

namespace Runbook.Json

/-- How a text is laid out. -/
inductive Layout where
  /-- All on one line. -/
  | line
  /-- Over several lines, with the given indentation for each level. -/
  | lines (indent : List Char)
  deriving DecidableEq, Repr

namespace Layout

/-- The layout with a number of spaces for each level. -/
def spaced (width : Nat) : Layout := lines (List.replicate width ' ')

/-- What stands between a bracket and an item of the given level. -/
def gap : Layout → Nat → List Char
  | line, _ => []
  | lines indent, level => '\n' :: (List.replicate level indent).flatten

/-- What stands between a comma and an item of the given level. -/
def space : Layout → Nat → List Char
  | line, _ => [' ']
  | lines indent, level => (lines indent).gap level

mutual

/-- The value in a layout; `level` is that of the value. -/
def print (layout : Layout) (level : Nat) : Json → List Char
  | .arr [] => ['[', ']']
  | .arr (item :: items) =>
    '[' :: layout.gap (level + 1) ++ layout.print (level + 1) item ++
      layout.printItems (level + 1) items ++ layout.gap level ++ [']']
  | .obj [] => ['\x7b', '\x7d']
  | .obj (field :: fields) =>
    '\x7b' :: layout.gap (level + 1) ++ layout.printField (level + 1) field ++
      layout.printFields (level + 1) fields ++ layout.gap level ++ ['\x7d']
  | other => printScalar other

/-- Further items of an array, each behind a comma. -/
def printItems (layout : Layout) (level : Nat) : List Json → List Char
  | [] => []
  | item :: items =>
    ',' :: layout.space level ++ layout.print level item ++ layout.printItems level items

/-- A field of an object. -/
def printField (layout : Layout) (level : Nat) : String × Json → List Char
  | (key, value) => printString key ++ ':' :: ' ' :: layout.print level value

/-- Further fields of an object, each behind a comma. -/
def printFields (layout : Layout) (level : Nat) : List (String × Json) → List Char
  | [] => []
  | field :: fields =>
    ',' :: layout.space level ++ layout.printField level field ++ layout.printFields level fields

end

/-- The text of a value in a layout. -/
def text (layout : Layout) (value : Json) : String := String.ofList (layout.print 0 value)

/-! ## The two layouts in use -/

mutual

theorem print_line (level : Nat) (value : Json) : line.print level value = printCompact value := by
  match value with
  | .arr [] => rfl
  | .arr (item :: items) =>
      rw [print, printCompact, print_line, printItems_line]
      simp [gap]
  | .obj [] => rfl
  | .obj (field :: fields) =>
      rw [print, printCompact, printField_line, printFields_line]
      simp [gap]
  | .null | .bool _ | .int _ | .real _ | .str _ => rfl

theorem printItems_line (level : Nat) (items : List Json) :
    line.printItems level items = printCompactItems items := by
  match items with
  | [] => rfl
  | item :: items =>
      rw [printItems, printCompactItems, print_line, printItems_line]
      simp [space]

theorem printField_line (level : Nat) (field : String × Json) :
    line.printField level field = printCompactField field := by
  match field with
  | (key, value) => rw [printField, printCompactField, print_line]

theorem printFields_line (level : Nat) (fields : List (String × Json)) :
    line.printFields level fields = printCompactFields fields := by
  match fields with
  | [] => rfl
  | field :: fields =>
      rw [printFields, printCompactFields, printField_line, printFields_line]
      simp [space]

end

theorem gap_spaced (level : Nat) : (spaced 2).gap level = newline level := by
  rw [spaced, gap, newline, List.flatten_replicate_replicate, Nat.mul_comm]

mutual

theorem print_spaced (level : Nat) (value : Json) :
    (spaced 2).print level value = printIndented level value := by
  match value with
  | .arr [] => rfl
  | .arr (item :: items) =>
      rw [print, printIndented, print_spaced, printItems_spaced, gap_spaced, gap_spaced]
  | .obj [] => rfl
  | .obj (field :: fields) =>
      rw [print, printIndented, printField_spaced, printFields_spaced, gap_spaced, gap_spaced]
  | .null | .bool _ | .int _ | .real _ | .str _ => rfl

theorem printItems_spaced (level : Nat) (items : List Json) :
    (spaced 2).printItems level items = printIndentedItems level items := by
  match items with
  | [] => rfl
  | item :: items =>
      have hspace : (spaced 2).space level = newline level := gap_spaced level
      rw [printItems, printIndentedItems, print_spaced, printItems_spaced, hspace]

theorem printField_spaced (level : Nat) (field : String × Json) :
    (spaced 2).printField level field = printIndentedField level field := by
  match field with
  | (key, value) => rw [printField, printIndentedField, print_spaced]

theorem printFields_spaced (level : Nat) (fields : List (String × Json)) :
    (spaced 2).printFields level fields = printIndentedFields level fields := by
  match fields with
  | [] => rfl
  | field :: fields =>
      have hspace : (spaced 2).space level = newline level := gap_spaced level
      rw [printFields, printIndentedFields, printField_spaced, printFields_spaced, hspace]

end

theorem text_line (value : Json) : line.text value = value.compact := by
  rw [text, print_line, compact]

theorem text_spaced (value : Json) : (spaced 2).text value = value.indented := by
  rw [text, print_spaced, indented]

end Layout

end Runbook.Json

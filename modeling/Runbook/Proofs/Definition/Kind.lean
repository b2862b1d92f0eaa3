import Runbook.Proofs.Definition.Execution
import Runbook.Proofs.Definition.Request

/-!
# Writing what was read

The values that are exchanged as texts are of twelve kinds, each with its reader and its writer. Of
every kind, what was read of a text and is written in some layout is read as the same value
(`written_is_read_back`); so a text that was read and written once does not change when that is done
again.
-/

set_option autoImplicit false

namespace Runbook

/-- The kinds of values that are exchanged as texts. -/
inductive Kind where
  | declared
  | action
  | condition
  | step
  | workflow
  | entry
  | execution
  | globalVariable
  | executeRequest
  | validateResponse
  | previewRequest
  | previewResponse
  deriving DecidableEq, Repr

namespace Kind

/-- The values of a kind. -/
def Value : Kind → Type
  | declared => Variable
  | action => Action
  | condition => Condition
  | step => Step
  | workflow => Workflow
  | entry => TimedEntry
  | execution => Execution
  | globalVariable => GlobalVariable
  | executeRequest => ExecuteRequest
  | validateResponse => ValidateResponse
  | previewRequest => PreviewRequest
  | previewResponse => PreviewResponse

/-- Reads a value of a kind; `now` is the time of what names none but needs one. -/
def read (now : Timestamp) : (kind : Kind) → Json → Checked kind.Value
  | declared => Variable.read
  | action => Action.read
  | condition => Condition.read
  | step => Step.read
  | workflow => Workflow.read
  | entry => TimedEntry.read now
  | execution => Execution.read now
  | globalVariable => GlobalVariable.read
  | executeRequest => ExecuteRequest.read
  | validateResponse => ValidateResponse.read
  | previewRequest => PreviewRequest.read
  | previewResponse => PreviewResponse.read

/-- A value of a kind as it is written. -/
def toJson : (kind : Kind) → kind.Value → Json
  | declared => Variable.toJson
  | action => Action.toJson
  | condition => Condition.toJson
  | step => Step.toJson
  | workflow => Workflow.toJson
  | entry => TimedEntry.toJson
  | execution => Execution.toJson
  | globalVariable => GlobalVariable.toJson
  | executeRequest => ExecuteRequest.toJson
  | validateResponse => ValidateResponse.toJson
  | previewRequest => PreviewRequest.toJson
  | previewResponse => PreviewResponse.toJson

/-- The value of a kind that a text gives, none if it is refused. -/
def ofText? (kind : Kind) (dialect : Json.Dialect) (now : Timestamp) (text : List Char) :
    Option kind.Value :=
  Checked.ofText? dialect (kind.read now) text

/-- The text of a value of a kind. -/
def toText (kind : Kind) (layout : Json.Layout) (a : kind.Value) : List Char :=
  (layout.text (kind.toJson a)).toList

/-- The text that is written of what a text gives. -/
def rewrite? (kind : Kind) (dialect : Json.Dialect) (layout : Json.Layout) (now : Timestamp)
    (text : List Char) : Option (List Char) :=
  (kind.ofText? dialect now text).map (kind.toText layout)

variable {dialect : Json.Dialect} {layout : Json.Layout} {now later : Timestamp}

/-- The reader and the writer of each kind are faithful to each other, and no kind is written in
more than six levels. -/
theorem faithful (kind : Kind) : ∃ levels Valid, levels ≤ 6 ∧ ∀ {now : Timestamp}, now.WellFormed →
    Checked.Faithful levels (kind.read now) kind.toJson Valid := by
  cases kind with
  | declared => exact ⟨2, _, by decide, fun _ => Variable.faithful⟩
  | action => exact ⟨1, _, by decide, fun _ => Action.faithful⟩
  | condition => exact ⟨2, _, by decide, fun _ => Condition.faithful⟩
  | step => exact ⟨4, _, by decide, fun _ => Step.faithful⟩
  | workflow => exact ⟨6, _, by decide, fun _ => Workflow.faithful⟩
  | entry => exact ⟨1, _, by decide, TimedEntry.faithful⟩
  | execution => exact ⟨3, _, by decide, Execution.faithful⟩
  | globalVariable => exact ⟨1, _, by decide, fun _ => GlobalVariable.faithful⟩
  | executeRequest => exact ⟨2, _, by decide, fun _ => ExecuteRequest.faithful⟩
  | validateResponse => exact ⟨3, _, by decide, fun _ => ValidateResponse.faithful⟩
  | previewRequest => exact ⟨2, _, by decide, fun _ => PreviewRequest.faithful⟩
  | previewResponse => exact ⟨2, _, by decide, fun _ => PreviewResponse.faithful⟩

/-- What a text gives is given again by the text that is written of it, in any layout and at any
later time, and reading and writing that text does not change it. -/
theorem written_is_read_back (kind : Kind) (hdepth : 6 ≤ dialect.maxDepth) (hlayout : layout.Blank)
    (hnow : now.WellFormed) (hlater : later.WellFormed) {text : List Char} :
    (∀ a, kind.ofText? dialect now text = some a →
      kind.ofText? dialect later (kind.toText layout a) = some a) ∧
    (∀ written, kind.rewrite? dialect layout now text = some written →
      kind.rewrite? dialect layout later written = some written) := by
  obtain ⟨levels, Valid, hlevels, hfaithful⟩ := kind.faithful
  have hback : ∀ a, kind.ofText? dialect now text = some a →
      kind.ofText? dialect later (kind.toText layout a) = some a := by
    intro a ha
    exact (hfaithful hlater).ofText?_text (Nat.le_trans hlevels hdepth) hlayout
      ((hfaithful hnow).valid_of_text ha)
  refine ⟨hback, fun written hwritten => ?_⟩
  obtain ⟨a, ha, rfl⟩ := Option.map_eq_some_iff.mp hwritten
  exact Option.map_eq_some_iff.mpr ⟨a, hback a ha, rfl⟩

/-! ## A small workflow -/

/-- A time at which texts are read. -/
def smallTime : Timestamp := ⟨2024, 2, 29, 23, 59, 59, 999999, some 0⟩

theorem wellFormed_smallTime : smallTime.WellFormed where
  date := by decide
  hour := by decide
  minute := by decide
  second := by decide
  micro := by decide
  offset := by rintro _ ⟨⟩; decide

/-- A workflow whose id is to be trimmed, with null for no variables, an order given as a numeral
and a time with an offset. -/
def smallText : String :=
  "\x7b\"id\": \" a\\n\", \"variables\": null, " ++
    "\"steps\": [\x7b\"id\": \"s\", \"order\": \" -1_0.0\"\x7d], " ++
    "\"created_at\": \"2024-01-01 10:00:00.5+02:00\"\x7d"

/-- The workflow that `smallText` holds. -/
def smallWorkflow : Workflow where
  id := "a"
  steps := [{ id := "s", order := -10 }]
  createdAt := some ⟨2024, 1, 1, 10, 0, 0, 500000, some 7200⟩

theorem ofText?_smallText : Kind.workflow.ofText? .definition smallTime smallText.toList =
    some smallWorkflow := by
  have h : Checked.ofText? .definition Workflow.read smallText.toList = some smallWorkflow := by
    decide +kernel
  exact h

theorem written_is_read_back_smallWorkflow :
    Kind.workflow.ofText? .definition smallTime smallText.toList = some smallWorkflow ∧
    Kind.workflow.ofText? .definition smallTime
      (Kind.workflow.toText (.spaced 2) smallWorkflow) = some smallWorkflow :=
  ⟨ofText?_smallText, (written_is_read_back .workflow (by decide) (Json.Layout.blank_spaced 2)
    wellFormed_smallTime wellFormed_smallTime).1 smallWorkflow ofText?_smallText⟩

end Kind

end Runbook

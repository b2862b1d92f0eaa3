import Runbook.Definition.Variable
import Runbook.Proofs.Checked
import Runbook.Proofs.Json.Characters

/-!
# Global variables are read back

A global variable that was read has a trimmed name that is not blank, and its points in time are well
formed (`valid_of_read`). What is written of such a variable is read as that variable
(`read_toJson`), and its text gives it back (`exact_toJson`). The text has unpaired halves exactly if
the name, the value or the description has (`forall_half_toJson_iff`).
-/

set_option autoImplicit false

namespace Runbook

/-! ## Trimmed texts -/

namespace Text

theorem stripStart_eq_self_iff {cs : List Char} :
    stripStart cs = cs ↔ ∀ c ∈ cs.head?, isBlank c = false := by
  cases cs with
  | nil => simp [stripStart]
  | cons c cs =>
      cases hc : isBlank c with
      | false => simp [stripStart, hc]
      | true =>
          have hshort : (cs.dropWhile isBlank).length ≤ cs.length :=
            (List.dropWhile_suffix _).length_le
          have hne : cs.dropWhile isBlank ≠ c :: cs := by
            intro heq
            rw [heq, List.length_cons] at hshort
            omega
          simp [stripStart, hc, hne]

theorem stripStart_stripStart (cs : List Char) : stripStart (stripStart cs) = stripStart cs := by
  rw [stripStart_eq_self_iff]
  intro c hc
  have hhead := List.head?_dropWhile_not isBlank cs
  rw [show (cs.dropWhile isBlank).head? = some c from hc] at hhead
  simpa using hhead

theorem stripEnd_stripEnd (cs : List Char) : stripEnd (stripEnd cs) = stripEnd cs := by
  rw [stripEnd, stripEnd, List.reverse_reverse]
  exact congrArg List.reverse (stripStart_stripStart cs.reverse)

/-- Taking blank characters off the end leaves a beginning that is not blank. -/
theorem stripStart_stripEnd {cs : List Char} (h : stripStart cs = cs) :
    stripStart (stripEnd cs) = stripEnd cs := by
  obtain ⟨tail, htail⟩ : stripEnd cs <+: cs := by
    have hsuffix := List.reverse_prefix.mpr (List.dropWhile_suffix (l := cs.reverse) isBlank)
    rwa [List.reverse_reverse] at hsuffix
  rw [stripStart_eq_self_iff] at h ⊢
  intro c hc
  refine h c ?_
  rw [← htail, List.head?_append, hc]
  rfl

theorem strip_strip (s : String) : strip (strip s) = strip s := by
  simp only [strip, String.toList_ofList]
  rw [stripStart_stripEnd (stripStart_stripStart s.toList), stripEnd_stripEnd]

end Text

/-! ## Reading -/

/-- Whether a global variable has a trimmed name that is not blank and well formed times. -/
structure GlobalVariable.Valid (v : GlobalVariable) : Prop where
  trimmed : Text.strip v.name = v.name
  named : v.name ≠ ""
  created : ∀ t ∈ v.createdAt, t.WellFormed
  updated : ∀ t ∈ v.updatedAt, t.WellFormed

namespace GlobalVariable

variable {v : GlobalVariable}

theorem readName_str (s : String) : readName (.str s) =
    bif Text.strip s == "" then Checked.fail (.rejected "variable name must not be empty") (.str s)
    else .ok (Text.strip s) :=
  (Bool.cond_eq_ite ..).symm

theorem readName_eq_ok_iff {value : Json} {name : String} :
    readName value = .ok name ↔ ∃ s, value = .str s ∧ Text.strip s = name ∧ name ≠ "" := by
  cases value with
  | str s =>
      rw [readName_str]
      cases hblank : Text.strip s == "" with
      | false =>
          have hne : Text.strip s ≠ "" := by simpa using hblank
          exact ⟨fun h => ⟨s, rfl, Except.ok.inj h, Except.ok.inj h ▸ hne⟩,
            fun ⟨_, h, h', _⟩ => by cases h; exact h' ▸ rfl⟩
      | true =>
          have heq : Text.strip s = "" := by simpa using hblank
          exact ⟨fun h => (nomatch h), fun ⟨_, h, h', hne⟩ => by cases h; exact (hne (h' ▸ heq)).elim⟩
  | _ => exact ⟨fun h => (nomatch h), fun ⟨_, h, _⟩ => (nomatch h)⟩

/-- What has to be so for a global variable to be read. -/
theorem read_eq_ok_iff {value : Json} :
    read value = .ok v ↔ ∃ fields, value = .obj fields ∧
      Checked.required fields "name" readName = .ok v.name ∧
      Checked.optional fields "value" "" Checked.text = .ok v.value ∧
      Checked.optional fields "description" "" Checked.text = .ok v.description ∧
      Checked.optional fields "created_at" none (Checked.nullable Checked.timestamp) =
        .ok v.createdAt ∧
      Checked.optional fields "updated_at" none (Checked.nullable Checked.timestamp) =
        .ok v.updatedAt := by
  obtain ⟨name, text, description, createdAt, updatedAt⟩ := v
  simp only [read, Checked.model_eq_ok_iff, Checked.seq_eq_ok_iff, Checked.pure_eq_ok_iff]
  constructor
  · rintro ⟨fields, rfl, _, _, ⟨_, _, ⟨_, _, ⟨_, _, ⟨_, _, rfl, hname, rfl⟩, htext, rfl⟩,
      hdescription, rfl⟩, hcreated, rfl⟩, hupdated, heq⟩
    cases heq
    exact ⟨fields, rfl, hname, htext, hdescription, hcreated, hupdated⟩
  · rintro ⟨fields, rfl, hname, htext, hdescription, hcreated, hupdated⟩
    exact ⟨fields, rfl, _, _, ⟨_, _, ⟨_, _, ⟨_, _, ⟨_, _, rfl, hname, rfl⟩, htext, rfl⟩,
      hdescription, rfl⟩, hcreated, rfl⟩, hupdated, rfl⟩

/-- A global variable that was read is valid. -/
theorem valid_of_read {value : Json} (h : read value = .ok v) : v.Valid := by
  obtain ⟨fields, rfl, hname, _, _, hcreated, hupdated⟩ := read_eq_ok_iff.mp h
  obtain ⟨_, _, hname⟩ := Checked.required_eq_ok_iff.mp hname
  obtain ⟨s, rfl, hstrip, hne⟩ := readName_eq_ok_iff.mp hname
  have htime : ∀ {field : String} {time : Option Timestamp},
      Checked.optional fields field none (Checked.nullable Checked.timestamp) = .ok time →
      ∀ t ∈ time, t.WellFormed := by
    rintro field time htime t ⟨⟩
    rcases Checked.optional_eq_ok_iff.mp htime with ⟨_, hnone⟩ | ⟨_, _, hread⟩
    · cases hnone
    · exact Checked.wellFormed_of_timestamp (Checked.nullable_eq_some_iff.mp hread).2
  exact ⟨hstrip ▸ Text.strip_strip s, hne, htime hcreated, htime hupdated⟩

theorem read_optionToJson {time : Option Timestamp} (h : ∀ t ∈ time, t.WellFormed) :
    Checked.nullable Checked.timestamp (Timestamp.optionToJson time) = .ok time := by
  cases time with
  | none => rfl
  | some t =>
      exact Checked.nullable_eq_some_iff.mpr
        ⟨fun heq => (nomatch heq), Checked.timestamp_print (h t rfl)⟩

/-- What is written of a valid variable is read as that variable. -/
theorem read_toJson (h : v.Valid) : read v.toJson = .ok v := by
  refine read_eq_ok_iff.mpr ⟨_, rfl, ?_, rfl, rfl, ?_, ?_⟩
  · exact Checked.required_eq_ok_iff.mpr
      ⟨_, rfl, readName_eq_ok_iff.mpr ⟨v.name, rfl, h.trimmed, h.named⟩⟩
  · exact Checked.optional_eq_ok_iff.mpr (.inr ⟨_, rfl, read_optionToJson h.created⟩)
  · exact Checked.optional_eq_ok_iff.mpr (.inr ⟨_, rfl, read_optionToJson h.updated⟩)

/-- The text of what is written of a variable gives it back. -/
theorem exact_toJson (v : GlobalVariable) (depth : Nat) : Json.Exact (depth + 1) v.toJson := by
  have htime : ∀ time, Json.Exact depth (Timestamp.optionToJson time) := by
    intro time
    cases time with
    | none => exact .null
    | some t => exact .str _
  refine .obj (by simp [Assoc.keys]) ?_
  simp [Json.Exact.str, htime]

/-- The name, the value and the description of a variable have no unpaired halves. -/
def Whole (v : GlobalVariable) : Prop :=
  ∀ text ∈ [v.name, v.value, v.description], Text.firstHalf? text.toList = none

instance (v : GlobalVariable) : Decidable v.Whole :=
  inferInstanceAs (Decidable (∀ text ∈ [v.name, v.value, v.description], _ = none))

/-- A point in time is written without unpaired halves. -/
theorem half_of_optionToJson (time : Option Timestamp) (level : Nat) :
    ∀ c ∈ Json.printIndented level (Timestamp.optionToJson time), Text.halfCode? c = none := by
  cases time with
  | none =>
      have hnull : Text.firstHalf? "null".toList = none := by decide
      exact Text.firstHalf?_eq_none_iff.mp hnull
  | some t =>
      refine Json.forall_half_printString_iff.mpr fun c hc => ?_
      exact Text.halfCode?_of_isAscii (t.isAscii_print c hc)

/-- What is written of a variable has unpaired halves only where the variable has. -/
theorem forall_half_toJson_iff (v : GlobalVariable) (level : Nat) :
    (∀ c ∈ Json.printIndented level v.toJson, Text.halfCode? c = none) ↔ v.Whole := by
  have hplain : ∀ c, Text.IsAscii c → c ≠ '\x0d' → Text.halfCode? c = none :=
    fun c hc _ => Text.halfCode?_of_isAscii hc
  have hkey : ∀ key ∈ ["name", "value", "description", "created_at", "updated_at"],
      ∀ c ∈ Json.printString key, Text.halfCode? c = none := by
    have hkeys : ∀ key ∈ ["name", "value", "description", "created_at", "updated_at"],
        Text.firstHalf? key.toList = none := by decide
    exact fun key hmem =>
      Json.forall_half_printString_iff.mpr (Text.firstHalf?_eq_none_iff.mp (hkeys key hmem))
  have hstring : ∀ s : String, (∀ c ∈ Json.printIndented (level + 1) (.str s),
      Text.halfCode? c = none) ↔ Text.firstHalf? s.toList = none := by
    intro s
    rw [Text.firstHalf?_eq_none_iff]
    exact Json.forall_half_printString_iff
  rw [toJson, Json.forall_mem_obj_iff hplain, Whole]
  simp only [List.forall_mem_cons, List.not_mem_nil, false_imp_iff, implies_true, and_true, hstring]
  constructor
  · rintro ⟨⟨-, hname⟩, ⟨-, hvalue⟩, ⟨-, hdescription⟩, -⟩
    exact ⟨hname, hvalue, hdescription⟩
  · rintro ⟨hname, hvalue, hdescription⟩
    exact ⟨⟨hkey _ (by simp), hname⟩, ⟨hkey _ (by simp), hvalue⟩, ⟨hkey _ (by simp), hdescription⟩,
      ⟨hkey _ (by simp), half_of_optionToJson _ _⟩, hkey _ (by simp), half_of_optionToJson _ _⟩

end GlobalVariable

end Runbook

import Runbook.Definition.Workflow
import Runbook.Proofs.Definition.Step
import Runbook.Proofs.Definition.Variable

/-!
# Workflows are read back

A workflow that was read has a trimmed id that can be the name of a file, valid steps with different
ids, and well formed times (`Workflow.valid_of_read`). What is written of such a workflow is read as
that workflow (`Workflow.read_toJson`).
-/

set_option autoImplicit false

namespace Runbook

theorem Variable.faithful_options : Checked.Faithful 1
    (Checked.nullAs [] (Checked.list Checked.text)) Json.strs fun options => ∀ _ ∈ options, True :=
  Checked.faithful_texts.nullAs (fun _ h => nomatch h) (List.forall_mem_nil _)

theorem Variable.faithful : Checked.Faithful 2 Variable.read Variable.toJson fun _ => True where
  valid _ _ := trivial
  back {v} _ :=
    Checked.seq_of_ok (Checked.seq_of_ok (Checked.seq_of_ok rfl
      (Checked.optional_of_ok rfl (Variable.faithful_options.back fun _ _ => trivial))) rfl) rfl
  exact {v} _ depth := by
    have hoptions := Checked.faithful_texts.exact (a := v.options) (fun _ _ => trivial) depth
    exact .obj (by simp [Assoc.keys]) (by simp [Json.Exact.str, Json.Exact.bool, hoptions])

theorem Timestamp.faithful_option : Checked.Faithful 0 (Checked.nullable Checked.timestamp)
    Timestamp.optionToJson fun o => ∀ t ∈ o, t.WellFormed :=
  Checked.faithful_timestamp.nullable (fun _ => rfl) rfl fun _ h => nomatch h

theorem GlobalVariable.faithful :
    Checked.Faithful 1 GlobalVariable.read GlobalVariable.toJson GlobalVariable.Valid where
  valid _ := GlobalVariable.valid_of_read
  back := GlobalVariable.read_toJson
  exact _ depth := GlobalVariable.exact_toJson _ depth

/-! ## Step ids -/

namespace Workflow

/-- No step id is found twice exactly when the ids differ from each other and from those seen. -/
theorem duplicateId?_eq_none_iff {seen : List String} {steps : List Step} :
    duplicateId? seen steps = none ↔
      (steps.map Step.id).Nodup ∧ ∀ step ∈ steps, step.id ∉ seen := by
  induction steps generalizing seen with
  | nil => simp [duplicateId?]
  | cons step rest ih =>
      rw [duplicateId?]
      by_cases hseen : step.id ∈ seen
      · simp [hseen]
      · -- the id joins those seen, so a later step must differ from it as from them
        rw [if_neg (by simpa using hseen), ih]
        rw [List.map_cons, List.nodup_cons, List.mem_map, List.forall_mem_cons]
        simp only [List.mem_cons, not_or]
        constructor
        · rintro ⟨hnodup, hrest⟩
          exact ⟨⟨fun ⟨other, hother, heq⟩ => (hrest other hother).1 heq, hnodup⟩, hseen,
            fun other hother => (hrest other hother).2⟩
        · rintro ⟨⟨hstep, hnodup⟩, _, hrest⟩
          exact ⟨hnodup, fun other hother =>
            ⟨fun heq => hstep ⟨other, hother, heq⟩, hrest other hother⟩⟩

/-! ## Reading -/

/-- Whether a text is a trimmed id that can be the name of a file. -/
structure IdFits (id : String) : Prop where
  trimmed : Text.strip id = id
  fileName : isFileName id = true

theorem readId_eq_ok_iff {value : Json} {id : String} :
    readId value = .ok id ↔ ∃ s, value = .str s ∧ Text.strip s = id ∧ isFileName id = true := by
  rw [readId, Checked.andThen_eq_ok_iff]
  constructor
  · rintro ⟨s, hs, h⟩
    obtain ⟨s', rfl⟩ : ∃ s', value = .str s' := by
      cases value with
      | str s' => exact ⟨s', rfl⟩
      | _ => cases hs
    -- the check follows the trimming
    cases hs
    rcases Checked.ite_eq_ok_iff.mp h with ⟨hfile, h⟩ | ⟨_, h⟩
    · cases h
      exact ⟨s, rfl, rfl, hfile⟩
    · cases h
  · rintro ⟨s, rfl, rfl, hfile⟩
    exact ⟨s, rfl, Checked.ite_eq_ok_iff.mpr (.inl ⟨hfile, rfl⟩)⟩

theorem faithful_id : Checked.Faithful 0 readId .str IdFits where
  valid {value id} _ h := by
    obtain ⟨s, _, rfl, hfile⟩ := readId_eq_ok_iff.mp h
    exact ⟨Text.strip_strip s, hfile⟩
  back {id} h := readId_eq_ok_iff.mpr ⟨id, rfl, h.trimmed, h.fileName⟩
  exact _ _ := .str _

/-- Whether a workflow fits the rules: its id, its steps and their ids, and its times. -/
structure Valid (w : Workflow) : Prop where
  id : IdFits w.id
  steps : ∀ step ∈ w.steps, step.Valid
  stepIds : (w.steps.map Step.id).Nodup
  created : ∀ t ∈ w.createdAt, t.WellFormed
  updated : ∀ t ∈ w.updatedAt, t.WellFormed

theorem idFits_empty : IdFits "" := ⟨rfl, rfl⟩

/-- Whether a workflow fits the rules apart from that on its id. -/
def ValidApart (w : Workflow) : Prop := Valid { w with id := "" }

variable {w : Workflow}

theorem valid_iff : w.Valid ↔ IdFits w.id ∧ w.ValidApart :=
  ⟨fun h => ⟨h.id, idFits_empty, h.steps, h.stepIds, h.created, h.updated⟩,
    fun ⟨hid, h⟩ => ⟨hid, h.steps, h.stepIds, h.created, h.updated⟩⟩

theorem checkStepIds_eq_ok_iff {input : Json} {w' : Workflow} :
    checkStepIds input w = .ok w' ↔ (w.steps.map Step.id).Nodup ∧ w = w' := by
  have hnone : duplicateId? [] w.steps = none ↔ _ := duplicateId?_eq_none_iff
  simp only [List.not_mem_nil, not_false_eq_true, implies_true, and_true] at hnone
  rw [checkStepIds, ← hnone]
  cases duplicateId? [] w.steps with
  | none => exact ⟨fun h => ⟨rfl, Except.ok.inj h⟩, fun h => congrArg Except.ok h.2⟩
  | some id => exact ⟨fun h => (nomatch h), fun h => (nomatch h.1)⟩

theorem faithful_steps : Checked.Faithful 5 (Checked.nullAs [] (Checked.list Step.read))
    (fun steps => .arr (steps.map Step.toJson)) fun steps => ∀ step ∈ steps, step.Valid :=
  Step.faithful.list.nullAs (fun _ h => nomatch h) (List.forall_mem_nil _)

theorem faithful_declared : Checked.Faithful 3 (Checked.nullAs [] (Checked.list Variable.read))
    (fun declared => .arr (declared.map Variable.toJson)) fun declared => ∀ _ ∈ declared, True :=
  Variable.faithful.list.nullAs (fun _ h => nomatch h) (List.forall_mem_nil _)

/-- A workflow that was read of a sound value is valid. -/
theorem valid_of_read {value : Json} (hsound : value.Sound) (h : read value = .ok w) :
    w.Valid := by
  obtain ⟨_, hmodel, hcheck⟩ := Checked.andThen_eq_ok_iff.mp h
  obtain ⟨hstepIds, rfl⟩ := checkStepIds_eq_ok_iff.mp hcheck
  obtain ⟨fields, rfl, hfields⟩ := Checked.model_eq_ok_iff.mp hmodel
  have hnone : ∀ t ∈ (none : Option Timestamp), t.WellFormed := fun _ ht => nomatch ht
  suffices hgives : Checked.Gives _ fun w : Workflow => (w.steps.map Step.id).Nodup → w.Valid from
    hgives _ hfields hstepIds
  -- one part for each field, in the order of reading; the ids of the steps were checked afterwards
  refine ((((((((Checked.gives_pure ?_).seq
    (faithful_id.gives_optional idFits_empty hsound)).seq .any).seq .any).seq .any).seq .any).seq
    (faithful_steps.gives_optional (List.forall_mem_nil _) hsound)).seq
    (Timestamp.faithful_option.gives_optional hnone hsound)).seq
    (Timestamp.faithful_option.gives_optional hnone hsound)
  intro id hid name _ description _ category _ declared _ steps hsteps createdAt hcreated updatedAt
    hupdated hstepIds
  exact ⟨hid, hsteps, hstepIds, hcreated, hupdated⟩

/-- What is written of a valid workflow is read as that workflow. -/
theorem read_toJson (h : w.Valid) : read w.toJson = .ok w := by
  refine Checked.andThen_eq_ok_iff.mpr ⟨w, ?_, checkStepIds_eq_ok_iff.mpr ⟨h.stepIds, rfl⟩⟩
  exact Checked.seq_of_ok (Checked.seq_of_ok (Checked.seq_of_ok (Checked.seq_of_ok
    (Checked.seq_of_ok (Checked.seq_of_ok (Checked.seq_of_ok (Checked.seq_of_ok rfl
    (Checked.optional_of_ok rfl (faithful_id.back h.id))) rfl) rfl) rfl)
    (Checked.optional_of_ok rfl (faithful_declared.back fun _ _ => trivial)))
    (Checked.optional_of_ok rfl (faithful_steps.back h.steps)))
    (Checked.optional_of_ok rfl (Timestamp.faithful_option.back h.created)))
    (Checked.optional_of_ok rfl (Timestamp.faithful_option.back h.updated))

theorem faithful : Checked.Faithful 6 read toJson Valid where
  valid := valid_of_read
  back := read_toJson
  exact {w} h depth := by
    have hdeclared := faithful_declared.exact (a := w.declared) (fun _ _ => trivial) (depth + 2)
    have hsteps := faithful_steps.exact h.steps depth
    have hcreated := Timestamp.faithful_option.exact h.created (depth + 5)
    have hupdated := Timestamp.faithful_option.exact h.updated (depth + 5)
    refine .obj (by simp [Assoc.keys]) ?_
    simp only [List.forall_mem_cons, List.not_mem_nil, false_imp_iff, implies_true, and_true]
    exact ⟨.str _, .str _, .str _, .str _, hdeclared, hsteps, hcreated, hupdated⟩

end Workflow

end Runbook

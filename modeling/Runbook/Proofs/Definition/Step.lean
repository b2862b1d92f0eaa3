import Runbook.Definition.Step
import Runbook.Proofs.Checked.Faithful

/-!
# Steps, conditions and actions are read back

A step that was read has an order that can be written and binds each local name once. What is
written of an action, a condition or such a step is read as that one (`Action.faithful`,
`Condition.faithful`, `Step.faithful`).
-/

set_option autoImplicit false

namespace Runbook

theorem Action.faithful : Checked.Faithful 1 Action.read Action.toJson fun _ => True where
  valid _ _ := trivial
  back _ := rfl
  exact _ _ := .obj (by simp [Assoc.keys]) (by simp [Json.Exact.str])

theorem Action.faithful_option :
    Checked.Faithful 1 (Checked.nullable Action.read) Action.optionToJson
      fun o => ∀ _ ∈ o, True :=
  Action.faithful.nullable (fun _ => rfl) rfl fun _ h => nomatch h

theorem Condition.faithful :
    Checked.Faithful 2 Condition.read Condition.toJson fun _ => True where
  valid _ _ := trivial
  back _ := rfl
  exact _ _ := .obj (by simp [Assoc.keys])
    (by simp [Json.Exact.str, Action.faithful.exact trivial])

theorem Condition.faithful_list :
    Checked.Faithful 3 (Checked.nullAs [] (Checked.list Condition.read))
      (fun conditions => .arr (conditions.map Condition.toJson)) fun conditions =>
        ∀ _ ∈ conditions, True :=
  Condition.faithful.list.nullAs (fun _ h => nomatch h) (List.forall_mem_nil _)

/-- Whether a step's order can be written and each local name is bound once. -/
structure Step.Valid (s : Step) : Prop where
  order : (Json.int s.order).Sound
  bindings : Checked.Entries (fun _ => True) s.bindings

namespace Step

variable {s : Step}

theorem faithful_bindings : Checked.Faithful 1 (Checked.nullAs [] Checked.scope) Json.strFields
    (Checked.Entries fun _ => True) :=
  Checked.faithful_scope.nullAs (fun _ h => nomatch h) Checked.entries_nil

/-- A step that was read of a sound value is valid. -/
theorem valid_of_read {value : Json} (hsound : value.Sound) (h : read value = .ok s) : s.Valid := by
  obtain ⟨fields, rfl, hfields⟩ := Checked.model_eq_ok_iff.mp h
  have hzero : (Json.int 0).Sound := Json.sound_int 1 (by decide) (by decide)
  suffices hgives : Checked.Gives _ Valid from hgives _ hfields
  -- one part for each field, in the order of reading; only the order and the bindings are judged
  refine (((((((((Checked.gives_pure ?_).seq .any).seq .any).seq .any).seq
    (Checked.faithful_int.gives_optional hzero hsound)).seq .any).seq
    (faithful_bindings.gives_optional Checked.entries_nil hsound)).seq .any).seq .any).seq .any
  intro id _ name _ type _ order horder content _ bindings hbindings _ _ _ _ _ _
  exact ⟨horder, hbindings⟩

/-- What is written of a valid step is read as that step. -/
theorem read_toJson (h : s.Valid) : read s.toJson = .ok s :=
  -- the texts and the order are read back by computation alone
  Checked.seq_of_ok (Checked.seq_of_ok (Checked.seq_of_ok (Checked.seq_of_ok rfl
    (Checked.optional_of_ok rfl (faithful_bindings.back h.bindings)))
    (Checked.optional_of_ok rfl (Condition.faithful_list.back fun _ _ => trivial)))
    (Checked.optional_of_ok rfl (Action.faithful_option.back fun _ _ => trivial)))
    (Checked.optional_of_ok rfl (Action.faithful_option.back fun _ _ => trivial))

theorem faithful : Checked.Faithful 4 read toJson Valid where
  valid := valid_of_read
  back := read_toJson
  exact {s} h depth := by
    have horder := Checked.faithful_int.exact h.order (depth + 3)
    have hbindings := faithful_bindings.exact h.bindings (depth + 2)
    have hconditions := Condition.faithful_list.exact (a := s.conditions) (fun _ _ => trivial) depth
    have haction : ∀ o, Json.Exact (depth + 3) (Action.optionToJson o) := fun o =>
      Action.faithful_option.exact (a := o) (fun _ _ => trivial) (depth + 2)
    refine .obj (by simp [Assoc.keys]) ?_
    simp only [List.forall_mem_cons, List.not_mem_nil, false_imp_iff, implies_true, and_true]
    exact ⟨.str _, .str _, .str _, horder, .str _, hbindings, hconditions, haction _, haction _⟩

end Step

end Runbook

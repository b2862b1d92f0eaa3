import Runbook.Definition.Execution
import Runbook.Proofs.Definition.Workflow

/-!
# Executions are read back

The words for statuses and levels are read as those. A log entry or a picture of a run that was read
has well formed times, those that it did not name among them if the time of reading is well formed,
and what is written of it is read as that one, at any other time too (`TimedEntry.back`,
`Execution.back`).
-/

set_option autoImplicit false

namespace Runbook

variable {now : Timestamp}

theorem Status.read_name (status : Status) : Status.read (.str status.name) = .ok status := by
  cases status <;> rfl

theorem Level.read_name (level : Level) : Level.read (.str level.name) = .ok level := by
  cases level <;> rfl

theorem TimedEntry.faithful (h : now.WellFormed) : Checked.Faithful 1 (TimedEntry.read now)
    TimedEntry.toJson fun e => e.timestamp.WellFormed where
  valid {value e} hsound hread := by
    obtain ⟨fields, rfl, hfields⟩ := Checked.model_eq_ok_iff.mp hread
    suffices hgives : Checked.Gives _ fun e : TimedEntry => e.timestamp.WellFormed from
      hgives _ hfields
    refine ((((Checked.gives_pure ?_).seq
      (Checked.faithful_timestamp.gives_optional h hsound)).seq .any).seq .any).seq .any
    intro timestamp htimestamp stepId _ level _ message _
    exact htimestamp
  back {e} htime :=
    Checked.seq_of_ok (Checked.seq_of_ok (Checked.seq_of_ok (Checked.seq_of_ok rfl
      (Checked.optional_of_ok rfl (Checked.faithful_timestamp.back htime))) rfl)
      (Checked.optional_of_ok rfl (Level.read_name e.entry.level))) rfl
  exact _ _ := .obj (by simp [Assoc.keys]) (by simp [Json.Exact.str])

namespace Execution

/-- Whether the times of a picture are well formed and each variable stands in it once. -/
structure Valid (e : Execution) : Prop where
  scope : Checked.Entries (fun _ => True) e.scope
  logs : ∀ entry ∈ e.logs, entry.timestamp.WellFormed
  started : e.startTime.WellFormed
  ended : ∀ t ∈ e.endTime, t.WellFormed

theorem faithful (h : now.WellFormed) : Checked.Faithful 3 (read now) toJson Valid where
  valid {value e} hsound hread := by
    obtain ⟨fields, rfl, hfields⟩ := Checked.model_eq_ok_iff.mp hread
    suffices hgives : Checked.Gives _ Valid from hgives _ hfields
    -- a time that is not named is `now`, in the entries as in the picture
    refine (((((((Checked.gives_pure ?_).seq .any).seq .any).seq .any).seq
      (Checked.faithful_scope.gives_optional Checked.entries_nil hsound)).seq
      ((TimedEntry.faithful h).list.gives_optional (List.forall_mem_nil _) hsound)).seq
      (Checked.faithful_timestamp.gives_optional h hsound)).seq
      (Timestamp.faithful_option.gives_optional (fun _ ht => nomatch ht) hsound)
    intro id _ workflowId _ status _ scope hscope logs hlogs startTime hstarted endTime hended
    exact ⟨hscope, hlogs, hstarted, hended⟩
  back {e} he :=
    Checked.seq_of_ok (Checked.seq_of_ok (Checked.seq_of_ok (Checked.seq_of_ok
      (Checked.seq_of_ok rfl (Checked.optional_of_ok rfl (Status.read_name e.status)))
      (Checked.optional_of_ok rfl (Checked.faithful_scope.back he.scope)))
      (Checked.optional_of_ok rfl ((TimedEntry.faithful h).list.back he.logs)))
      (Checked.optional_of_ok rfl (Checked.faithful_timestamp.back he.started)))
      (Checked.optional_of_ok rfl (Timestamp.faithful_option.back he.ended))
  exact {e} he depth := by
    have hscope := Checked.faithful_scope.exact he.scope (depth + 1)
    have hlogs := (TimedEntry.faithful h).list.exact he.logs depth
    have hended := Timestamp.faithful_option.exact he.ended (depth + 2)
    refine .obj (by simp [Assoc.keys]) ?_
    simp only [List.forall_mem_cons, List.not_mem_nil, false_imp_iff, implies_true, and_true]
    exact ⟨.str _, .str _, .str _, hscope, hlogs, .str _, hended⟩

end Execution

end Runbook

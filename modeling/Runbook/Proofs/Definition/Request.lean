import Runbook.Definition.Request
import Runbook.Proofs.Checked.Faithful

/-!
# Requests and their answers are read back

What is written of a request or an answer that was read is read as that one. All that is asked of
one is that its objects have each name once.
-/

set_option autoImplicit false

namespace Runbook

theorem ExecuteRequest.faithful : Checked.Faithful 2 ExecuteRequest.read ExecuteRequest.toJson
    fun r => Checked.Entries (fun _ => True) r.inputs where
  valid {value r} hsound hread := by
    obtain ⟨fields, rfl, hfields⟩ := Checked.model_eq_ok_iff.mp hread
    suffices hgives : Checked.Gives _ fun r : ExecuteRequest =>
      Checked.Entries (fun _ => True) r.inputs from hgives _ hfields
    refine (Checked.gives_pure ?_).seq
      (Checked.faithful_scope.gives_optional Checked.entries_nil hsound)
    exact fun inputs hinputs => hinputs
  back {r} hinputs :=
    Checked.seq_of_ok rfl (Checked.optional_of_ok rfl (Checked.faithful_scope.back hinputs))
  exact {r} hinputs depth := by
    have hscope := Checked.faithful_scope.exact hinputs depth
    exact .obj (by simp [Assoc.keys]) (by simpa using hscope)

theorem PreviewRequest.faithful : Checked.Faithful 2 PreviewRequest.read PreviewRequest.toJson
    fun r => Checked.Entries (fun _ => True) r.values where
  valid {value r} hsound hread := by
    obtain ⟨fields, rfl, hfields⟩ := Checked.model_eq_ok_iff.mp hread
    suffices hgives : Checked.Gives _ fun r : PreviewRequest =>
      Checked.Entries (fun _ => True) r.values from hgives _ hfields
    refine ((Checked.gives_pure ?_).seq .any).seq
      (Checked.faithful_scope.gives_optional Checked.entries_nil hsound)
    exact fun command _ values hvalues => hvalues
  back {r} hvalues :=
    Checked.seq_of_ok rfl (Checked.optional_of_ok rfl (Checked.faithful_scope.back hvalues))
  exact {r} hvalues depth := by
    have hscope := Checked.faithful_scope.exact hvalues depth
    exact .obj (by simp [Assoc.keys]) (by simpa [Json.Exact.str] using hscope)

theorem ValidateResponse.faithful : Checked.Faithful 3 ValidateResponse.read
    ValidateResponse.toJson
    fun r => Checked.Entries (fun texts => ∀ _ ∈ texts, True) r.missing where
  valid {value r} hsound hread := by
    obtain ⟨fields, rfl, hfields⟩ := Checked.model_eq_ok_iff.mp hread
    suffices hgives : Checked.Gives _ fun r : ValidateResponse =>
      Checked.Entries (fun texts => ∀ _ ∈ texts, True) r.missing from hgives _ hfields
    refine ((Checked.gives_pure ?_).seq .any).seq
      (Checked.faithful_lists.gives_optional Checked.entries_nil hsound)
    exact fun ok _ missing hmissing => hmissing
  back {r} hmissing :=
    Checked.seq_of_ok rfl (Checked.optional_of_ok rfl (Checked.faithful_lists.back hmissing))
  exact {r} hmissing depth := by
    have hlists := Checked.faithful_lists.exact hmissing depth
    exact .obj (by simp [Assoc.keys]) (by simpa [Json.Exact.bool] using hlists)

theorem PreviewResponse.faithful : Checked.Faithful 2 PreviewResponse.read PreviewResponse.toJson
    fun _ => True where
  valid _ _ := trivial
  back {r} _ :=
    Checked.seq_of_ok (Checked.seq_of_ok (Checked.seq_of_ok rfl
      (Checked.required_of_ok rfl (Checked.faithful_texts.back fun _ _ => trivial)))
      (Checked.required_of_ok rfl (Checked.faithful_texts.back fun _ _ => trivial))) rfl
  exact {r} _ depth := by
    have htexts : ∀ texts, Json.Exact (depth + 1) (Json.strs texts) := fun texts =>
      Checked.faithful_texts.exact (a := texts) (fun _ _ => trivial) depth
    exact .obj (by simp [Assoc.keys]) (by simp [Json.Exact.str, htexts])

end Runbook

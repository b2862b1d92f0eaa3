import Runbook.Checked.Reader
import Runbook.Proofs.Timestamp.RoundTrip

/-!
# Checked reading that succeeds

What has to be so for a reader to give a value: for parts read side by side, for a field that must be
there and for one that has a default. A point in time that was read is well formed
(`wellFormed_of_timestamp`), and the text of a well formed one is read (`timestamp_print`).
-/

set_option autoImplicit false

namespace Runbook.Checked

variable {α β : Type}

theorem seq_eq_ok_iff {f : Checked (α → β)} {x : Checked α} {y : β} :
    f <*> x = .ok y ↔ ∃ g a, f = .ok g ∧ x = .ok a ∧ g a = y := by
  constructor
  · intro h
    rcases f with faults | g <;> rcases x with faults' | a <;> cases h
    exact ⟨g, a, rfl, rfl, rfl⟩
  · rintro ⟨g, a, rfl, rfl, rfl⟩
    rfl

theorem pure_eq_ok_iff {x y : α} : (pure x : Checked α) = .ok y ↔ x = y :=
  ⟨fun h => Except.ok.inj h, fun h => congrArg Except.ok h⟩

theorem under_eq_ok_iff {key : Key} {x : Checked α} {a : α} :
    under key x = .ok a ↔ x = .ok a := by
  rcases x with faults | found
  · exact ⟨fun h => (nomatch h), fun h => (nomatch h)⟩
  · exact Iff.rfl

theorem model_eq_ok_iff {name : String} {read : Assoc Json → Checked α} {value : Json} {a : α} :
    model name read value = .ok a ↔ ∃ fields, value = .obj fields ∧ read fields = .ok a := by
  cases value with
  | obj fields => exact ⟨fun h => ⟨fields, rfl, h⟩, fun ⟨_, h, h'⟩ => by cases h; exact h'⟩
  | _ => exact ⟨fun h => (nomatch h), fun ⟨_, h, _⟩ => (nomatch h)⟩

theorem required_eq_ok_iff {fields : Assoc Json} {name : String} {read : Json → Checked α} {a : α} :
    required fields name read = .ok a ↔
      ∃ value, fields.get? name = some value ∧ read value = .ok a := by
  rw [required, under_eq_ok_iff]
  cases fields.get? name with
  | none => exact ⟨fun h => (nomatch h), fun ⟨_, h, _⟩ => (nomatch h)⟩
  | some value => exact ⟨fun h => ⟨value, rfl, h⟩, fun ⟨_, h, h'⟩ => Option.some.inj h ▸ h'⟩

theorem optional_eq_ok_iff {fields : Assoc Json} {name : String} {default : α}
    {read : Json → Checked α} {a : α} :
    optional fields name default read = .ok a ↔
      (fields.get? name = none ∧ default = a) ∨
      ∃ value, fields.get? name = some value ∧ read value = .ok a := by
  rw [optional]
  cases fields.get? name with
  | none => exact ⟨fun h => .inl ⟨rfl, Except.ok.inj h⟩, fun h => by
      rcases h with ⟨_, h⟩ | ⟨_, h, _⟩
      · exact congrArg Except.ok h
      · cases h⟩
  | some value =>
      dsimp only
      rw [under_eq_ok_iff]
      exact ⟨fun h => .inr ⟨value, rfl, h⟩, fun h => by
        rcases h with ⟨h, _⟩ | ⟨_, h, h'⟩
        · cases h
        · exact Option.some.inj h ▸ h'⟩

theorem map_eq_ok_iff {f : α → β} {x : Checked α} {b : β} :
    f <$> x = .ok b ↔ ∃ a, x = .ok a ∧ f a = b := by
  rcases x with faults | a
  · exact ⟨fun h => (nomatch h), fun ⟨_, h, _⟩ => (nomatch h)⟩
  · exact ⟨fun h => ⟨a, rfl, Except.ok.inj h⟩, fun ⟨_, h, h'⟩ => by cases h; exact h' ▸ rfl⟩

theorem nullable_of_ne_null {value : Json} (h : value ≠ .null) (read : Json → Checked α) :
    nullable read value = some <$> read value := by
  cases value with
  | null => exact (h rfl).elim
  | _ => rfl

theorem nullable_eq_some_iff {read : Json → Checked α} {value : Json} {a : α} :
    nullable read value = .ok (some a) ↔ value ≠ .null ∧ read value = .ok a := by
  by_cases hvalue : value = .null
  · subst hvalue
    exact ⟨fun h => (nomatch h), fun ⟨h, _⟩ => (h rfl).elim⟩
  · rw [nullable_of_ne_null hvalue, map_eq_ok_iff]
    exact ⟨fun ⟨_, h, h'⟩ => ⟨hvalue, Option.some.inj h' ▸ h⟩, fun ⟨_, h⟩ => ⟨a, h, rfl⟩⟩

/-- A point in time that was read is well formed. -/
theorem wellFormed_of_timestamp {value : Json} {t : Timestamp} (h : timestamp value = .ok t) :
    t.WellFormed := by
  cases value with
  | str s =>
      cases hfound : Timestamp.read? s with
      | none =>
          rw [timestamp, hfound] at h
          cases h
      | some found =>
          rw [timestamp, hfound] at h
          cases h
          exact Timestamp.wellFormed_of_read hfound
  | real x =>
      cases hfound : Timestamp.ofBinary? x with
      | none =>
          rw [timestamp, hfound] at h
          cases h
      | some found =>
          rw [timestamp, hfound] at h
          cases h
          exact Timestamp.wellFormed_of_binary hfound
  | int n =>
      by_cases hn : n.natAbs < Nat.pow 2 63
      · cases hfound : Timestamp.ofCount? n 0 with
        | none =>
            rw [timestamp, if_pos hn, hfound] at h
            cases h
        | some found =>
            rw [timestamp, if_pos hn, hfound] at h
            cases h
            exact Timestamp.wellFormed_of_count hfound
      · rw [timestamp, if_neg hn] at h
        cases h
  | _ => cases h

/-- The text of a well formed point in time is read as that point. -/
theorem timestamp_print {t : Timestamp} (h : t.WellFormed) : timestamp (.str t.print) = .ok t := by
  simp only [timestamp, Timestamp.read_print h]
  rfl

end Runbook.Checked

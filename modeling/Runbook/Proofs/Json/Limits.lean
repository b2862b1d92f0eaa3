import Runbook.Json.Limits
import Runbook.Proofs.Json.RoundTrip

/-!
# What has a text

A value that is `Plain` is read back from its text as soon as it has one: within the limits of writing,
it is `Exact` (`Plain.exact`).
-/

set_option autoImplicit false

namespace Runbook.Json

/-- A value with finite numbers whose objects have each key once, nested however deep. -/
inductive Plain : Json → Prop where
  | null : Plain .null
  | bool (b : Bool) : Plain (.bool b)
  | int (n : Int) : Plain (.int n)
  | real {x : Binary} : x.Proper → Plain (.real x)
  | str (s : String) : Plain (.str s)
  | arr {items : List Json} : (∀ item ∈ items, Plain item) → Plain (.arr items)
  | obj {fields : Assoc Json} : fields.keys.Nodup → (∀ field ∈ fields, Plain field.2) →
      Plain (.obj fields)

theorem itemsExcess?_eq_findSome? (room : Nat) (items : List Json) :
    itemsExcess? room items = items.findSome? (excess? room) := by
  induction items with
  | nil => rfl
  | cons item items ih =>
      rw [itemsExcess?, ih, List.findSome?_cons]
      cases excess? room item <;> rfl

theorem fieldsExcess?_eq_findSome? (room : Nat) (fields : Assoc Json) :
    fieldsExcess? room fields = fields.findSome? fun field => excess? room field.2 := by
  induction fields with
  | nil => rfl
  | cons field fields ih =>
      rw [fieldsExcess?, ih, List.findSome?_cons, fieldExcess?]
      cases excess? room field.2 <;> rfl

theorem excess?_arr_succ (room : Nat) (items : List Json) :
    excess? (room + 1) (.arr items) = items.findSome? (excess? room) := by
  rw [excess?, itemsExcess?_eq_findSome?]

theorem excess?_obj_succ (room : Nat) (fields : Assoc Json) :
    excess? (room + 1) (.obj fields) = fields.findSome? fun field => excess? room field.2 := by
  rw [excess?, fieldsExcess?_eq_findSome?]

theorem Exact.mono {value : Json} {depth depth' : Nat} (h : Exact depth value) (hle : depth ≤ depth') :
    Exact depth' value := by
  induction h generalizing depth' with
  | null => exact .null
  | bool b => exact .bool b
  | int hn => exact .int hn
  | real hx => exact .real hx
  | str s => exact .str s
  | arr _ ih =>
      obtain ⟨less, rfl⟩ : ∃ less, depth' = less + 1 := ⟨depth' - 1, by omega⟩
      exact .arr fun item hitem => ih item hitem (Nat.le_of_succ_le_succ hle)
  | obj hkeys _ ih =>
      obtain ⟨less, rfl⟩ : ∃ less, depth' = less + 1 := ⟨depth' - 1, by omega⟩
      exact .obj hkeys fun field hfield => ih field hfield (Nat.le_of_succ_le_succ hle)

/-- A value within the limits is read back from its text. -/
theorem Plain.exact {value : Json} (h : value.Plain) {room : Nat}
    (hroom : value.excess? room = none) : Exact room value := by
  -- by induction on the value; a list and an object take a level each
  induction h generalizing room with
  | null => exact .null
  | bool b => exact .bool b
  | int n =>
      have hshort : ∀ k, 0 < k → (Nat.toDigits 10 n.natAbs).length ≤ k → n.natAbs < 10 ^ k :=
        fun k hk => (Nat.length_toDigits_le_iff (by decide) hk).1
      rw [excess?] at hroom
      split at hroom
      · exact .int (hshort 4300 (by decide) ‹_›)
      · cases hroom
  | real hx => exact .real hx
  | str s => exact .str s
  | arr _ ih =>
      cases room with
      | zero => cases hroom
      | succ room =>
          rw [excess?_arr_succ, List.findSome?_eq_none_iff] at hroom
          exact .arr fun item hitem => ih item hitem (hroom item hitem)
  | obj hkeys _ ih =>
      cases room with
      | zero => cases hroom
      | succ room =>
          rw [excess?_obj_succ, List.findSome?_eq_none_iff] at hroom
          exact .obj hkeys fun field hfield => ih field hfield (hroom field hfield)

end Runbook.Json

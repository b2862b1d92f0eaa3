import Runbook.Json.Reader
import Runbook.Proofs.Assoc
import Runbook.Proofs.Timestamp.RoundTrip

/-!
# What a text can hold

A value is `Sound` if its integers have no more digits than are read and each of its objects has
each key once. Every value that was read from a text is sound (`sound_of_read`), by induction on the
fuel of the readers of values, items and fields.
-/

set_option autoImplicit false

namespace Runbook.Json

variable {dialect : Dialect}

/-- A value whose integers are not too long and whose objects have each key once. -/
inductive Sound : Json → Prop where
  | null : Sound .null
  | bool (b : Bool) : Sound (.bool b)
  | int {n : Int} : n.natAbs < 10 ^ 4300 → Sound (.int n)
  | real (x : Binary) : Sound (.real x)
  | str (s : String) : Sound (.str s)
  | arr {items : List Json} : (∀ item ∈ items, Sound item) → Sound (.arr items)
  | obj {fields : Assoc Json} : fields.keys.Nodup → (∀ field ∈ fields, Sound field.2) →
      Sound (.obj fields)

/-! ## Numbers -/

theorem le_nine_of_isAsciiDigit {c : Char} (h : isAsciiDigit c = true) : c.toNat - 48 ≤ 9 := by
  have hrange : '0' ≤ c ∧ c ≤ '9' := by simpa [isAsciiDigit] using h
  have hle : c.toNat ≤ 57 := hrange.2
  omega

/-- A number of at most `count` digits is below the power of ten of that count. -/
theorem digitsToNat_lt {ds : List Char} {count : Nat} (h : ∀ c ∈ ds, c.toNat - 48 ≤ 9)
    (hcount : ds.length ≤ count) : digitsToNat ds < 10 ^ count := by
  have hlt := Timestamp.foldl_digits_lt h 0
  rw [Nat.zero_add, Nat.one_mul] at hlt
  exact Nat.lt_of_lt_of_le hlt (Nat.pow_le_pow_right (by decide) hcount)

theorem digits_of_readWhole {cs whole rest : List Char} (h : readWhole cs = some (whole, rest)) :
    ∀ c ∈ whole, isAsciiDigit c = true := by
  unfold readWhole at h
  split at h
  · cases h
    exact List.forall_mem_singleton.mpr rfl
  · dsimp only at h
    split at h
    · cases h
    · cases h
      exact List.all_eq_true.mp List.all_takeWhile

/-- An integer of at most as many digits as are read is sound. -/
theorem sound_int (count : Nat) {n : Int} (h : n.natAbs < 10 ^ count) (hcount : count ≤ 4300) :
    (Json.int n).Sound := by
  have hgrows : ∀ limit, count ≤ limit → 10 ^ count ≤ 10 ^ limit := fun _ =>
    Nat.pow_le_pow_right (by decide)
  exact .int (Nat.lt_of_lt_of_le h (hgrows 4300 hcount))

theorem natAbs_signed (negative : Bool) (size : Nat) :
    (if negative then -(size : Int) else size).natAbs = size := by
  cases negative with
  | false => rfl
  | true => exact Int.natAbs_neg _

theorem sound_value {n : NumberParts} (hdigits : ∀ c ∈ n.whole, isAsciiDigit c = true)
    (hshort : n.fraction = none → n.exponent = none → n.whole.length ≤ 4300) :
    n.value.Sound := by
  obtain ⟨negative, whole, fraction, exponent⟩ := n
  unfold NumberParts.value
  split
  · -- only a number with neither a fraction nor an exponent is an integer
    rename_i hfraction hexponent
    have hlt := digitsToNat_lt (fun c hc => le_nine_of_isAsciiDigit (hdigits c hc)) (Nat.le_refl _)
    rw [← natAbs_signed negative (digitsToNat whole)] at hlt
    exact sound_int _ hlt (hshort hfraction hexponent)
  · exact .real _

theorem sound_of_readNumber {at_ behind : Cursor} {value : Json}
    (h : readNumber at_ = .ok (value, behind)) : value.Sound := by
  unfold readNumber at h
  dsimp only at h
  split at h
  · cases h
  · rename_i whole rest hwhole
    split at h
    · cases h
    · rename_i hlong
      cases h
      refine sound_value (digits_of_readWhole hwhole) fun hfraction hexponent => ?_
      dsimp only at hfraction hexponent
      simpa [hfraction, hexponent] using hlong

theorem sound_of_readScalar {at_ behind : Cursor} {value : Json}
    (h : readScalar at_ = .ok (value, behind)) : value.Sound := by
  unfold readScalar at h
  split at h
  · rename_i word found hword
    cases h
    have hmem := List.mem_of_find?_eq_some hword
    simp only [words, List.mem_cons, List.not_mem_nil, or_false, Prod.mk.injEq] at hmem
    rcases hmem with ⟨_, rfl⟩ | ⟨_, rfl⟩ | ⟨_, rfl⟩ | ⟨_, rfl⟩ | ⟨_, rfl⟩ | ⟨_, rfl⟩
    · exact .null
    · exact .bool true
    · exact .bool false
    · exact .real _
    · exact .real _
    · exact .real _
  · exact sound_of_readNumber h

/-! ## Values -/

/-- What the three readers give with some fuel, the items and fields read before being sound. -/
structure SoundWith (dialect : Dialect) (fuel : Nat) : Prop where
  value : ∀ {depth at_ value behind}, readValue dialect fuel depth at_ = .ok (value, behind) →
    value.Sound
  items : ∀ {depth read at_ value behind}, (∀ item ∈ read, Sound item) →
    readItems dialect fuel depth read at_ = .ok (value, behind) → value.Sound
  fields : ∀ {depth at_ value behind} {read : Assoc Json}, read.keys.Nodup →
    (∀ field ∈ read, Sound field.2) →
    readFields dialect fuel depth read at_ = .ok (value, behind) → value.Sound

theorem sound_put {fields : Assoc Json} (h : ∀ field ∈ fields, Sound field.2) (key : String)
    {value : Json} (hvalue : value.Sound) : ∀ field ∈ fields.put key value, Sound field.2 := by
  induction fields with
  | nil =>
      intro field hfield
      rw [List.mem_singleton.mp hfield]
      exact hvalue
  | cons entry rest ih =>
      obtain ⟨hentry, hrest⟩ := List.forall_mem_cons.mp h
      rw [Assoc.put]
      split
      · exact List.forall_mem_cons.mpr ⟨hvalue, hrest⟩
      · exact List.forall_mem_cons.mpr ⟨hentry, ih hrest⟩

theorem soundWith_zero : SoundWith dialect 0 where
  value h := by rw [readValue] at h; cases h
  items _ h := by rw [readItems] at h; cases h
  fields _ _ h := by rw [readFields] at h; cases h

theorem soundWith_succ {fuel : Nat} (ih : SoundWith dialect fuel) :
    SoundWith dialect (fuel + 1) where
  value {depth at_ value behind} h := by
    rw [readValue] at h
    split at h
    · cases h
    · -- a string
      cases hstring : readString dialect at_.place [] (at_.place + 1) _ with
      | error fault =>
          rw [hstring] at h
          cases h
      | ok found =>
          rw [hstring] at h
          cases h
          exact .str _
    · -- an array
      split at h
      · cases h
      · dsimp only at h
        split at h
        · cases h
          exact .arr (List.forall_mem_nil _)
        · exact ih.items (List.forall_mem_nil _) h
    · -- an object
      split at h
      · cases h
      · dsimp only at h
        split at h
        · cases h
          exact .obj List.nodup_nil (List.forall_mem_nil _)
        · have hkeys : Assoc.keys ([] : Assoc Json) = [] := rfl
          exact ih.fields (hkeys ▸ List.nodup_nil) (List.forall_mem_nil _) h
    · exact sound_of_readScalar h
  items {depth read at_ value behind} hread h := by
    rw [readItems] at h
    split at h
    · cases h
    · rename_i item _ hitem
      have hall : ∀ other ∈ item :: read, Sound other :=
        List.forall_mem_cons.mpr ⟨ih.value hitem, hread⟩
      -- behind an item the array ends, or a comma promises the next one
      dsimp only at h
      split at h
      · cases h
        exact .arr fun other hother => hall other (List.mem_reverse.mp hother)
      · exact ih.items hall h
      · cases h
  fields {depth at_ value behind read} hkeys hread h := by
    rw [readFields] at h
    split at h
    · split at h
      · cases h
      · dsimp only at h
        split at h
        · split at h
          · cases h
          · rename_i found _ hfound
            -- a key that was read before gets the later value, so each stays there once
            have hall := fun key => sound_put hread key (ih.value hfound)
            split at h
            · cases h
              exact .obj (Assoc.nodup_keys_put hkeys _ _) (hall _)
            · exact ih.fields (Assoc.nodup_keys_put hkeys _ _) (hall _) h
            · cases h
        · cases h
    · cases h

/-- A value that was read from a text is sound. -/
theorem sound_of_read {text : List Char} {value : Json} (h : read dialect text = .ok value) :
    value.Sound := by
  have hall : ∀ fuel, SoundWith dialect fuel := by
    intro fuel
    induction fuel with
    | zero => exact soundWith_zero
    | succ fuel ih => exact soundWith_succ ih
  unfold read at h
  split at h
  · cases h
  · split at h
    · cases h
    · rename_i found behind hread
      dsimp only at h
      split at h
      · cases h
        exact (hall _).value hread
      · cases h

end Runbook.Json

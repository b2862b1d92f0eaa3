import Runbook.Definition.Request
import Runbook.Proofs.Checked
import Runbook.Proofs.Json.RoundTrip
import Runbook.Proofs.Json.Sound

/-!
# Faithful writing

A reader and a writer are `Faithful` to each other if what is read of a sound value is valid, a
valid value is read back from what is written of it, and the text of what is written can be read.
Each simple reader has its writer here; a list, an object of values that are all alike, an absent
value and a value with a default for null inherit it from their parts. What the reader of a record
gives is put together from what its fields give (`Gives.seq`).
-/

set_option autoImplicit false

namespace Runbook.Checked

variable {α β : Type} {levels : Nat} {read : Json → Checked α} {write : α → Json} {Valid : α → Prop}

/-- A reader and a writer that agree on the valid values, written in so many levels of arrays and
objects. -/
structure Faithful (levels : Nat) (read : Json → Checked α) (write : α → Json) (Valid : α → Prop) :
    Prop where
  valid : ∀ {value a}, value.Sound → read value = .ok a → Valid a
  back : ∀ {a}, Valid a → read (write a) = .ok a
  exact : ∀ {a}, Valid a → ∀ depth, Json.Exact (depth + levels) (write a)

/-! ## What is read -/

/-- Whether all that is read satisfies `P`. -/
def Gives (x : Checked α) (P : α → Prop) : Prop := ∀ a, x = .ok a → P a

theorem Gives.any {x : Checked α} : Gives x fun _ => True := fun _ _ => trivial

theorem gives_pure {P : α → Prop} {a : α} (h : P a) : Gives (pure a) P := by
  intro _ ha
  cases ha
  exact h

theorem Gives.seq {f : Checked (α → β)} {x : Checked α} {P : β → Prop}
    (hf : Gives f fun g => ∀ a, Valid a → P (g a)) (hx : Gives x Valid) : Gives (f <*> x) P := by
  intro b hb
  obtain ⟨g, a, hg, ha, rfl⟩ := seq_eq_ok_iff.mp hb
  exact hf g hg a (hx a ha)

/-! ## Fields -/

theorem sound_of_get? {fields : Assoc Json} {name : String} {value : Json}
    (h : (Json.obj fields).Sound) (hget : fields.get? name = some value) : value.Sound := by
  cases h with
  | obj hkeys hall => exact hall _ ((Assoc.get?_eq_some_iff hkeys).mp hget)

namespace Faithful

variable {fields : Assoc Json} {name : String} {default : α}

theorem gives_optional (h : Faithful levels read write Valid) (hdefault : Valid default)
    (hsound : (Json.obj fields).Sound) : Gives (optional fields name default read) Valid := by
  intro a ha
  rcases optional_eq_ok_iff.mp ha with ⟨_, rfl⟩ | ⟨value, hget, hvalue⟩
  · exact hdefault
  · exact h.valid (sound_of_get? hsound hget) hvalue

end Faithful

theorem required_of_ok {fields : Assoc Json} {name : String} {value : Json} {a : α}
    (hget : fields.get? name = some value) (h : read value = .ok a) :
    required fields name read = .ok a :=
  required_eq_ok_iff.mpr ⟨value, hget, h⟩

theorem optional_of_ok {fields : Assoc Json} {name : String} {value : Json} {a default : α}
    (hget : fields.get? name = some value) (h : read value = .ok a) :
    optional fields name default read = .ok a :=
  optional_eq_ok_iff.mpr (.inr ⟨value, hget, h⟩)

theorem seq_of_ok {f : Checked (α → β)} {x : Checked α} {g : α → β} {a : α} (hf : f = .ok g)
    (hx : x = .ok a) : f <*> x = .ok (g a) :=
  seq_eq_ok_iff.mpr ⟨g, a, hf, hx, rfl⟩

theorem andThen_eq_ok_iff {x : Checked α} {f : α → Checked β} {b : β} :
    x.andThen f = .ok b ↔ ∃ a, x = .ok a ∧ f a = .ok b := by
  rcases x with faults | a
  · exact ⟨fun h => (nomatch h), fun ⟨_, h, _⟩ => (nomatch h)⟩
  · exact ⟨fun h => ⟨a, rfl, h⟩, fun ⟨_, h, h'⟩ => by cases h; exact h'⟩

theorem ite_eq_ok_iff {c : Prop} [Decidable c] {x y : Checked α} {a : α} :
    (if c then x else y) = .ok a ↔ (c ∧ x = .ok a) ∨ (¬c ∧ y = .ok a) := by
  by_cases hc : c
  · simp only [hc, if_true, true_and, not_true, false_and, or_false]
  · simp only [hc, if_false, false_and, not_false_eq_true, true_and, false_or]

/-! ## Simple values -/

theorem faithful_text : Faithful 0 text .str fun _ => True where
  valid _ _ := trivial
  back _ := rfl
  exact _ _ := .str _

theorem faithful_timestamp :
    Faithful 0 timestamp (fun t => .str t.print) Timestamp.WellFormed where
  valid _ := wellFormed_of_timestamp
  back := timestamp_print
  exact _ _ := .str _

/-! ## Integers -/

/-- Taking out underscores leaves digits, and no more of them than there were characters. -/
theorem digits_of_joinDigits {cs : List Char} :
    ∀ {ds : List Char}, joinDigits cs = some ds →
      (∀ c ∈ ds, c.isDigit = true) ∧ ds.length ≤ cs.length := by
  fun_induction joinDigits cs with
  | case1 => exact fun h => nomatch h
  | case2 c hc =>
      intro ds h
      cases h
      exact ⟨by simpa using hc, Nat.le_refl _⟩
  | case3 => exact fun h => nomatch h
  | case4 c d rest hc ih =>
      intro ds h
      obtain ⟨tail, htail, rfl⟩ := Option.map_eq_some_iff.mp h
      obtain ⟨hdigits, hlength⟩ := ih htail
      rw [Bool.and_eq_true] at hc
      exact ⟨List.forall_mem_cons.mpr ⟨hc.1, hdigits⟩, by simp only [List.length_cons] at *; omega⟩
  | case5 => exact fun h => nomatch h
  | case6 c d rest _ hc ih =>
      intro ds h
      obtain ⟨tail, htail, rfl⟩ := Option.map_eq_some_iff.mp h
      obtain ⟨hdigits, hlength⟩ := ih htail
      exact ⟨List.forall_mem_cons.mpr ⟨hc, hdigits⟩, by simp only [List.length_cons] at *; omega⟩
  | case7 => exact fun h => nomatch h

theorem length_trim_le (p : Char → Bool) (cs : List Char) :
    ((cs.dropWhile p).reverse.dropWhile p).reverse.length ≤ cs.length := by
  rw [List.length_reverse]
  refine Nat.le_trans (List.dropWhile_suffix p).length_le ?_
  rw [List.length_reverse]
  exact (List.dropWhile_suffix p).length_le

/-- A sign is at most one character long. -/
theorem length_unsigned_le (cs : List Char) :
    (match cs with
      | '-' :: r => (true, r)
      | '+' :: r => (false, r)
      | r => (false, r)).2.length ≤ cs.length := by
  split
  · exact Nat.le_succ _
  · exact Nat.le_succ _
  · exact Nat.le_refl _

/-- The integer that a numeral names has no more digits than the numeral has characters. -/
theorem natAbs_lt_of_numeral {cs : List Char} {n : Int} (h : numeral? cs = some n) :
    n.natAbs < 10 ^ cs.length := by
  unfold numeral? at h
  obtain ⟨_, h⟩ := Option.ite_none_left_eq_some.mp h
  obtain ⟨ds, hjoin, hn⟩ := Option.map_eq_some_iff.mp h
  obtain ⟨hdigits, hlength⟩ := digits_of_joinDigits hjoin
  have hshort : ds.length ≤ cs.length :=
    calc ds.length
      _ ≤ _ := hlength
      _ ≤ _ := (List.takeWhile_prefix _).length_le
      _ ≤ _ := length_unsigned_le _
      _ ≤ cs.length := length_trim_le isNumeralSpace cs
  have hlt := Json.digitsToNat_lt (fun c hc => Json.le_nine_of_isAsciiDigit (hdigits c hc)) hshort
  rw [← hn]
  exact Nat.lt_of_le_of_lt (Nat.le_of_eq (Json.natAbs_signed _ _)) hlt

/-- An integer that was read of a sound value can be written. -/
theorem sound_of_int {value : Json} {n : Int} (hsound : value.Sound) (h : int value = .ok n) :
    (Json.int n).Sound := by
  cases value with
  | int m =>
      cases h
      exact hsound
  | bool b =>
      cases h
      exact Json.sound_int 1 (by cases b <;> decide) (by decide)
  | real x =>
      cases x with
      | finite negative mantissa exponent =>
          unfold int at h
          dsimp only at h
          split at h
          · rcases ite_eq_ok_iff.mp h with ⟨hrange, h⟩ | ⟨_, h⟩
            · -- a number taken for an integer has at most nineteen digits
              cases h
              have hlimit : Nat.pow 2 63 < 10 ^ 19 := by decide
              rw [Bool.and_eq_true, decide_eq_true_eq, decide_eq_true_eq] at hrange
              exact Json.sound_int 19 (by omega) (by decide)
            · cases h
          · cases h
      | _ => cases h
  | str s =>
      unfold int at h
      dsimp only at h
      split at h
      · rename_i m hm
        rcases ite_eq_ok_iff.mp h with ⟨_, h⟩ | ⟨hlong, h⟩
        · cases h
        · -- a numeral is refused from the length on at which a text may not hold its value
          cases h
          exact Json.sound_int _ (natAbs_lt_of_numeral hm) (Nat.le_of_not_gt hlong)
      · cases h
  | _ => cases h

theorem faithful_int : Faithful 0 int .int fun n => (Json.int n).Sound where
  valid := sound_of_int
  back _ := rfl
  exact h _ := by
    cases h with
    | int hn => exact .int hn

/-! ## Absent values, lists and objects -/

theorem Faithful.nullable (h : Faithful levels read write Valid) {writeOption : Option α → Json}
    (hsome : ∀ a, writeOption (some a) = write a) (hnone : writeOption none = .null)
    (hne : ∀ a, write a ≠ .null) :
    Faithful levels (nullable read) writeOption (fun o => ∀ a ∈ o, Valid a) where
  valid {value o} hsound hread := by
    cases o with
    | none => exact fun a ha => nomatch ha
    | some a =>
        rintro _ ⟨⟩
        exact h.valid hsound (nullable_eq_some_iff.mp hread).2
  back {o} ho := by
    cases o with
    | none =>
        rw [hnone]
        rfl
    | some a =>
        rw [hsome]
        exact nullable_eq_some_iff.mpr ⟨hne a, h.back (ho a rfl)⟩
  exact {o} ho depth := by
    cases o with
    | none =>
        rw [hnone]
        exact .null
    | some a =>
        rw [hsome]
        exact h.exact (ho a rfl) depth

theorem Faithful.nullAs (h : Faithful levels read write Valid) (hne : ∀ a, write a ≠ .null)
    {default : α} (hdefault : Valid default) :
    Faithful levels (nullAs default read) write Valid where
  valid {value a} hsound hread := by
    cases value with
    | null =>
        cases hread
        exact hdefault
    | _ => exact h.valid hsound hread
  back {a} ha := by
    have hback := h.back ha
    cases hwrite : write a with
    | null => exact (hne a hwrite).elim
    | _ => rwa [hwrite] at hback
  exact := h.exact

theorem forall_of_itemsFrom (h : ∀ {value a}, value.Sound → read value = .ok a → Valid a)
    {items : List Json} (hsound : ∀ item ∈ items, item.Sound) {n : Nat} :
    ∀ {as : List α}, itemsFrom read n items = .ok as → ∀ a ∈ as, Valid a := by
  induction items generalizing n with
  | nil =>
      intro as hread
      cases hread
      exact List.forall_mem_nil _
  | cons item rest ih =>
      intro as hread
      obtain ⟨hitem, hrest⟩ := List.forall_mem_cons.mp hsound
      obtain ⟨_, more, hfirst, hmore, rfl⟩ := seq_eq_ok_iff.mp hread
      obtain ⟨a, ha, rfl⟩ := map_eq_ok_iff.mp hfirst
      exact List.forall_mem_cons.mpr ⟨h hitem (under_eq_ok_iff.mp ha), ih hrest hmore⟩

theorem itemsFrom_map (h : ∀ {a}, Valid a → read (write a) = .ok a) {as : List α}
    (has : ∀ a ∈ as, Valid a) (n : Nat) : itemsFrom read n (as.map write) = .ok as := by
  induction as generalizing n with
  | nil => rfl
  | cons a as ih =>
      obtain ⟨ha, has⟩ := List.forall_mem_cons.mp has
      exact seq_of_ok (map_eq_ok_iff.mpr ⟨a, under_eq_ok_iff.mpr (h ha), rfl⟩) (ih has (n + 1))

theorem Faithful.list (h : Faithful levels read write Valid) :
    Faithful (levels + 1) (list read) (fun as => .arr (as.map write))
      (fun as => ∀ a ∈ as, Valid a) where
  valid {value as} hsound hread := by
    cases hsound with
    | arr hitems => exact forall_of_itemsFrom h.valid hitems hread
    | _ => cases hread
  back has := itemsFrom_map h.back has 0
  exact has depth := .arr (List.forall_mem_map.mpr fun a ha => h.exact (has a ha) depth)

/-- Reads the values of an object, all alike. -/
def named (read : Json → Checked α) : Assoc Json → Checked (Assoc α)
  | [] => .ok []
  | (name, value) :: rest =>
    (fun a more => (name, a) :: more) <$> under (.field name) (read value) <*> named read rest

/-- Reads an object of values that are all alike. -/
def object (read : Json → Checked α) : Json → Checked (Assoc α)
  | .obj fields => named read fields
  | other => fail .notDict other

theorem scope_eq_object : scope = object text := by
  have hfields : ∀ fields, scopeFields fields = named text fields := by
    intro fields
    induction fields with
    | nil => rfl
    | cons field rest ih => rw [scopeFields, named, ih]
  funext value
  cases value with
  | obj fields => exact hfields fields
  | _ => rfl

theorem lists_eq_object : lists = object (list text) := by
  have hfields : ∀ fields, listFields fields = named (list text) fields := by
    intro fields
    induction fields with
    | nil => rfl
    | cons field rest ih => rw [listFields, named, ih]
  funext value
  cases value with
  | obj fields => exact hfields fields
  | _ => rfl

theorem named_cons_eq_ok_iff {name : String} {value : Json} {rest : Assoc Json}
    {entries : Assoc α} : named read ((name, value) :: rest) = .ok entries ↔
      ∃ a more, read value = .ok a ∧ named read rest = .ok more ∧ (name, a) :: more = entries := by
  rw [named, seq_eq_ok_iff]
  constructor
  · rintro ⟨_, more, hfirst, hmore, rfl⟩
    obtain ⟨a, ha, rfl⟩ := map_eq_ok_iff.mp hfirst
    exact ⟨a, more, under_eq_ok_iff.mp ha, hmore, rfl⟩
  · rintro ⟨a, more, ha, hmore, rfl⟩
    exact ⟨_, more, map_eq_ok_iff.mpr ⟨a, under_eq_ok_iff.mpr ha, rfl⟩, hmore, rfl⟩

theorem keys_of_named {fields : Assoc Json} :
    ∀ {entries : Assoc α}, named read fields = .ok entries → entries.keys = fields.keys := by
  induction fields with
  | nil =>
      intro entries h
      cases h
      rfl
  | cons field rest ih =>
      intro entries h
      obtain ⟨a, more, _, hmore, rfl⟩ := named_cons_eq_ok_iff.mp h
      exact congrArg (field.1 :: ·) (ih hmore)

theorem forall_of_named (h : ∀ {value a}, value.Sound → read value = .ok a → Valid a)
    {fields : Assoc Json} (hsound : ∀ field ∈ fields, field.2.Sound) :
    ∀ {entries : Assoc α}, named read fields = .ok entries → ∀ entry ∈ entries, Valid entry.2 := by
  induction fields with
  | nil =>
      intro entries hread
      cases hread
      exact List.forall_mem_nil _
  | cons field rest ih =>
      intro entries hread
      obtain ⟨hfield, hrest⟩ := List.forall_mem_cons.mp hsound
      obtain ⟨a, more, ha, hmore, rfl⟩ := named_cons_eq_ok_iff.mp hread
      exact List.forall_mem_cons.mpr ⟨h hfield ha, ih hrest hmore⟩

theorem named_map (h : ∀ {a}, Valid a → read (write a) = .ok a) {entries : Assoc α}
    (hvalid : ∀ entry ∈ entries, Valid entry.2) :
    named read (entries.map fun (name, a) => (name, write a)) = .ok entries := by
  induction entries with
  | nil => rfl
  | cons entry rest ih =>
      obtain ⟨hentry, hrest⟩ := List.forall_mem_cons.mp hvalid
      exact named_cons_eq_ok_iff.mpr ⟨entry.2, rest, h hentry, ih hrest, rfl⟩

/-- What is valid of an object of values that are all alike: each name once, each value valid. -/
structure Entries (Valid : α → Prop) (entries : Assoc α) : Prop where
  once : entries.keys.Nodup
  valid : ∀ entry ∈ entries, Valid entry.2

theorem entries_nil : Entries Valid [] := ⟨List.nodup_nil, List.forall_mem_nil _⟩

theorem keys_map_write (entries : Assoc α) :
    Assoc.keys (entries.map fun (name, a) => (name, write a)) = entries.keys := by
  rw [Assoc.keys, List.map_map]
  rfl

theorem Faithful.object (h : Faithful levels read write Valid) :
    Faithful (levels + 1) (object read)
      (fun entries => .obj (entries.map fun (name, a) => (name, write a))) (Entries Valid) where
  valid {value entries} hsound hread := by
    cases hsound with
    | obj hkeys hall =>
        exact ⟨keys_of_named hread ▸ hkeys, forall_of_named h.valid hall hread⟩
    | _ => cases hread
  back {entries} hentries := named_map h.back hentries.valid
  exact {entries} hentries depth :=
    .obj ((keys_map_write entries).symm ▸ hentries.once)
      (List.forall_mem_map.mpr fun entry hentry => h.exact (hentries.valid entry hentry) depth)

theorem faithful_scope : Faithful 1 scope Json.strFields (Entries fun _ => True) :=
  scope_eq_object ▸ faithful_text.object

theorem faithful_texts : Faithful 1 (list text) Json.strs fun texts => ∀ _ ∈ texts, True :=
  faithful_text.list

theorem faithful_lists : Faithful 2 lists
    (fun entries => .obj (entries.map fun (name, texts) => (name, Json.strs texts)))
    (Entries fun texts => ∀ _ ∈ texts, True) :=
  lists_eq_object ▸ faithful_texts.object

/-! ## Texts -/

/-- What a text gives, none if it is refused. -/
def ofText? (dialect : Json.Dialect) (read : Json → Checked α) (text : List Char) : Option α :=
  match Json.read dialect text with
  | .ok value => (read value).toOption
  | .error _ => none

variable {dialect : Json.Dialect} {layout : Json.Layout} {text : List Char} {a : α}

theorem ofText?_eq_some_iff : ofText? dialect read text = some a ↔
    ∃ value, Json.read dialect text = .ok value ∧ read value = .ok a := by
  rw [ofText?]
  cases Json.read dialect text with
  | error fault => exact ⟨fun h => (nomatch h), fun ⟨_, h, _⟩ => (nomatch h)⟩
  | ok value =>
      constructor
      · intro h
        refine ⟨value, rfl, ?_⟩
        cases hread : read value with
        | error faults => simp [hread, Except.toOption] at h
        | ok found =>
            simp only [hread, Except.toOption, Option.some.injEq] at h
            exact congrArg Except.ok h
      · rintro ⟨_, h, hread⟩
        cases h
        simp [hread, Except.toOption]

theorem Faithful.valid_of_text (h : Faithful levels read write Valid)
    (htext : ofText? dialect read text = some a) : Valid a := by
  obtain ⟨value, hvalue, hread⟩ := ofText?_eq_some_iff.mp htext
  exact h.valid (Json.sound_of_read hvalue) hread

/-- The text of what is written of a valid value gives it back, in any layout. -/
theorem Faithful.ofText?_text (h : Faithful levels read write Valid)
    (hdepth : levels ≤ dialect.maxDepth) (hlayout : layout.Blank) (ha : Valid a) :
    ofText? dialect read (layout.text (write a)).toList = some a := by
  -- what was written takes `levels` of the levels that the dialect allows
  have hexact := h.exact ha (dialect.maxDepth - levels)
  rw [Nat.sub_add_cancel hdepth] at hexact
  have hread := Json.read_text hlayout hexact (List.forall_mem_nil _)
  rw [List.append_nil] at hread
  exact ofText?_eq_some_iff.mpr ⟨_, hread, h.back ha⟩

end Runbook.Checked

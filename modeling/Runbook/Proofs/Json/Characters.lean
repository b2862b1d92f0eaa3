import Runbook.Proofs.Json.RoundTrip
import Runbook.Proofs.Text.AnyBytes

/-!
# The characters of what is written

Quotes, escapes, and what keeps a text together are printable characters among the first 128, but for
the line ends of a layout. So a property that all these have holds of every character of a text exactly
if it holds of those that the strings are written with: `forall_mem_arr_iff` and `forall_mem_obj_iff`
take a value apart. A string escapes its controls, so a text has no others than its layout
(`forall_mem_print_of_exact`): none if it is on one line (`printable_printCompact`), and no carriage
return with an indentation (`return_notMem_printIndented`). A string keeps its unpaired halves
(`forall_half_printString_iff`).
-/

set_option autoImplicit false

namespace Runbook.Json

/-- Whether a character is no control. -/
def Printable (c : Char) : Prop := 0x20 ≤ c.toNat

instance (c : Char) : Decidable (Printable c) := inferInstanceAs (Decidable (0x20 ≤ c.toNat))

/-! ## Lists and objects -/

namespace Layout

section Parts

variable {Q : Char → Prop} {layout : Layout} {level : Nat}
  (hplain : ∀ c, Text.IsAscii c → Printable c → Q c)
  (hgap : ∀ level, (∀ c ∈ layout.gap level, Q c) ∧ ∀ c ∈ layout.space level, Q c)

include hplain

theorem forall_mem_field_iff {field : String × Json} :
    (∀ c ∈ layout.printField level field, Q c) ↔
      (∀ c ∈ printString field.1, Q c) ∧ ∀ c ∈ layout.print level field.2, Q c := by
  have hcolon : Q ':' := hplain _ (by decide) (by decide)
  have hspace : Q ' ' := hplain _ (by decide) (by decide)
  rw [printField, List.forall_mem_append, List.forall_mem_cons, List.forall_mem_cons]
  simp only [hcolon, hspace, true_and]

include hgap

theorem forall_mem_items_iff {items : List Json} :
    (∀ c ∈ layout.printItems level items, Q c) ↔
      ∀ item ∈ items, ∀ c ∈ layout.print level item, Q c := by
  induction items with
  | nil => simp [printItems]
  | cons item items ih =>
      have hcomma : Q ',' := hplain _ (by decide) (by decide)
      rw [printItems, List.forall_mem_append, ih, List.cons_append, List.forall_mem_cons,
        List.forall_mem_append, List.forall_mem_cons]
      simp only [hcomma, iff_true_intro (hgap level).2, true_and]

theorem forall_mem_fields_iff {fields : Assoc Json} :
    (∀ c ∈ layout.printFields level fields, Q c) ↔
      ∀ field ∈ fields, ∀ c ∈ layout.printField level field, Q c := by
  induction fields with
  | nil => simp [printFields]
  | cons field fields ih =>
      have hcomma : Q ',' := hplain _ (by decide) (by decide)
      rw [printFields, List.forall_mem_append, ih, List.cons_append, List.forall_mem_cons,
        List.forall_mem_append, List.forall_mem_cons]
      simp only [hcomma, iff_true_intro (hgap level).2, true_and]

/-- The characters of a list are those of its items. -/
theorem forall_mem_arr_iff {items : List Json} :
    (∀ c ∈ layout.print level (.arr items), Q c) ↔
      ∀ item ∈ items, ∀ c ∈ layout.print (level + 1) item, Q c := by
  have hopen : Q '[' := hplain _ (by decide) (by decide)
  have hclose : Q ']' := hplain _ (by decide) (by decide)
  cases items with
  | nil => simp [print, hopen, hclose]
  | cons item items =>
      rw [print, List.forall_mem_cons (l := items)]
      simp only [List.cons_append, List.forall_mem_cons, List.forall_mem_append,
        forall_mem_items_iff hplain hgap, iff_true_intro (hgap _).1, hopen, hclose, true_and, and_true,
        List.not_mem_nil, false_imp_iff, implies_true]

/-- The characters of an object are those of its names and values. -/
theorem forall_mem_obj_iff {fields : Assoc Json} :
    (∀ c ∈ layout.print level (.obj fields), Q c) ↔
      ∀ field ∈ fields, (∀ c ∈ printString field.1, Q c) ∧
        ∀ c ∈ layout.print (level + 1) field.2, Q c := by
  have hopen : Q '\x7b' := hplain _ (by decide) (by decide)
  have hclose : Q '\x7d' := hplain _ (by decide) (by decide)
  cases fields with
  | nil => simp [print, hopen, hclose]
  | cons field fields =>
      rw [print, List.forall_mem_cons (l := fields)]
      simp only [List.cons_append, List.forall_mem_cons, List.forall_mem_append,
        forall_mem_fields_iff hplain hgap, forall_mem_field_iff hplain, iff_true_intro (hgap _).1,
        hopen, hclose, true_and, and_true, implies_true, List.not_mem_nil, false_imp_iff]

end Parts

/-- What a layout puts between its items is a line end and its indentation. -/
theorem forall_mem_spaced {Q : Char → Prop} (hline : Q '\n') (hspace : Q ' ') (width level : Nat) :
    (∀ c ∈ (spaced width).gap level, Q c) ∧ ∀ c ∈ (spaced width).space level, Q c := by
  have hgap : ∀ c ∈ (spaced width).gap level, Q c := by
    rw [spaced, gap, List.forall_mem_cons]
    refine ⟨hline, fun c hc => ?_⟩
    obtain ⟨part, hpart, hc⟩ := List.mem_flatten.1 hc
    rw [List.eq_of_mem_replicate hpart] at hc
    rw [List.eq_of_mem_replicate hc]
    exact hspace
  exact ⟨hgap, hgap⟩

end Layout

section Indented

variable {Q : Char → Prop} (hplain : ∀ c, Text.IsAscii c → c ≠ '\x0d' → Q c) {level : Nat}

include hplain

/-- Neither printable characters nor what the layout puts between them are carriage returns. -/
theorem forall_indented : (∀ c, Text.IsAscii c → Printable c → Q c) ∧
    ∀ level, (∀ c ∈ (Layout.spaced 2).gap level, Q c) ∧
      ∀ c ∈ (Layout.spaced 2).space level, Q c := by
  constructor
  · intro c hc hprintable
    refine hplain c hc ?_
    rintro rfl
    exact absurd hprintable (by decide)
  · exact Layout.forall_mem_spaced (hplain '\n' (by decide) (by decide))
      (hplain ' ' (by decide) (by decide)) 2

theorem forall_mem_arr_iff {items : List Json} :
    (∀ c ∈ printIndented level (.arr items), Q c) ↔
      ∀ item ∈ items, ∀ c ∈ printIndented (level + 1) item, Q c := by
  obtain ⟨hprinted, hgap⟩ := forall_indented hplain
  simp only [← Layout.print_spaced]
  exact Layout.forall_mem_arr_iff hprinted hgap

theorem forall_mem_obj_iff {fields : Assoc Json} :
    (∀ c ∈ printIndented level (.obj fields), Q c) ↔
      ∀ field ∈ fields, (∀ c ∈ printString field.1, Q c) ∧
        ∀ c ∈ printIndented (level + 1) field.2, Q c := by
  obtain ⟨hprinted, hgap⟩ := forall_indented hplain
  simp only [← Layout.print_spaced]
  exact Layout.forall_mem_obj_iff hprinted hgap

end Indented

/-! ## Controls -/

theorem printable_of_all {cs : List Char} (h : (cs.all fun c => decide (Printable c)) = true) :
    ∀ c ∈ cs, Printable c := fun c hc => of_decide_eq_true (List.all_eq_true.1 h c hc)

theorem printable_escapeString (c : Char) : ∀ d ∈ escapeString c, Printable d := by
  by_cases hcontrol : c.toNat < 0x20
  · have hall : ∀ n < 0x20,
        ((escapeString (Char.ofNat n)).all fun d => decide (Printable d)) = true := by decide
    simpa only [Char.ofNat_toNat] using printable_of_all (hall c.toNat hcontrol)
  · have hc : Printable c := Nat.not_lt.1 hcontrol
    unfold escapeString
    simp only [hcontrol, if_false]
    repeat' split
    all_goals simp only [List.forall_mem_cons, List.not_mem_nil, false_imp_iff, implies_true, and_true]
    all_goals first
      | exact hc
      | exact ⟨by decide, by decide⟩

theorem printable_printString (s : String) : ∀ c ∈ printString s, Printable c := by
  rw [printString, List.forall_mem_append, List.forall_mem_cons, List.forall_mem_flatMap]
  exact ⟨⟨by decide, fun c _ => printable_escapeString c⟩,
    List.forall_mem_singleton.2 (by decide)⟩

theorem printable_of_isAsciiDigit {c : Char} (h : isAsciiDigit c = true) : Printable c := by
  rw [isAsciiDigit, Bool.and_eq_true, decide_eq_true_eq] at h
  have hzero : '0'.toNat ≤ c.toNat := h.1
  exact le_trans (by decide) hzero

theorem printable_toDigits (n : Nat) : ∀ c ∈ Nat.toDigits 10 n, Printable c :=
  fun _ hc => printable_of_isAsciiDigit (isAsciiDigit_of_mem hc)

theorem printable_printInt (n : Int) : ∀ c ∈ printInt n, Printable c := by
  unfold printInt
  split
  · exact List.forall_mem_cons.2 ⟨by decide, printable_toDigits _⟩
  · exact printable_toDigits _

theorem printable_fractionText {fraction : Option (List Char)}
    (h : ∀ ds, fraction = some ds → ds ≠ [] ∧ ∀ c ∈ ds, isAsciiDigit c = true) :
    ∀ c ∈ fractionText fraction, Printable c := by
  cases fraction with
  | none => exact List.forall_mem_nil _
  | some ds =>
      have hdigits := (h ds rfl).2
      exact List.forall_mem_cons.2 ⟨by decide, fun c hc => printable_of_isAsciiDigit (hdigits c hc)⟩

theorem printable_exponentText (exponent : Option Int) :
    ∀ c ∈ exponentText exponent, Printable c := by
  cases exponent with
  | none => exact List.forall_mem_nil _
  | some e =>
      have hdigits := (exponentDigits_spec e).2.1
      have hsign : Printable (if e < 0 then '-' else '+') := by split <;> decide
      exact List.forall_mem_cons.2 ⟨by decide, List.forall_mem_cons.2
        ⟨hsign, fun c hc => printable_of_isAsciiDigit (hdigits c hc)⟩⟩

theorem printable_printReal {x : Binary} (hx : x.Proper) : ∀ c ∈ printReal x, Printable c := by
  obtain ⟨n, hlegible, htext, -⟩ := exists_parts_of_proper hx
  have hsign : ∀ c ∈ (if n.negative then ['-'] else []), Printable c := by
    split
    · exact List.forall_mem_singleton.2 (by decide)
    · exact List.forall_mem_nil _
  have hwhole : ∀ c ∈ n.whole, Printable c := by
    rcases hlegible.whole with hzero | ⟨d, ds, hcons, -, hdigits⟩
    · rw [hzero]
      exact List.forall_mem_singleton.2 (by decide)
    · rw [hcons]
      exact fun c hc => printable_of_isAsciiDigit (hdigits c hc)
  rw [← htext, NumberParts.text, NumberParts.unsigned]
  simp only [List.forall_mem_append]
  exact ⟨hsign, hwhole, printable_fractionText hlegible.fraction,
    printable_exponentText n.exponent⟩

/-- All controls in a text are those of its layout. -/
theorem forall_mem_print_of_exact {Q : Char → Prop} {layout : Layout}
    (hprintable : ∀ c, Printable c → Q c)
    (hgap : ∀ level, (∀ c ∈ layout.gap level, Q c) ∧ ∀ c ∈ layout.space level, Q c) {depth : Nat}
    {value : Json} (h : Exact depth value) (level : Nat) :
    ∀ c ∈ layout.print level value, Q c := by
  have hplain : ∀ c, Text.IsAscii c → Printable c → Q c := fun c _ hc => hprintable c hc
  induction h generalizing level with
  | null =>
      have hnull : ∀ c ∈ "null".toList, Printable c := printable_of_all (by decide)
      exact fun c hc => hprintable c (hnull c hc)
  | bool b =>
      have hfalse : ∀ c ∈ "false".toList, Printable c := printable_of_all (by decide)
      have htrue : ∀ c ∈ "true".toList, Printable c := printable_of_all (by decide)
      cases b with
      | false => exact fun c hc => hprintable c (hfalse c hc)
      | true => exact fun c hc => hprintable c (htrue c hc)
  | @int depth n _ => exact fun c hc => hprintable c (printable_printInt n c hc)
  | real hx => exact fun c hc => hprintable c (printable_printReal hx c hc)
  | str s => exact fun c hc => hprintable c (printable_printString s c hc)
  | arr _ ih =>
      exact (Layout.forall_mem_arr_iff hplain hgap).2 fun item hitem => ih item hitem (level + 1)
  | obj _ _ ih =>
      refine (Layout.forall_mem_obj_iff hplain hgap).2 fun field hfield => ⟨?_, ih field hfield (level + 1)⟩
      exact fun c hc => hprintable c (printable_printString field.1 c hc)

/-- A text with an indentation has no carriage return, as strings escape it. -/
theorem return_notMem_printIndented {depth : Nat} {value : Json} (h : Exact depth value)
    (level : Nat) : '\x0d' ∉ printIndented level value := by
  rw [← List.forall_mem_ne, ← Layout.print_spaced]
  refine forall_mem_print_of_exact ?_ ?_ h level
  · rintro c hc rfl
    exact absurd hc (by decide)
  · exact Layout.forall_mem_spaced (by decide) (by decide) 2

/-- A text on one line has no controls, neither line ends nor others. -/
theorem printable_printCompact {depth : Nat} {value : Json} (h : Exact depth value) :
    ∀ c ∈ printCompact value, Printable c := by
  rw [← Layout.print_line 0]
  refine forall_mem_print_of_exact (fun c hc => hc) (fun level => ⟨List.forall_mem_nil _, ?_⟩) h 0
  exact List.forall_mem_singleton.2 (by decide)

/-! ## Unpaired halves -/

/-- A character inside a string is written as itself, or it and what is written for it are among the
first 128. -/
theorem escapeString_cases (c : Char) : escapeString c = [c] ∨
    Text.IsAscii c ∧ ∀ d ∈ escapeString c, Text.IsAscii d := by
  by_cases hlow : c.toNat < 0x80
  · have hall : ∀ n < 0x80, (escapeString (Char.ofNat n)).all fun d => Text.IsAscii d := by
      decide
    refine .inr ⟨hlow, ?_⟩
    simpa using hall c.toNat hlow
  · left
    have hne : ∀ d : Char, Text.IsAscii d → (c == d) = false := by
      intro d hd
      rw [beq_eq_false_iff_ne]
      rintro rfl
      exact hlow hd
    have hhigh : ¬c.toNat < 0x20 := by omega
    rw [escapeString, hne '"' (by decide), hne '\\' (by decide), hne '\n' (by decide),
      hne '\r' (by decide), hne '\t' (by decide), hne '\x0c' (by decide), hne '\x08' (by decide)]
    simp only [Bool.false_eq_true, if_false, if_neg hhigh]

/-- A string is written with the unpaired halves that it has, and with no others. -/
theorem forall_half_printString_iff {s : String} :
    (∀ c ∈ printString s, Text.halfCode? c = none) ↔
      ∀ c ∈ s.toList, Text.halfCode? c = none := by
  have hescape : ∀ c, (∀ d ∈ escapeString c, Text.halfCode? d = none) ↔
      Text.halfCode? c = none := by
    intro c
    rcases escapeString_cases c with hself | ⟨hascii, hall⟩
    · rw [hself, List.forall_mem_singleton]
    · rw [iff_true_right (Text.halfCode?_of_isAscii hascii)]
      exact fun d hd => Text.halfCode?_of_isAscii (hall d hd)
  have hquote : Text.halfCode? '"' = none := by decide
  rw [printString, List.forall_mem_append, List.forall_mem_cons, List.forall_mem_flatMap]
  simp only [hescape, hquote, true_and, List.forall_mem_singleton, and_true]

end Runbook.Json

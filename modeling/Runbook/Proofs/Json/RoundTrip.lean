import Runbook.Json.Layout
import Runbook.Proofs.Assoc
import Runbook.Proofs.Json.Reals

/-!
# Reading back what was written

A value is `Exact` if its text gives it back: its real numbers are finite, it holds no integers of more
digits than are read, each object has each key once, and its nesting is within a bound. Reading the
text of such a value gives the value again and stops behind it (`readBack_of_exact`), by induction
on the value, whichever reader is used, in whatever layout the text was written and whatever stands
behind; `read_text` says so of a whole text with blanks behind it.
-/

set_option autoImplicit false

namespace Runbook.Json

variable {dialect : Dialect} {layout : Layout} {rest : List Char}

/-! ## Values -/

/-- A value whose text gives it back, nested within a bound. -/
inductive Exact : Nat → Json → Prop where
  | null {depth : Nat} : Exact depth .null
  | bool {depth : Nat} (b : Bool) : Exact depth (.bool b)
  | int {depth : Nat} {n : Int} : n.natAbs < 10 ^ 4300 → Exact depth (.int n)
  | real {depth : Nat} {x : Binary} : x.Proper → Exact depth (.real x)
  | str {depth : Nat} (s : String) : Exact depth (.str s)
  | arr {depth : Nat} {items : List Json} :
      (∀ item ∈ items, Exact depth item) → Exact (depth + 1) (.arr items)
  | obj {depth : Nat} {fields : Assoc Json} : fields.keys.Nodup →
      (∀ field ∈ fields, Exact depth field.2) → Exact (depth + 1) (.obj fields)

/-- Whether a character may be the first one of a value's text. -/
structure Opens (c : Char) : Prop where
  notSpace : isSpace c = false
  notBracket : c ≠ ']'
  notMark : c ≠ '\uFEFF'

theorem opens_of_isAsciiDigit {c : Char} (h : isAsciiDigit c = true) : Opens c where
  notSpace := by
    rw [Bool.eq_false_iff]
    intro hspace
    simp only [isSpace, Bool.or_eq_true, beq_iff_eq] at hspace
    rcases hspace with ((rfl | rfl) | rfl) | rfl <;> cases h
  notBracket := by
    rintro rfl
    cases h
  notMark := by
    rintro rfl
    cases h

theorem BeginsNumber.exists_opens {text : List Char} (h : BeginsNumber text) :
    ∃ c cs, text = c :: cs ∧ Opens c := by
  obtain ⟨c, cs, htext, rfl | hdigit⟩ := h.exists_cons
  · exact ⟨_, _, htext, by constructor <;> decide⟩
  · exact ⟨_, _, htext, opens_of_isAsciiDigit hdigit⟩

/-! ## Blanks -/

/-- Whether a layout indents by blanks. -/
def Layout.Blank : Layout → Prop
  | line => True
  | lines indent => ∀ c ∈ indent, isSpace c = true

theorem Layout.blank_spaced (width : Nat) : (Layout.spaced width).Blank := by
  intro c hc
  rw [List.eq_of_mem_replicate hc]
  rfl

theorem Layout.Blank.gap {layout : Layout} (h : layout.Blank) (level : Nat) :
    ∀ c ∈ layout.gap level, isSpace c = true := by
  intro c hc
  cases layout with
  | line => cases hc
  | lines indent =>
      rcases List.mem_cons.mp hc with rfl | hc
      · rfl
      · obtain ⟨part, hpart, hc⟩ := List.mem_flatten.mp hc
        rw [List.eq_of_mem_replicate hpart] at hc
        exact h c hc

theorem Layout.Blank.space {layout : Layout} (h : layout.Blank) (level : Nat) :
    ∀ c ∈ layout.space level, isSpace c = true := by
  cases layout with
  | line =>
      intro c hc
      rw [List.mem_singleton.mp hc]
      rfl
  | lines indent => exact h.gap level

theorem skipSpaceFrom_append {blanks : List Char} (h : ∀ c ∈ blanks, isSpace c = true)
    (place : Nat) :
    skipSpaceFrom place (blanks ++ rest) = skipSpaceFrom (place + blanks.length) rest := by
  induction blanks generalizing place with
  | nil => rfl
  | cons c blanks ih =>
      obtain ⟨hc, hblanks⟩ := List.forall_mem_cons.mp h
      rw [List.cons_append, skipSpaceFrom, if_pos hc, ih hblanks, List.length_cons,
        Nat.add_right_comm, Nat.add_assoc]

theorem skipSpaceFrom_cons {c : Char} (h : isSpace c = false) (place : Nat) :
    skipSpaceFrom place (c :: rest) = ⟨place, c :: rest⟩ := by
  rw [skipSpaceFrom, if_neg (by simp [h])]

theorem stops_cons {c : Char} (h : isAsciiDigit c = false ∧ c ≠ '.' ∧ c ≠ 'e' ∧ c ≠ 'E')
    (rest : List Char) : Stops (c :: rest) := by
  rintro c ⟨⟩
  exact h

/-- Blanks stop a number, and with nothing between what stands behind them does. -/
theorem stops_append {blanks : List Char} (h : ∀ c ∈ blanks, isSpace c = true)
    (hrest : Stops rest) : Stops (blanks ++ rest) := by
  cases blanks with
  | nil => exact hrest
  | cons c blanks =>
      refine stops_cons ?_ (blanks ++ rest)
      have hc := h c List.mem_cons_self
      simp only [isSpace, Bool.or_eq_true, beq_iff_eq] at hc
      rcases hc with ((rfl | rfl) | rfl) | rfl <;> decide

/-! ## Values in a layout -/

theorem print_eq_cons {depth : Nat} {value : Json} (h : Exact depth value) (layout : Layout)
    (level : Nat) :
    ∃ c cs, layout.print level value = c :: cs ∧ Opens c := by
  cases h with
  | null => exact ⟨_, _, rfl, by constructor <;> decide⟩
  | bool b => cases b <;> exact ⟨_, _, rfl, by constructor <;> decide⟩
  | @int _ n _ => exact (beginsNumber_printInt n).exists_opens
  | real hx => exact (beginsNumber_printReal hx).exists_opens
  | str s => exact ⟨_, _, rfl, by constructor <;> decide⟩
  | @arr _ items _ => cases items <;> exact ⟨_, _, rfl, by constructor <;> decide⟩
  | @obj _ fields _ _ => cases fields <;> exact ⟨_, _, rfl, by constructor <;> decide⟩

/-- Whether the text of a value, with something behind it that stops a number, is read as the
value. -/
def ReadBack (layout : Layout) (dialect : Dialect) (depth : Nat) (value : Json) : Prop :=
  ∀ (fuel level place : Nat) (rest : List Char),
    (layout.print level value).length ≤ fuel → Stops rest →
    ∃ place', readValue dialect fuel depth ⟨place, layout.print level value ++ rest⟩ =
      .ok (value, ⟨place', rest⟩)

theorem readItems_printed (hlayout : layout.Blank) (rest : List Char) {depth : Nat} (item : Json)
    {items : List Json}
    (hexact : ∀ other ∈ item :: items, Exact depth other)
    (hback : ∀ other ∈ item :: items, ReadBack layout dialect depth other)
    (fuel level outer : Nat) (read : List Json) (place : Nat)
    (hfuel : (layout.print level item).length + (layout.printItems level items).length < fuel) :
    ∃ place', readItems dialect fuel depth read ⟨place, layout.print level item ++
        (layout.printItems level items ++ (layout.gap outer ++ ']' :: rest))⟩ =
      .ok (.arr (read.reverse ++ item :: items), ⟨place', rest⟩) := by
  -- by induction on the further items, each of which a comma announces
  induction items generalizing item fuel read place with
  | nil =>
      obtain ⟨fuel, rfl⟩ : ∃ less, fuel = less + 1 := ⟨fuel - 1, by omega⟩
      obtain ⟨behind, hitem⟩ := hback item List.mem_cons_self fuel level place _ (by omega)
        (stops_append (hlayout.gap outer) (stops_cons (c := ']') (by decide) rest))
      rw [readItems, Layout.printItems, List.nil_append, hitem]
      simp only [Cursor.skipSpace, skipSpaceFrom_append (hlayout.gap _),
        skipSpaceFrom_cons (c := ']') rfl, List.reverse_cons]
      exact ⟨_, rfl⟩
  | cons next items ih =>
      obtain ⟨fuel, rfl⟩ : ∃ less, fuel = less + 1 := ⟨fuel - 1, by omega⟩
      rw [Layout.printItems] at hfuel
      simp only [List.length_cons, List.length_append, List.cons_append] at hfuel
      obtain ⟨behind, hitem⟩ := hback item List.mem_cons_self fuel level place _ (by omega)
        (stops_cons (c := ',') (by decide) (layout.space level ++ (layout.print level next ++
          (layout.printItems level items ++ (layout.gap outer ++ ']' :: rest)))))
      obtain ⟨c, cs, hnext, hopens⟩ :=
        print_eq_cons (hexact next (List.mem_cons_of_mem _ List.mem_cons_self)) layout level
      obtain ⟨place', hrest⟩ := ih next
        (fun other hother => hexact other (List.mem_cons_of_mem _ hother))
        (fun other hother => hback other (List.mem_cons_of_mem _ hother))
        fuel (item :: read) (behind + 1 + (layout.space level).length) (by omega)
      refine ⟨place', ?_⟩
      rw [readItems, Layout.printItems]
      simp only [List.cons_append, List.append_assoc]
      rw [hitem]
      simp only [Cursor.skipSpace, skipSpaceFrom_cons (c := ',') rfl, Cursor.skip, List.drop_one,
        List.tail_cons, skipSpaceFrom_append (hlayout.space level)]
      rw [hnext, List.cons_append, skipSpaceFrom_cons hopens.notSpace, ← List.cons_append, ← hnext,
        hrest, List.reverse_cons, List.append_assoc, List.singleton_append]

/-- A field is read up to where its value ends. -/
theorem readFields_field {depth : Nat} (key : String) {value : Json} (hexact : Exact depth value)
    (hback : ReadBack layout dialect depth value) {fuel level : Nat} (read : Assoc Json)
    (place : Nat) (hfuel : (layout.printField level (key, value)).length ≤ fuel)
    (hrest : Stops rest) :
    ∃ place', readFields dialect (fuel + 1) depth read
        ⟨place, layout.printField level (key, value) ++ rest⟩ =
      match (skipSpaceFrom place' rest).rest with
      | '\x7d' :: _ => .ok (.obj (read.put key value), (skipSpaceFrom place' rest).skip 1)
      | ',' :: _ => readFields dialect fuel depth (read.put key value)
          ((skipSpaceFrom place' rest).skip 1).skipSpace
      | _ => .error ⟨.expectingComma, (skipSpaceFrom place' rest).place⟩ := by
  obtain ⟨colon, hkey⟩ := readString_printed dialect key.toList place (place + 1) []
    (':' :: ' ' :: (layout.print level value ++ rest))
  simp only [Layout.printField, List.length_append, List.length_cons] at hfuel
  obtain ⟨place', hvalue⟩ := hback fuel level (colon + 1 + 1) rest (by omega) hrest
  obtain ⟨c, cs, hprinted, hopens⟩ := print_eq_cons hexact layout level
  refine ⟨place', ?_⟩
  rw [readFields, Layout.printField, printString]
  simp only [List.append_assoc, List.cons_append, List.nil_append, hkey, Cursor.skipSpace,
    skipSpaceFrom_cons (c := ':') rfl, Cursor.skip, List.drop_one, List.tail_cons]
  rw [skipSpaceFrom, if_pos (by decide), hprinted, List.cons_append,
    skipSpaceFrom_cons hopens.notSpace, ← List.cons_append, ← hprinted, hvalue]
  have hname : String.ofList (([] : List Char).reverse ++ key.toList) = key := by
    rw [List.reverse_nil, List.nil_append, String.ofList_toList]
  generalize String.ofList (([] : List Char).reverse ++ key.toList) = name at hname ⊢
  subst hname
  rfl

theorem printField_eq_cons (layout : Layout) (level : Nat) (field : String × Json) :
    ∃ cs, layout.printField level field = '"' :: cs :=
  ⟨_, by rw [Layout.printField, printString]; rfl⟩

theorem readFields_printed (hlayout : layout.Blank) (rest : List Char) {depth : Nat}
    (field : String × Json) {fields : Assoc Json}
    (hexact : ∀ other ∈ field :: fields, Exact depth other.2)
    (hback : ∀ other ∈ field :: fields, ReadBack layout dialect depth other.2)
    (fuel level outer : Nat) (read : Assoc Json)
    (hkeys : (Assoc.keys (read ++ field :: fields)).Nodup) (place : Nat)
    (hfuel : (layout.printField level field).length + (layout.printFields level fields).length <
      fuel) :
    ∃ place', readFields dialect fuel depth read ⟨place, layout.printField level field ++
        (layout.printFields level fields ++ (layout.gap outer ++ '\x7d' :: rest))⟩ =
      .ok (.obj (read ++ field :: fields), ⟨place', rest⟩) := by
  -- by induction on the further fields; a key that is not there yet goes to the end
  induction fields generalizing field fuel read place with
  | nil =>
      obtain ⟨fuel, rfl⟩ : ∃ less, fuel = less + 1 := ⟨fuel - 1, by omega⟩
      have hshort : (layout.printField level (field.1, field.2)).length ≤ fuel := by
        show (layout.printField level field).length ≤ fuel
        omega
      obtain ⟨behind, hfield⟩ := readFields_field field.1 (hexact field List.mem_cons_self)
        (hback field List.mem_cons_self) read place hshort
        (stops_append (hlayout.gap outer) (stops_cons (c := '\x7d') (by decide) rest))
      rw [Layout.printFields, List.nil_append, hfield,
        Assoc.put_of_notMem (Assoc.notMem_of_nodup_append hkeys)]
      simp only [skipSpaceFrom_append (hlayout.gap _), skipSpaceFrom_cons (c := '\x7d') rfl]
      exact ⟨_, rfl⟩
  | cons next fields ih =>
      obtain ⟨fuel, rfl⟩ : ∃ less, fuel = less + 1 := ⟨fuel - 1, by omega⟩
      rw [Layout.printFields] at hfuel
      simp only [List.length_cons, List.length_append, List.cons_append] at hfuel
      have hmem : ∀ other ∈ next :: fields, other ∈ field :: next :: fields :=
        fun other hother => List.mem_cons_of_mem _ hother
      have hshort : (layout.printField level (field.1, field.2)).length ≤ fuel := by
        show (layout.printField level field).length ≤ fuel
        omega
      obtain ⟨behind, hfield⟩ := readFields_field field.1 (hexact field List.mem_cons_self)
        (hback field List.mem_cons_self) read place hshort
        (stops_cons (c := ',') (by decide) (layout.space level ++ (layout.printField level next ++
          (layout.printFields level fields ++ (layout.gap outer ++ '\x7d' :: rest)))))
      have hkeys' : (Assoc.keys ((read ++ [field]) ++ next :: fields)).Nodup := by
        rwa [List.append_assoc, List.singleton_append]
      obtain ⟨place', hrest⟩ := ih next (fun other hother => hexact other (hmem other hother))
        (fun other hother => hback other (hmem other hother)) fuel (read ++ [field]) hkeys'
        (behind + 1 + (layout.space level).length) (by omega)
      obtain ⟨cs, hquote⟩ := printField_eq_cons layout level next
      refine ⟨place', ?_⟩
      rw [Layout.printFields]
      simp only [List.cons_append, List.append_assoc]
      rw [hfield, Assoc.put_of_notMem (Assoc.notMem_of_nodup_append hkeys)]
      simp only [Cursor.skipSpace, skipSpaceFrom_cons (c := ',') rfl, Cursor.skip, List.drop_one,
        List.tail_cons, skipSpaceFrom_append (hlayout.space level)]
      rw [hquote, List.cons_append, skipSpaceFrom_cons (c := '"') rfl, ← List.cons_append, ← hquote,
        hrest, List.append_assoc, List.singleton_append]

theorem readValue_number {text : List Char} (h : BeginsNumber text) (fuel depth place : Nat) :
    readValue dialect (fuel + 1) depth ⟨place, text⟩ = readScalar ⟨place, text⟩ := by
  obtain ⟨c, cs, rfl, hc⟩ := h.exists_cons
  have hmark : ∀ mark, mark ≠ '-' → isAsciiDigit mark = false → c ≠ mark := by
    rintro mark hminus hdigit rfl
    rcases hc with rfl | hc
    · exact hminus rfl
    · simp [hdigit] at hc
  simp [readValue, hmark '"' (by decide) rfl, hmark '[' (by decide) rfl,
    hmark '\x7b' (by decide) rfl]

theorem readValue_bracket {c : Char} {cs : List Char} {place place' : Nat}
    (hinside : skipSpaceFrom (place + 1) rest = ⟨place', c :: cs⟩) (hc : c ≠ ']')
    (fuel depth : Nat) :
    readValue dialect (fuel + 1) (depth + 1) ⟨place, '[' :: rest⟩ =
      readItems dialect fuel depth [] ⟨place', c :: cs⟩ := by
  simp [readValue, Cursor.skip, Cursor.skipSpace, hinside, hc]

theorem readValue_brace {c : Char} {cs : List Char} {place place' : Nat}
    (hinside : skipSpaceFrom (place + 1) rest = ⟨place', c :: cs⟩) (hc : c ≠ '\x7d')
    (fuel depth : Nat) :
    readValue dialect (fuel + 1) (depth + 1) ⟨place, '\x7b' :: rest⟩ =
      readFields dialect fuel depth [] ⟨place', c :: cs⟩ := by
  simp [readValue, Cursor.skip, Cursor.skipSpace, hinside, hc]

theorem print_array (layout : Layout) (level : Nat) (item : Json) (items : List Json) :
    layout.print level (.arr (item :: items)) ++ rest =
      '[' :: (layout.gap (level + 1) ++ (layout.print (level + 1) item ++
        (layout.printItems (level + 1) items ++ (layout.gap level ++ ']' :: rest)))) := by
  simp [Layout.print]

theorem print_object (layout : Layout) (level : Nat) (field : String × Json) (fields : Assoc Json) :
    layout.print level (.obj (field :: fields)) ++ rest =
      '\x7b' :: (layout.gap (level + 1) ++ (layout.printField (level + 1) field ++
        (layout.printFields (level + 1) fields ++ (layout.gap level ++ '\x7d' :: rest)))) := by
  simp [Layout.print]

/-- Some fuel is there, as no text is empty. -/
theorem readBack_of_succ {depth : Nat} {value : Json} (hexact : Exact depth value)
    (h : ∀ (fuel level place : Nat) (rest : List Char),
      (layout.print level value).length ≤ fuel + 1 → Stops rest →
      ∃ place', readValue dialect (fuel + 1) depth ⟨place, layout.print level value ++ rest⟩ =
        .ok (value, ⟨place', rest⟩)) :
    ReadBack layout dialect depth value := by
  intro fuel level place rest hfuel hrest
  obtain ⟨c, cs, hprinted, _⟩ := print_eq_cons hexact layout level
  obtain ⟨fuel, rfl⟩ : ∃ less, fuel = less + 1 := by
    rw [hprinted, List.length_cons] at hfuel
    exact ⟨fuel - 1, by omega⟩
  exact h fuel level place rest hfuel hrest

/-- The text of a value is read as the value, if what stands behind it stops a number. -/
theorem readBack_of_exact (hlayout : layout.Blank) {depth : Nat} {value : Json}
    (h : Exact depth value) : ReadBack layout dialect depth value := by
  -- by induction on the value; arrays and objects are read from behind their opening
  induction h with
  | null =>
      refine readBack_of_succ .null fun fuel level place rest _ _ => ⟨place + 4, ?_⟩
      have hlength : "null".length = 4 := rfl
      simp [Layout.print, printScalar, readValue, readScalar, words, Cursor.skip, hlength]
  | bool b =>
      refine readBack_of_succ (.bool b) fun fuel level place rest _ _ =>
        ⟨place + if b then 4 else 5, ?_⟩
      have hlengths : "true".length = 4 ∧ "false".length = 5 := ⟨rfl, rfl⟩
      cases b <;>
        simp [Layout.print, printScalar, readValue, readScalar, words, Cursor.skip, hlengths]
  | @int depth n hn =>
      refine readBack_of_succ (.int hn) fun fuel level place rest _ hrest => ?_
      have hscalar : layout.print level (.int n) = printInt n := rfl
      rw [hscalar, readValue_number ((beginsNumber_printInt n).append rest)]
      exact readScalar_printInt hn hrest place
  | @real depth x hx =>
      refine readBack_of_succ (.real hx) fun fuel level place rest _ hrest => ?_
      have hscalar : layout.print level (.real x) = printReal x := rfl
      rw [hscalar, readValue_number ((beginsNumber_printReal hx).append rest)]
      exact readScalar_printReal hx hrest place
  | str s =>
      refine readBack_of_succ (.str s) fun fuel level place rest _ _ => ?_
      obtain ⟨place', hread⟩ := readString_printed dialect s.toList place (place + 1) [] rest
      refine ⟨place', ?_⟩
      simp [Layout.print, printScalar, printString, readValue, hread, Except.map]
  | @arr depth items hexact ih =>
      refine readBack_of_succ (.arr hexact) fun fuel level place rest hfuel hrest => ?_
      cases items with
      | nil =>
          refine ⟨place + 2, ?_⟩
          simp [Layout.print, readValue, Cursor.skip, Cursor.skipSpace,
            skipSpaceFrom_cons (c := ']') rfl]
      | cons item items =>
          rw [Layout.print] at hfuel
          simp only [List.length_cons, List.length_append, List.cons_append] at hfuel
          obtain ⟨c, cs, hitem, hopens⟩ := print_eq_cons (hexact item List.mem_cons_self)
            layout (level + 1)
          obtain ⟨place', hread⟩ := readItems_printed hlayout rest item hexact ih fuel (level + 1)
            level [] (place + 1 + (layout.gap (level + 1)).length) (by omega)
          refine ⟨place', ?_⟩
          rw [print_array, readValue_bracket _ hopens.notBracket, ← List.cons_append, ← hitem,
            hread]
          · rfl
          · rw [skipSpaceFrom_append (hlayout.gap _), hitem, List.cons_append,
              skipSpaceFrom_cons hopens.notSpace]
  | @obj depth fields hkeys hexact ih =>
      refine readBack_of_succ (.obj hkeys hexact) fun fuel level place rest hfuel hrest => ?_
      cases fields with
      | nil =>
          refine ⟨place + 2, ?_⟩
          simp [Layout.print, readValue, Cursor.skip, Cursor.skipSpace,
            skipSpaceFrom_cons (c := '\x7d') rfl]
      | cons field fields =>
          rw [Layout.print] at hfuel
          simp only [List.length_cons, List.length_append, List.cons_append] at hfuel
          obtain ⟨cs, hfield⟩ := printField_eq_cons layout (level + 1) field
          obtain ⟨place', hread⟩ := readFields_printed hlayout rest field hexact ih fuel (level + 1)
            level [] hkeys (place + 1 + (layout.gap (level + 1)).length) (by omega)
          refine ⟨place', ?_⟩
          rw [print_object, readValue_brace _ (c := '"') (by decide), ← List.cons_append,
            ← hfield, hread]
          · rfl
          · rw [skipSpaceFrom_append (hlayout.gap _), hfield, List.cons_append,
              skipSpaceFrom_cons rfl]

/-! ## Whole texts -/

/-- The text of a value, with blanks behind it, is read as the value. -/
theorem read_text (hlayout : layout.Blank) {value : Json} (h : Exact dialect.maxDepth value)
    {blanks : List Char} (hblanks : ∀ c ∈ blanks, isSpace c = true) :
    read dialect ((layout.text value).toList ++ blanks) = .ok value := by
  have htext : (layout.text value).toList = layout.print 0 value := by
    rw [Layout.text, String.toList_ofList]
  obtain ⟨c, cs, hprinted, hopens⟩ := print_eq_cons h layout 0
  have hstops : Stops blanks := by
    have hend : Stops [] := by
      intro c hc
      cases hc
    simpa using stops_append hblanks hend
  have hend : ∀ place, (skipSpaceFrom place blanks).rest = [] := by
    intro place
    rw [← List.append_nil blanks, skipSpaceFrom_append hblanks place]
    rfl
  have hback : ReadBack layout dialect dialect.maxDepth value := readBack_of_exact hlayout h
  obtain ⟨place', hread⟩ := hback (2 * (layout.print 0 value ++ blanks).length + 2) 0 0 blanks
    (by rw [List.length_append]; omega) hstops
  rw [htext]
  unfold read
  split
  · rename_i htail
    rw [hprinted, List.cons_append, List.cons.injEq] at htail
    exact absurd htail.1 hopens.notMark
  · have hstart : skipSpaceFrom 0 (layout.print 0 value ++ blanks) =
        ⟨0, layout.print 0 value ++ blanks⟩ := by
      rw [hprinted, List.cons_append, skipSpaceFrom_cons hopens.notSpace]
    rw [hstart, hread]
    simp only [Cursor.skipSpace, hend]
    rfl

/-- A value that is written with a line end behind it is read back. -/
theorem read_indented {value : Json} (h : Exact dialect.maxDepth value) :
    read dialect (value.indented ++ "\n").toList = .ok value := by
  have hblanks : ∀ c ∈ ['\n'], isSpace c = true := by
    intro c hc
    rw [List.mem_singleton.mp hc]
    rfl
  have hread := read_text (Layout.blank_spaced 2) h hblanks
  rwa [Layout.text_spaced, ← String.toList_singleton, ← String.toList_append] at hread

end Runbook.Json

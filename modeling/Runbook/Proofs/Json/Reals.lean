import Runbook.Proofs.Json.Scalars
import Runbook.Proofs.Number.Shortest

/-!
# Reading back real numbers

The text of a number consists of a sign, whole digits, a fraction and an exponent; text that consists
of such parts is read as their value (`NumberParts.readNumber_text`). The layout of some digits
consists of parts that name the same decimal, wherever its point stands (`exists_parts_of_layout`), so
the text of a real number, whose decimal is nearest to it, is read as the number
(`readScalar_printReal`).
-/

set_option autoImplicit false

namespace Runbook

/-- A finite number in the form in which it is kept, with one form for each zero. -/
inductive Binary.Proper : Binary → Prop where
  | zero (negative : Bool) : Proper (.finite negative 0 0)
  | normal (negative : Bool) {m : Nat} {q : Int} : Normal m q → Proper (.finite negative m q)

namespace Json

variable {rest : List Char}

/-! ## Digits -/

theorem digitsToNat_append (as bs : List Char) :
    digitsToNat (as ++ bs) = digitsToNat as * 10 ^ bs.length + digitsToNat bs := by
  have hfold : ∀ start, bs.foldl (fun n c => n * 10 + (c.toNat - 48)) start =
      start * 10 ^ bs.length + digitsToNat bs := by
    -- by induction on the digits behind, each of which moves the others by one place
    induction bs with
    | nil => intro start; simp [digitsToNat]
    | cons b bs ih =>
        intro start
        rw [digitsToNat, List.foldl_cons, List.foldl_cons, ih, ih, List.length_cons, pow_succ]
        ring
  rw [digitsToNat, List.foldl_append, hfold]
  rfl

theorem digitsToNat_zeros (count : Nat) : digitsToNat (List.replicate count '0') = 0 := by
  induction count with
  | zero => rfl
  | succ count ih =>
      rw [List.replicate_succ', digitsToNat_append, ih]
      rfl

/-! ## The parts of a number -/

/-- A fraction as it is written. -/
def fractionText : Option (List Char) → List Char
  | none => []
  | some digits => '.' :: digits

/-- The digits of an exponent, two or more of them. -/
def exponentDigits (e : Int) : List Char :=
  let size := Nat.toDigits 10 e.natAbs
  if size.length < 2 then '0' :: size else size

/-- An exponent as it is written. -/
def exponentText : Option Int → List Char
  | none => []
  | some e => 'e' :: (if e < 0 then '-' else '+') :: exponentDigits e

namespace NumberParts

variable {n : NumberParts}

/-- The text that consists of the parts behind the sign. -/
def unsigned (n : NumberParts) : List Char :=
  n.whole ++ (fractionText n.fraction ++ exponentText n.exponent)

/-- The text that consists of the parts. -/
def text (n : NumberParts) : List Char := (if n.negative then ['-'] else []) ++ n.unsigned

/-- The number that all digits make. -/
def digits (n : NumberParts) : Nat := digitsToNat (n.whole ++ n.fraction.getD [])

/-- The power of ten that the last digit stands for. -/
def scale (n : NumberParts) : Int := n.exponent.getD 0 - (n.fraction.getD []).length

/-- Whether the parts are those of a real number. -/
structure Legible (n : NumberParts) : Prop where
  whole : n.whole = ['0'] ∨
    ∃ d ds, n.whole = d :: ds ∧ d ≠ '0' ∧ ∀ c ∈ d :: ds, isAsciiDigit c = true
  fraction : ∀ ds, n.fraction = some ds → ds ≠ [] ∧ ∀ c ∈ ds, isAsciiDigit c = true
  real : n.fraction.isSome = true ∨ n.exponent.isSome = true

theorem Legible.value_eq (h : n.Legible) :
    n.value = .real (Binary.ofDecimal n.negative n.digits n.scale) := by
  have hreal := h.real
  unfold value
  split
  · rename_i hfraction hexponent
    rw [hfraction, hexponent] at hreal
    rcases hreal with hreal | hreal <;> cases hreal
  · rfl

end NumberParts

/-! ## Reading the parts -/

theorem exponentDigits_spec (e : Int) : exponentDigits e ≠ [] ∧
    (∀ c ∈ exponentDigits e, isAsciiDigit c = true) ∧
      digitsToNat (exponentDigits e) = e.natAbs := by
  have hdigits : ∀ c ∈ Nat.toDigits 10 e.natAbs, isAsciiDigit c = true :=
    fun c hc => isAsciiDigit_of_mem hc
  have hvalue := digitsToNat_toDigits e.natAbs
  unfold exponentDigits
  dsimp only
  split
  · refine ⟨List.cons_ne_nil _ _, List.forall_mem_cons.2 ⟨rfl, hdigits⟩, ?_⟩
    have hzero : digitsToNat ['0'] = 0 := rfl
    rw [← List.singleton_append, digitsToNat_append, hvalue, hzero, Nat.zero_mul, Nat.zero_add]
  · exact ⟨Nat.toDigits_ne_nil, hdigits, hvalue⟩

theorem endsDigits_exponentText (exponent : Option Int) (hrest : Stops rest) :
    EndsDigits (exponentText exponent ++ rest) := by
  cases exponent with
  | none => exact hrest.endsDigits
  | some e =>
      rintro c ⟨⟩
      rfl

theorem endsDigits_fractionText (fraction : Option (List Char)) (exponent : Option Int)
    (hrest : Stops rest) :
    EndsDigits (fractionText fraction ++ (exponentText exponent ++ rest)) := by
  cases fraction with
  | none => exact endsDigits_exponentText exponent hrest
  | some ds =>
      rintro c ⟨⟩
      rfl

theorem readExponent_exponentText (exponent : Option Int) (hrest : Stops rest) :
    readExponent (exponentText exponent ++ rest) = (exponent, rest) := by
  cases exponent with
  | none => exact readExponent_of_stops hrest
  | some e =>
      obtain ⟨hne, hdigits, hvalue⟩ := exponentDigits_spec e
      have htaken := takeWhile_digits hdigits hrest.endsDigits
      have hempty : (exponentDigits e).isEmpty = false := by
        rw [List.isEmpty_eq_false_iff]
        exact hne
      rw [exponentText, List.cons_append, List.cons_append]
      by_cases hneg : e < 0
      · simp [readExponent, hneg, htaken, hempty, hvalue, abs_of_neg hneg]
      · simp [readExponent, hneg, htaken, hempty, hvalue, abs_of_nonneg (not_lt.1 hneg)]

theorem readFraction_fractionText {fraction : Option (List Char)}
    (h : ∀ ds, fraction = some ds → ds ≠ [] ∧ ∀ c ∈ ds, isAsciiDigit c = true)
    (exponent : Option Int) (hrest : Stops rest) :
    readFraction (fractionText fraction ++ (exponentText exponent ++ rest)) =
      (fraction, exponentText exponent ++ rest) := by
  cases fraction with
  | none =>
      rw [fractionText, List.nil_append, readFraction]
      rintro cs hcs
      cases exponent with
      | none =>
          rw [exponentText, List.nil_append] at hcs
          exact (hrest '.' (by rw [hcs]; rfl)).2.1 rfl
      | some e => cases hcs
  | some ds =>
      obtain ⟨hne, hdigits⟩ := h ds rfl
      have htaken := takeWhile_digits hdigits (endsDigits_exponentText exponent hrest)
      have hempty : ds.isEmpty = false := by
        rw [List.isEmpty_eq_false_iff]
        exact hne
      rw [fractionText, List.cons_append, readFraction, htaken, hempty, if_neg Bool.false_ne_true,
        List.drop_left]

theorem NumberParts.Legible.readWhole {n : NumberParts} (h : n.Legible)
    (hrest : EndsDigits rest) : Json.readWhole (n.whole ++ rest) = some (n.whole, rest) := by
  rcases h.whole with hzero | ⟨d, ds, hcons, hd, hdigits⟩
  · rw [hzero]
    rfl
  · rw [hcons]
    exact readWhole_digits hdigits hd hrest

theorem NumberParts.Legible.beginsNumber {n : NumberParts} (h : n.Legible) :
    BeginsNumber n.text := by
  obtain ⟨d, ds, hwhole, hd⟩ : ∃ d ds, n.whole = d :: ds ∧ isAsciiDigit d = true := by
    rcases h.whole with hzero | ⟨d, ds, hcons, -, hdigits⟩
    · exact ⟨_, _, hzero, rfl⟩
    · exact ⟨d, ds, hcons, hdigits d List.mem_cons_self⟩
  rw [text, unsigned, hwhole]
  split
  · exact .signed _ hd
  · exact .digit _ hd

/-- The text of the parts of a real number is read as their value. -/
theorem NumberParts.Legible.readNumber_text {n : NumberParts} (h : n.Legible)
    (hrest : Stops rest) (place : Nat) :
    ∃ place', readNumber ⟨place, n.text ++ rest⟩ = .ok (n.value, ⟨place', rest⟩) := by
  have hwhole := h.readWhole (endsDigits_fractionText n.fraction n.exponent hrest)
  have hfraction := readFraction_fractionText h.fraction n.exponent hrest
  have hexponent := readExponent_exponentText n.exponent hrest
  have hreal : ¬(n.fraction = none ∧ n.exponent = none) := by
    rintro ⟨hfraction, hexponent⟩
    rcases h.real with hreal | hreal
    · rw [hfraction] at hreal
      cases hreal
    · rw [hexponent] at hreal
      cases hreal
  -- without a sign in front, the first digit is none
  have hsign : ∃ d ds, n.whole = d :: ds ∧ d ≠ '-' := by
    rcases h.whole with hzero | ⟨d, ds, hcons, -, hdigits⟩
    · exact ⟨_, _, hzero, by decide⟩
    · refine ⟨d, ds, hcons, ?_⟩
      rintro rfl
      have := hdigits '-' List.mem_cons_self
      cases this
  obtain ⟨d, ds, hcons, hd⟩ := hsign
  obtain ⟨negative, whole, fraction, exponent⟩ := n
  dsimp only at hcons hwhole hfraction hexponent hreal
  subst hcons
  rw [List.cons_append] at hwhole
  cases negative with
  | true => simp [readNumber, text, unsigned, hwhole, hfraction, hexponent, hreal]
  | false => simp [readNumber, text, unsigned, hd, hwhole, hfraction, hexponent, hreal]

/-! ## The layout of digits -/

/-- Whether a text without its sign consists of parts that name the number of some digits, moved by some
places. -/
structure NumberParts.Names (n : NumberParts) (negative : Bool) (digits : List Char) (step : Int)
    (text : List Char) : Prop where
  legible : n.Legible
  negative : n.negative = negative
  unsigned : n.unsigned = text
  decimal : ∃ zeros : Nat, n.digits = digitsToNat digits * 10 ^ zeros ∧ n.scale = step - zeros

section Layout

variable {d : Char} {ds : List Char} {step point : Int} {k : Nat}

theorem isAsciiDigit_of_mem_zeros {count : Nat} :
    ∀ c ∈ List.replicate count '0', isAsciiDigit c = true := by
  intro c hc
  rw [List.eq_of_mem_replicate hc]
  rfl

theorem digitsToNat_zero : digitsToNat ['0'] = 0 := rfl

/-- The point stands in front of all digits. -/
theorem exists_parts_front (negative : Bool) (hdigits : ∀ c ∈ d :: ds, isAsciiDigit c = true)
    (hpoint : (d :: ds).length + step = point) (hfront : point ≤ 0) :
    ∃ n : NumberParts, n.Names negative (d :: ds) step
      ('0' :: '.' :: List.replicate (-point).toNat '0' ++ d :: ds) := by
  refine ⟨⟨negative, ['0'], some (List.replicate (-point).toNat '0' ++ d :: ds), none⟩,
    ⟨.inl rfl, ?_, .inl rfl⟩, rfl, ?_, 0, ?_, ?_⟩
  · rintro digits ⟨⟩
    exact ⟨List.append_ne_nil_of_right_ne_nil _ (List.cons_ne_nil d ds),
      List.forall_mem_append.2 ⟨isAsciiDigit_of_mem_zeros, hdigits⟩⟩
  · simp [NumberParts.unsigned, fractionText, exponentText]
  · simp only [NumberParts.digits, Option.getD_some, digitsToNat_append, digitsToNat_zeros,
      digitsToNat_zero, Nat.zero_mul, Nat.zero_add, pow_zero, Nat.mul_one]
  · simp only [NumberParts.scale, Option.getD_none, Option.getD_some, List.length_append,
      List.length_replicate]
    push_cast
    omega

/-- All digits stand in front of the point, with zeros behind them. -/
theorem exists_parts_behind (negative : Bool) (hd : d ≠ '0')
    (hdigits : ∀ c ∈ d :: ds, isAsciiDigit c = true)
    (hpoint : (d :: ds).length + step = (k + 1 : Nat)) (hlong : (d :: ds).length ≤ k + 1) :
    ∃ n : NumberParts, n.Names negative (d :: ds) step
      (d :: ds ++ List.replicate (k + 1 - (d :: ds).length) '0' ++ ['.', '0']) := by
  refine ⟨⟨negative, d :: ds ++ List.replicate (k + 1 - (d :: ds).length) '0', some ['0'], none⟩,
    ⟨.inr ⟨d, _, rfl, hd, List.forall_mem_append.2 ⟨hdigits, isAsciiDigit_of_mem_zeros⟩⟩, ?_,
      .inl rfl⟩, rfl, ?_, k + 1 - (d :: ds).length + 1, ?_, ?_⟩
  · rintro digits ⟨⟩
    exact ⟨List.cons_ne_nil _ _, List.forall_mem_singleton.2 rfl⟩
  · simp [NumberParts.unsigned, fractionText, exponentText]
  · simp only [NumberParts.digits, Option.getD_some, digitsToNat_append, digitsToNat_zeros,
      digitsToNat_zero, Nat.add_zero, List.length_replicate, List.length_singleton, pow_succ,
      pow_zero, Nat.one_mul, Nat.mul_assoc]
  · simp only [NumberParts.scale, Option.getD_none, Option.getD_some, List.length_singleton]
    omega

/-- The point stands among the digits. -/
theorem exists_parts_among (negative : Bool) (hd : d ≠ '0')
    (hdigits : ∀ c ∈ d :: ds, isAsciiDigit c = true)
    (hpoint : (d :: ds).length + step = (k + 1 : Nat)) (hshort : k + 1 < (d :: ds).length) :
    ∃ n : NumberParts, n.Names negative (d :: ds) step
      ((d :: ds).take (k + 1) ++ '.' :: (d :: ds).drop (k + 1)) := by
  have hrest : (d :: ds).drop (k + 1) ≠ [] := by
    rw [Ne, List.drop_eq_nil_iff]
    exact Nat.not_le.2 hshort
  have hwhole : ∀ c ∈ (d :: ds).take (k + 1), isAsciiDigit c = true :=
    fun c hc => hdigits c (List.mem_of_mem_take hc)
  refine ⟨⟨negative, (d :: ds).take (k + 1), some ((d :: ds).drop (k + 1)), none⟩,
    ⟨.inr ⟨d, ds.take k, rfl, hd, hwhole⟩, ?_, .inl rfl⟩, rfl, ?_, 0, ?_, ?_⟩
  · rintro digits ⟨⟩
    exact ⟨hrest, fun c hc => hdigits c (List.mem_of_mem_drop hc)⟩
  · simp [NumberParts.unsigned, fractionText, exponentText]
  · rw [NumberParts.digits, Option.getD_some, List.take_append_drop, pow_zero, Nat.mul_one]
  · simp only [NumberParts.scale, Option.getD_none, Option.getD_some, List.length_drop]
    omega

/-- The point stands behind the first digit, and an exponent moves it. -/
theorem exists_parts_moved (negative : Bool) (hd : d ≠ '0')
    (hdigits : ∀ c ∈ d :: ds, isAsciiDigit c = true) (hpoint : (d :: ds).length + step = point) :
    ∃ n : NumberParts, n.Names negative (d :: ds) step
      ([d] ++ (if ds.isEmpty then [] else '.' :: ds) ++ exponentText (some (point - 1))) := by
  obtain ⟨hdigit, hrest⟩ := List.forall_mem_cons.1 hdigits
  cases ds with
  | nil =>
      refine ⟨⟨negative, [d], none, some (point - 1)⟩, ⟨.inr ⟨d, [], rfl, hd, hdigits⟩, ?_,
        .inr rfl⟩, rfl, rfl, 0, ?_, ?_⟩
      · rintro digits ⟨⟩
      · rw [NumberParts.digits, Option.getD_none, List.append_nil, pow_zero, Nat.mul_one]
      · simp only [NumberParts.scale, Option.getD_none, Option.getD_some, List.length_nil]
        rw [List.length_singleton] at hpoint
        omega
  | cons next ds =>
      refine ⟨⟨negative, [d], some (next :: ds), some (point - 1)⟩,
        ⟨.inr ⟨d, [], rfl, hd, List.forall_mem_singleton.2 hdigit⟩, ?_, .inl rfl⟩, rfl, rfl, 0, ?_, ?_⟩
      · rintro digits ⟨⟩
        exact ⟨List.cons_ne_nil _ _, hrest⟩
      · rw [NumberParts.digits, Option.getD_some, pow_zero, Nat.mul_one]
        rfl
      · simp only [NumberParts.scale, Option.getD_some]
        rw [List.length_cons] at hpoint
        omega

/-- The layout of digits consists of the parts of a decimal, wherever its point stands. -/
theorem exists_parts_of_layout (negative : Bool) (hd : d ≠ '0')
    (hdigits : ∀ c ∈ d :: ds, isAsciiDigit c = true) (step : Int) :
    ∃ n : NumberParts, n.Names negative (d :: ds) step
      (Binary.layout (d :: ds) ((d :: ds).length + step)) := by
  obtain ⟨point, hpoint⟩ : ∃ point : Int, ((d :: ds).length : Int) + step = point := ⟨_, rfl⟩
  rw [hpoint]
  unfold Binary.layout
  split
  · split
    · rename_i hfront
      exact exists_parts_front negative hdigits hpoint hfront
    · rename_i hinside
      obtain ⟨k, rfl⟩ : ∃ k : Nat, point = (k + 1 : Nat) := ⟨(point - 1).toNat, by omega⟩
      rw [Int.toNat_natCast]
      by_cases hlong : (d :: ds).length ≤ k + 1
      · rw [List.take_of_length_le hlong, List.drop_of_length_le hlong]
        exact exists_parts_behind negative hd hdigits hpoint hlong
      · have hshort := Nat.not_le.1 hlong
        have hlength : ((d :: ds).take (k + 1)).length = k + 1 :=
          List.length_take_of_le (Nat.le_of_lt hshort)
        have hrest : ((d :: ds).drop (k + 1)).isEmpty = false := by
          rw [List.isEmpty_eq_false_iff, Ne, List.drop_eq_nil_iff]
          exact hlong
        dsimp only
        rw [hlength, Nat.sub_self, List.replicate_zero, List.append_nil, hrest,
          if_neg Bool.false_ne_true]
        exact exists_parts_among negative hd hdigits hpoint hshort
  · exact exists_parts_moved negative hd hdigits hpoint

end Layout

/-! ## Real numbers -/

/-- The text of a real number consists of the parts of a decimal that is nearest to it. -/
theorem exists_parts_of_proper {x : Binary} (hx : x.Proper) :
    ∃ n : NumberParts, n.Legible ∧ n.text = printReal x ∧ n.value = .real x := by
  cases hx with
  | zero negative =>
      refine ⟨⟨negative, ['0'], some ['0'], none⟩, ⟨.inl rfl, ?_, .inl rfl⟩, ?_, rfl⟩
      · rintro digits ⟨⟩
        exact ⟨List.cons_ne_nil _ _, List.forall_mem_singleton.2 rfl⟩
      · cases negative <;> rfl
  | @normal negative m q hnormal =>
      obtain ⟨k, step, hk, hnear, hlayout⟩ := Binary.exists_finiteText_eq hnormal negative
      obtain ⟨d, ds, hdigits, hd⟩ := toDigits_eq_cons hk
      have hall : ∀ c ∈ d :: ds, isAsciiDigit c = true :=
        fun c hc => isAsciiDigit_of_mem (n := k) (hdigits ▸ hc)
      obtain ⟨n, hnames⟩ := exists_parts_of_layout negative hd hall step
      obtain ⟨hlegible, rfl, htext, zeros, hvalue, hscale⟩ := hnames
      rw [← hdigits] at htext hvalue
      rw [digitsToNat_toDigits] at hvalue
      refine ⟨n, hlegible, ?_, ?_⟩
      · have hprinted : printReal (.finite n.negative m q) =
            (Binary.finiteText n.negative m q).toList := rfl
        rw [hprinted, hlayout, String.toList_ofList, NumberParts.text, htext]
      · rw [hlegible.value_eq, hvalue, hscale]
        congr 1
        apply Binary.ofDecimal_of_near hnormal (Nat.mul_pos hk (Nat.pow_pos (by decide)))
        have hten : (10 : ℚ) ^ zeros ≠ 0 := by positivity
        rw [zpow_sub₀ (by norm_num), zpow_natCast]
        push_cast
        rwa [mul_assoc, mul_div_cancel₀ _ hten]

theorem beginsNumber_printReal {x : Binary} (hx : x.Proper) : BeginsNumber (printReal x) := by
  obtain ⟨n, hlegible, htext, -⟩ := exists_parts_of_proper hx
  rw [← htext]
  exact hlegible.beginsNumber

/-- The text of a real number is read as that number. -/
theorem readScalar_printReal {x : Binary} (hx : x.Proper) (hrest : Stops rest) (place : Nat) :
    ∃ place', readScalar ⟨place, printReal x ++ rest⟩ = .ok (.real x, ⟨place', rest⟩) := by
  obtain ⟨n, hlegible, htext, hvalue⟩ := exists_parts_of_proper hx
  rw [readScalar_of_beginsNumber ((beginsNumber_printReal hx).append rest), ← htext, ← hvalue]
  exact hlegible.readNumber_text hrest place

end Json

end Runbook

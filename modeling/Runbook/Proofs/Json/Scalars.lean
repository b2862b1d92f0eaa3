import Mathlib.Algebra.Group.Nat.Defs
import Runbook.Json.Printer
import Runbook.Json.Reader

/-!
# Reading back strings, numbers and words

What is written for a character inside a string is read as that character
(`readString_escapeString`), and so is a whole string. The digits of a natural number are read up to
something that cannot be part of a number, and name it (`readNumber_printInt`); an integer begins with
none of the words that stand for values.
-/

set_option autoImplicit false

namespace Runbook.Json

variable {dialect : Dialect} {rest : List Char}

/-! ## Strings -/

/-- A control character is written by its number in four digits, which name it. -/
theorem hexDigits_control {n : Nat} (h : n < 0x20) :
    ∃ a b c d, Text.hexDigits 4 n = [a, b, c, d] ∧ hexNumber? a b c d = some n := by
  have hall : ∀ n < 0x20, Text.hexDigits 4 n =
      ['0', '0', Text.hexDigit (n / 16), Text.hexDigit (n % 16)] ∧
      hexNumber? '0' '0' (Text.hexDigit (n / 16)) (Text.hexDigit (n % 16)) = some n := by decide
  exact ⟨_, _, _, _, hall n h⟩

theorem readString_pair {mark c : Char} (h : escapeChar? mark = some c) (hmark : mark ≠ 'u')
    (start place : Nat) (read : List Char) :
    readString dialect start read place ('\\' :: mark :: rest) =
      readString dialect start (c :: read) (place + 2) rest := by
  rw [readString, if_neg (by simpa using hmark), h]
  simp [hmark]

/-- What is written for a character is read as that character, if anything stands behind it. -/
theorem readString_escapeString (c : Char) (start place : Nat) (read : List Char)
    (hrest : rest ≠ []) :
    readString dialect start read place (escapeString c ++ rest) =
      readString dialect start (c :: read) (place + (escapeString c).length) rest := by
  obtain ⟨next, rest, rfl⟩ := List.exists_cons_of_ne_nil hrest
  -- one case for each character that is written with a backslash and another one
  unfold escapeString
  split
  case isTrue h =>
    cases eq_of_beq h
    exact readString_pair rfl (by decide) ..
  split
  case isTrue h =>
    cases eq_of_beq h
    exact readString_pair rfl (by decide) ..
  split
  case isTrue h =>
    cases eq_of_beq h
    exact readString_pair rfl (by decide) ..
  split
  case isTrue h =>
    cases eq_of_beq h
    exact readString_pair rfl (by decide) ..
  split
  case isTrue h =>
    cases eq_of_beq h
    exact readString_pair rfl (by decide) ..
  split
  case isTrue h =>
    cases eq_of_beq h
    exact readString_pair rfl (by decide) ..
  split
  case isTrue h =>
    cases eq_of_beq h
    exact readString_pair rfl (by decide) ..
  rename_i hquote hslash _ _ _ _ _
  split
  case isTrue hcontrol =>
    obtain ⟨a, b, d, e, hdigits, hnumber⟩ := hexDigits_control hcontrol
    have hhigh : isHighHalf c.toNat = false := by simp [isHighHalf]; omega
    have hlow : isLowHalf c.toNat = false := by simp [isLowHalf]; omega
    rw [hdigits]
    simp [readString, hnumber, hhigh, hlow, codeChar?]
  case isFalse hcontrol =>
    have hquote : c ≠ '"' := by simpa using hquote
    have hslash : c ≠ '\\' := by simpa using hslash
    rw [List.singleton_append, readString, if_neg hcontrol]
    · rfl
    all_goals simp [hquote, hslash]

theorem readString_printed (dialect : Dialect) (cs : List Char) (start place : Nat)
    (read rest : List Char) :
    ∃ place', readString dialect start read place (cs.flatMap escapeString ++ '"' :: rest) =
      .ok (read.reverse ++ cs, ⟨place', rest⟩) := by
  -- by induction on the characters, each of which is read as itself
  induction cs generalizing place read with
  | nil => exact ⟨place + 1, by simp [readString]⟩
  | cons c cs ih =>
      obtain ⟨place', hread⟩ := ih (place + (escapeString c).length) (c :: read)
      refine ⟨place', ?_⟩
      rw [List.flatMap_cons, List.append_assoc,
        readString_escapeString c start place read (by simp), hread]
      simp

/-! ## Integers -/

/-- Whether what stands behind a number cannot be part of it. -/
def Stops (rest : List Char) : Prop :=
  ∀ c ∈ rest.head?, isAsciiDigit c = false ∧ c ≠ '.' ∧ c ≠ 'e' ∧ c ≠ 'E'

theorem isAsciiDigit_of_mem {c : Char} {n : Nat} (h : c ∈ Nat.toDigits 10 n) :
    isAsciiDigit c = true :=
  Nat.isDigit_of_mem_toDigits (by decide) (by decide) h

/-- A number other than zero is not written with a zero in front. -/
theorem toDigits_ne_zero_cons {n : Nat} (hn : 0 < n) (ds : List Char) :
    Nat.toDigits 10 n ≠ '0' :: ds := by
  -- by induction on the number without its last digit
  induction n using Nat.strongRecOn generalizing ds with
  | ind n ih =>
      rw [Nat.toDigits_eq_if (by decide)]
      split
      case isTrue hlt =>
        have hall : ∀ n < 10, 0 < n → n.digitChar ≠ '0' := by decide
        simp [hall n hlt hn]
      case isFalse hge =>
        intro heq
        obtain ⟨d, ds', hds⟩ := List.exists_cons_of_ne_nil
          (Nat.toDigits_ne_nil (n := n / 10) (b := 10))
        rw [hds, List.cons_append, List.cons.injEq] at heq
        exact ih (n / 10) (by omega) (by omega) ds' (heq.1 ▸ hds)

/-- Whether what stands behind some digits is none. -/
def EndsDigits (rest : List Char) : Prop := ∀ c ∈ rest.head?, isAsciiDigit c = false

theorem Stops.endsDigits (h : Stops rest) : EndsDigits rest := fun c hc => (h c hc).1

theorem takeWhile_digits {ds : List Char} (hds : ∀ c ∈ ds, isAsciiDigit c = true)
    (hrest : EndsDigits rest) : (ds ++ rest).takeWhile isAsciiDigit = ds := by
  rw [List.takeWhile_append_of_pos hds]
  cases rest with
  | nil => simp
  | cons c rest => simp [hrest c rfl]

/-- Digits that do not begin with a zero are read as whole digits, up to their end. -/
theorem readWhole_digits {d : Char} {ds : List Char} (hds : ∀ c ∈ d :: ds, isAsciiDigit c = true)
    (hd : d ≠ '0') (hrest : EndsDigits rest) :
    readWhole (d :: ds ++ rest) = some (d :: ds, rest) := by
  have htaken := takeWhile_digits hds hrest
  rw [readWhole]
  · rw [htaken, List.isEmpty_cons, if_neg Bool.false_ne_true, List.drop_left]
  · intro ds' hds'
    rw [List.cons_append, List.cons.injEq] at hds'
    exact hd hds'.1

theorem toDigits_eq_cons {n : Nat} (hn : 0 < n) : ∃ d ds, Nat.toDigits 10 n = d :: ds ∧ d ≠ '0' := by
  obtain ⟨d, ds, hdigits⟩ := List.exists_cons_of_ne_nil (Nat.toDigits_ne_nil (n := n) (b := 10))
  refine ⟨d, ds, hdigits, ?_⟩
  rintro rfl
  exact toDigits_ne_zero_cons hn ds hdigits

theorem readWhole_toDigits (n : Nat) (hrest : Stops rest) :
    readWhole (Nat.toDigits 10 n ++ rest) = some (Nat.toDigits 10 n, rest) := by
  rcases Nat.eq_zero_or_pos n with rfl | hn
  · simp [readWhole]
  · have hdigits : ∀ c ∈ Nat.toDigits 10 n, isAsciiDigit c = true :=
      fun c hc => isAsciiDigit_of_mem hc
    obtain ⟨d, ds, hcons, hd⟩ := toDigits_eq_cons hn
    rw [hcons] at hdigits ⊢
    exact readWhole_digits hdigits hd hrest.endsDigits

theorem digitsToNat_toDigits (n : Nat) : digitsToNat (Nat.toDigits 10 n) = n := by
  have hfold := Nat.ofDigitChars_ten_toDigits (n := n)
  rw [Nat.ofDigitChars] at hfold
  simpa [digitsToNat, Nat.mul_comm] using hfold

theorem readFraction_of_stops (hrest : Stops rest) : readFraction rest = (none, rest) := by
  rw [readFraction]
  rintro cs rfl
  exact (hrest '.' rfl).2.1 rfl

theorem readExponent_of_stops (hrest : Stops rest) : readExponent rest = (none, rest) := by
  cases rest with
  | nil => rfl
  | cons c rest =>
      obtain ⟨_, _, he, hE⟩ := hrest c rfl
      simp [readExponent, he, hE]

/-- The text of an integer that is not too long is read as that integer. -/
theorem readNumber_printInt {n : Int} (hn : n.natAbs < 10 ^ 4300) (hrest : Stops rest)
    (place : Nat) :
    ∃ place', readNumber ⟨place, printInt n ++ rest⟩ = .ok (.int n, ⟨place', rest⟩) := by
  have hshort (k : Nat) (hk : 0 < k) (h : n.natAbs < 10 ^ k) :
      (Nat.toDigits 10 n.natAbs).length ≤ k :=
    (Nat.length_toDigits_le_iff (by decide) hk).mpr h
  have hlength : ¬(Nat.toDigits 10 n.natAbs).length > 4300 :=
    Nat.not_lt.mpr (hshort 4300 (by decide) hn)
  have hwhole := readWhole_toDigits n.natAbs hrest
  have hdigits := digitsToNat_toDigits n.natAbs
  have hfraction := readFraction_of_stops hrest
  have hexponent := readExponent_of_stops hrest
  by_cases hneg : n < 0
  · obtain ⟨m, hm⟩ : ∃ m, n.natAbs = m := ⟨_, rfl⟩
    have hvalue : -(m : Int) = n := by omega
    rw [hm] at hlength hwhole hdigits
    simp [readNumber, printInt, hneg, hm, hwhole, hfraction, hexponent, hlength, NumberParts.value,
      hdigits, hvalue]
  · have hvalue : (n.natAbs : Int) = n := by omega
    obtain ⟨d, ds, heq⟩ := List.exists_cons_of_ne_nil
      (Nat.toDigits_ne_nil (n := n.natAbs) (b := 10))
    -- the first digit is no sign
    have hsign : d ≠ '-' := by
      have hd : isAsciiDigit d = true := isAsciiDigit_of_mem (heq ▸ List.mem_cons_self)
      rintro rfl
      cases hd
    rw [heq] at hlength hwhole hdigits
    rw [List.cons_append] at hwhole
    rw [List.length_cons] at hlength
    simp [readNumber, printInt, hneg, heq, hsign, hwhole, hfraction, hexponent, hlength,
      NumberParts.value, hdigits, hvalue]

/-! ## Words and numbers -/

/-- Whether a text begins as a number does: with a digit, or with a sign and a digit. -/
inductive BeginsNumber : List Char → Prop where
  | digit {d : Char} (ds : List Char) : isAsciiDigit d = true → BeginsNumber (d :: ds)
  | signed {d : Char} (ds : List Char) : isAsciiDigit d = true → BeginsNumber ('-' :: d :: ds)

theorem BeginsNumber.append {text : List Char} (h : BeginsNumber text) (rest : List Char) :
    BeginsNumber (text ++ rest) := by
  cases h with
  | digit ds hd => exact .digit (ds ++ rest) hd
  | signed ds hd => exact .signed (ds ++ rest) hd

theorem BeginsNumber.exists_cons {text : List Char} (h : BeginsNumber text) :
    ∃ c cs, text = c :: cs ∧ (c = '-' ∨ isAsciiDigit c = true) := by
  cases h with
  | digit ds hd => exact ⟨_, _, rfl, .inr hd⟩
  | signed ds hd => exact ⟨_, _, rfl, .inl rfl⟩

theorem beginsNumber_printInt (n : Int) : BeginsNumber (printInt n) := by
  obtain ⟨d, ds, hdigits⟩ := List.exists_cons_of_ne_nil
    (Nat.toDigits_ne_nil (n := n.natAbs) (b := 10))
  have hd : isAsciiDigit d = true := isAsciiDigit_of_mem (hdigits ▸ List.mem_cons_self)
  unfold printInt
  rw [hdigits]
  split
  · exact .signed ds hd
  · exact .digit ds hd

/-- No word begins with a digit, or with a sign and a digit. -/
theorem readScalar_of_beginsNumber {text : List Char} (h : BeginsNumber text) (place : Nat) :
    readScalar ⟨place, text⟩ = readNumber ⟨place, text⟩ := by
  have hletter : ∀ {c d : Char}, isAsciiDigit d = true → isAsciiDigit c = false → c ≠ d := by
    rintro c d hd hc rfl
    simp [hd] at hc
  rw [readScalar]
  dsimp only
  generalize hfound : words.find? _ = found
  have hnone : found = none := by
    rw [← hfound]
    cases h with
    | digit ds hd =>
        simp [words, hletter hd (c := 'n') rfl, hletter hd (c := 't') rfl,
          hletter hd (c := 'f') rfl, hletter hd (c := 'N') rfl, hletter hd (c := 'I') rfl,
          hletter hd (c := '-') rfl]
    | signed ds hd => simp [words, hletter hd (c := 'I') rfl]
  rw [hnone]

theorem readScalar_printInt {n : Int} (hn : n.natAbs < 10 ^ 4300) (hrest : Stops rest)
    (place : Nat) :
    ∃ place', readScalar ⟨place, printInt n ++ rest⟩ = .ok (.int n, ⟨place', rest⟩) := by
  rw [readScalar_of_beginsNumber ((beginsNumber_printInt n).append rest)]
  exact readNumber_printInt hn hrest place

end Runbook.Json

import Mathlib.Algebra.Group.Nat.Defs
import Runbook.Proofs.Text.AnyBytes
import Runbook.Proofs.Timestamp.Calendar
import Runbook.Timestamp.Printer
import Runbook.Timestamp.Reader

/-!
# Points in time are read back

Whichever text or number a point in time was read from, its parts are in their ranges
(`wellFormed_of_read`), and the text of such a point is read as that point (`read_print`).
-/

set_option autoImplicit false

namespace Runbook.Timestamp

/-- Whether the parts of a point in time are in their ranges; an offset is of whole minutes. -/
structure WellFormed (t : Timestamp) : Prop where
  date : isDate t.year t.month t.day = true
  hour : t.hour ≤ 23
  minute : t.minute ≤ 59
  second : t.second ≤ 59
  micro : t.micro < 1000000
  offset : ∀ o ∈ t.offset, o % 60 = 0 ∧ o.natAbs ≤ 86340

variable {t : Timestamp} {cs rest : List Char}

/-! ## What is read is well formed -/

theorem wellFormed_ofUnix {seconds : Int} {micro : Nat} (hlow : -11676096000 ≤ seconds)
    (hhigh : seconds ≤ 253402300799) (hmicro : micro < 1000000) :
    WellFormed (ofUnix seconds micro) := by
  have hdays : Int.fdiv seconds 86400 = seconds / 86400 :=
    Int.fdiv_eq_ediv_of_nonneg _ (by decide)
  have hrest : (seconds - Int.fdiv seconds 86400 * 86400).toNat < 86400 := by omega
  have hfirst : -135140 ≤ Int.fdiv seconds 86400 := by omega
  have hlast : Int.fdiv seconds 86400 ≤ 2932896 := by omega
  have hdate := isDate_dateOfDays hfirst hlast
  clear hdays hfirst hlast
  generalize hs : (seconds - Int.fdiv seconds 86400 * 86400).toNat = s at hrest
  have heq : ofUnix seconds micro = ⟨(dateOfDays (Int.fdiv seconds 86400)).1,
      (dateOfDays (Int.fdiv seconds 86400)).2.1, (dateOfDays (Int.fdiv seconds 86400)).2.2,
      s / 3600, s / 60 % 60, s % 60, micro, some 0⟩ := by
    rw [← hs]
    rfl
  rw [heq]
  exact ⟨hdate, by dsimp only; omega, by dsimp only; omega, by dsimp only; omega, hmicro,
    by simp⟩

theorem wellFormed_of_count {count : Int} {micro : Nat} (h : ofCount? count micro = some t) :
    WellFormed t := by
  unfold ofCount? at h
  generalize (if count.natAbs ≤ 20000000000 then (count, 0)
    else (Int.fdiv count 1000, (Int.fmod count 1000).toNat * 1000)) = scaled at h
  obtain ⟨seconds, extra⟩ := scaled
  dsimp only at h
  split at h
  · cases h
  · rename_i hrange
    simp only [Bool.or_eq_true, decide_eq_true_eq, not_or, Int.not_lt] at hrange
    rw [← Option.some.inj h]
    exact wellFormed_ofUnix hrange.1 hrange.2 (Nat.mod_lt _ (by decide))

theorem wellFormed_of_binary {x : Binary} (h : ofBinary? x = some t) : WellFormed t := by
  unfold ofBinary? at h
  split at h
  · exact wellFormed_of_count h
  · cases h

theorem wellFormed_of_numeral (h : ofNumeral? cs = some t) : WellFormed t := by
  unfold ofNumeral? at h
  dsimp only at h
  -- whatever the sign and the fraction are, a number is left or a count
  repeat' split at h
  all_goals first
    | exact wellFormed_of_count h
    | exact wellFormed_of_binary h
    | exact nomatch h

theorem isDate_of_readDate {y m d : Nat} (h : readDate? cs = some ((y, m, d), rest)) :
    isDate y m d = true := by
  simp only [readDate?, Option.bind_eq_bind, Option.bind_eq_some_iff] at h
  obtain ⟨_, _, _, _, _, _, _, _, _, _, _, _, h⟩ := h
  split at h
  · cases h
    assumption
  · cases h

theorem digit?_isSome {c : Char} : (digit? c).isSome = true ↔ '0' ≤ c ∧ c ≤ '9' := by
  unfold digit?
  split <;> simp_all

theorem foldl_digits_lt {ds : List Char} (h : ∀ c ∈ ds, c.toNat - 48 ≤ 9) (start : Nat) :
    ds.foldl (fun n c => n * 10 + (c.toNat - 48)) start < (start + 1) * 10 ^ ds.length := by
  induction ds generalizing start with
  | nil => simp
  | cons c ds ih =>
      obtain ⟨hc, hds⟩ := List.forall_mem_cons.mp h
      have hnext : start * 10 + (c.toNat - 48) + 1 ≤ (start + 1) * 10 := by omega
      refine Nat.lt_of_lt_of_le (ih hds _) ?_
      rw [List.length_cons, Nat.pow_succ, Nat.mul_comm _ 10, ← Nat.mul_assoc]
      exact Nat.mul_le_mul_right _ hnext

theorem microsOf_lt {ds : List Char} (h : ∀ c ∈ ds, (digit? c).isSome = true) :
    microsOf ds < 1000000 := by
  have hsix : ∀ c ∈ (ds ++ List.replicate 6 '0').take 6, c.toNat - 48 ≤ 9 := by
    intro c hc
    rcases List.mem_append.mp (List.mem_of_mem_take hc) with hc | hc
    · have hle : c.toNat ≤ 57 := (digit?_isSome.mp (h c hc)).2
      omega
    · rw [List.eq_of_mem_replicate hc]
      decide
  have hlength : ((ds ++ List.replicate 6 '0').take 6).length = 6 := by simp
  have hlt := foldl_digits_lt hsix 0
  rwa [hlength] at hlt

theorem ranges_of_readTime {hour minute second micro : Nat}
    (h : readTime? cs = some ((hour, minute, second, micro), rest)) :
    hour ≤ 23 ∧ minute ≤ 59 ∧ second ≤ 59 ∧ micro < 1000000 := by
  simp only [readTime?, Option.bind_eq_bind, Option.bind_eq_some_iff] at h
  obtain ⟨_, _, _, _, _, _, h⟩ := h
  split at h
  · cases h
  rename_i hrange
  simp only [Bool.or_eq_true, decide_eq_true_eq, not_or, Nat.not_lt] at hrange
  split at h
  · rw [Option.bind_eq_some_iff] at h
    obtain ⟨⟨second', cs'⟩, _, h⟩ := h
    dsimp only at h
    split at h
    · cases h
    · split at h
      · split at h
        · split at h
          · cases h
          · cases h
            exact ⟨hrange.1, hrange.2, by omega, microsOf_lt (List.all_eq_true.mp List.all_takeWhile)⟩
        · cases h
          exact ⟨hrange.1, hrange.2, by omega, by decide⟩
      · cases h
        exact ⟨hrange.1, hrange.2, by omega, by decide⟩
  · cases h
    exact ⟨hrange.1, hrange.2, by decide, by decide⟩

theorem offset_of_readOffset {offset : Option Int} (h : readOffset? cs = some offset) :
    ∀ o ∈ offset, o % 60 = 0 ∧ o.natAbs ≤ 86340 := by
  unfold readOffset? at h
  split at h
  · cases h
    simp
  · cases h
    simp
  · cases h
    simp
  · have hparts : ∃ factor : Int, (factor = 1 ∨ factor = -1) ∧ ∃ hours minutes : Nat,
        hours ≤ 23 ∧ minutes ≤ 59 ∧ offset = some (factor * (hours * 3600 + minutes * 60)) := by
      simp only [Option.bind_eq_bind] at h
      -- the sign is read first, and then the same for either one
      repeat' split at h
      all_goals
        simp only [Option.bind_eq_some_iff, Option.some.injEq, Option.ite_none_right_eq_some,
          Bool.and_eq_true, decide_eq_true_eq] at h
        obtain ⟨factor, hfactor, ⟨hours, _⟩, _, ⟨minutes, _⟩, _, ⟨⟨_, hhours⟩, hminutes⟩, h⟩ := h
      · exact ⟨factor, .inl hfactor.symm, hours, minutes, hhours, hminutes, h.symm⟩
      · exact ⟨factor, .inr hfactor.symm, hours, minutes, hhours, hminutes, h.symm⟩
      · cases hfactor
    obtain ⟨factor, hfactor, hours, minutes, hhours, hminutes, rfl⟩ := hparts
    rintro o ⟨⟩
    rcases hfactor with rfl | rfl <;> omega

theorem wellFormed_of_calendar (h : readCalendar? cs = some t) : WellFormed t := by
  simp only [readCalendar?, Option.bind_eq_bind, Option.bind_eq_some_iff] at h
  obtain ⟨⟨⟨y, m, d⟩, cs'⟩, hdate, h⟩ := h
  have hvalid := isDate_of_readDate hdate
  dsimp only at h
  split at h
  · cases h
    exact ⟨hvalid, Nat.zero_le _, Nat.zero_le _, Nat.zero_le _, Nat.succ_pos _, by simp⟩
  · split at h
    · rw [Option.bind_eq_some_iff] at h
      obtain ⟨⟨⟨hour, minute, second, micro⟩, cs''⟩, htime, h⟩ := h
      dsimp only at h
      rw [Option.bind_eq_some_iff] at h
      obtain ⟨offset, hoffset, h⟩ := h
      cases h
      obtain ⟨hhour, hminute, hsecond, hmicro⟩ := ranges_of_readTime htime
      exact ⟨hvalid, hhour, hminute, hsecond, hmicro, offset_of_readOffset hoffset⟩
    · cases h

/-- Whatever text a point in time was read from, its parts are in their ranges. -/
theorem wellFormed_of_read {s : String} (h : read? s = some t) : WellFormed t := by
  unfold read? at h
  cases hcalendar : readCalendar? s.toList with
  | some t' =>
      rw [hcalendar] at h
      cases h
      exact wellFormed_of_calendar hcalendar
  | none =>
      rw [hcalendar] at h
      exact wellFormed_of_numeral h

/-! ## What is written is read back -/

theorem padded_append_digit {width : Nat} (hwidth : 0 < width) (n : Nat) :
    padded (width + 1) n = padded width (n / 10) ++ [Nat.digitChar (n % 10)] := by
  unfold padded
  dsimp only
  by_cases hn : n < 10
  · obtain ⟨less, rfl⟩ : ∃ less, width = less + 1 := ⟨width - 1, by omega⟩
    rw [Nat.toDigits_of_lt_base hn, Nat.div_eq_of_lt hn, Nat.toDigits_zero, Nat.mod_eq_of_lt hn]
    simp [List.replicate_succ']
  · rw [Nat.toDigits_of_base_le (by decide) (Nat.le_of_not_lt hn)]
    simp

theorem padded_two {n : Nat} (hn : n < 100) :
    padded 2 n = [Nat.digitChar (n / 10), Nat.digitChar (n % 10)] := by
  have hall : ∀ n < 100, padded 2 n = [Nat.digitChar (n / 10), Nat.digitChar (n % 10)] := by decide
  exact hall n hn

theorem padded_four (n : Nat) :
    padded 4 n = padded 2 (n / 100) ++ padded 2 (n % 100) := by
  have hten : n / 10 / 10 = n / 100 := by omega
  have htens : n / 10 % 10 = n % 100 / 10 := by omega
  have hones : n % 10 = n % 100 % 10 := by omega
  rw [padded_append_digit (by decide), padded_append_digit (by decide),
    padded_two (n := n % 100) (by omega), hten, htens, hones]
  simp

theorem twoDigits?_padded {n : Nat} (hn : n < 100) (rest : List Char) :
    twoDigits? (padded 2 n ++ rest) = some (n, rest) := by
  have hdigit : ∀ n < 10, digit? (Nat.digitChar n) = some n := by decide
  have hsum : n / 10 * 10 + n % 10 = n := by omega
  simp [padded_two hn, twoDigits?, hdigit (n / 10) (by omega), hdigit (n % 10) (by omega), hsum]

theorem readDate?_printed {y m d : Nat} (h : isDate y m d = true) :
    readDate? (padded 4 y ++ '-' :: (padded 2 m ++ '-' :: (padded 2 d ++ rest))) =
      some ((y, m, d), rest) := by
  have hranges := h
  simp only [isDate, Bool.and_eq_true, decide_eq_true_eq] at hranges
  obtain ⟨⟨⟨⟨⟨_, hy⟩, _⟩, hm⟩, _⟩, hd⟩ := hranges
  have hlong : daysInMonth y m ≤ 31 := by
    unfold daysInMonth
    repeat' split
    all_goals decide
  have hsum : y / 100 * 100 + y % 100 = y := by omega
  rw [padded_four, readDate?]
  simp [twoDigits?_padded (n := y / 100) (by omega), twoDigits?_padded (n := y % 100) (by omega),
    twoDigits?_padded (n := m) (by omega), twoDigits?_padded (n := d) (by omega), hsum, h]

theorem isSome_digit?_of_mem {c : Char} {width n : Nat} (h : c ∈ padded width n) :
    (digit? c).isSome = true := by
  rcases List.mem_append.mp h with h | h
  · rw [List.eq_of_mem_replicate h]
    decide
  · have hdigit := Nat.isDigit_of_mem_toDigits (by decide) (by decide) h
    obtain ⟨hlow, hhigh⟩ := Bool.and_eq_true_iff.mp hdigit
    exact digit?_isSome.mpr ⟨of_decide_eq_true hlow, of_decide_eq_true hhigh⟩

theorem length_padded {width n : Nat} (hwidth : 0 < width) (h : n < 10 ^ width) :
    (padded width n).length = width := by
  have hlength := (Nat.length_toDigits_le_iff (b := 10) (by decide) hwidth).mpr h
  simp only [padded, List.length_append, List.length_replicate]
  omega

theorem microsOf_padded {micro : Nat} (h : micro < 1000000) : microsOf (padded 6 micro) = micro := by
  have hsix : (padded 6 micro ++ List.replicate 6 '0').take 6 = padded 6 micro :=
    List.take_left' (length_padded (by decide) h)
  have hvalue : Nat.ofDigitChars 10 (padded 6 micro) 0 = micro := by
    simp only [padded, Nat.ofDigitChars_append, Nat.ofDigitChars_replicate_zero, Nat.mul_zero,
      Nat.ofDigitChars_ten_toDigits]
  rw [microsOf, hsix]
  simpa [Nat.ofDigitChars_eq_foldl, Nat.mul_comm] using hvalue

/-- A time of day is read up to where an offset begins, which is no digit and no point. -/
theorem readTime?_printed {hour minute second micro : Nat} (hhour : hour ≤ 23)
    (hminute : minute ≤ 59) (hsecond : second ≤ 59) (hmicro : micro < 1000000)
    (hrest : ∀ c ∈ rest.head?, digit? c = none ∧ c ≠ '.' ∧ c ≠ ',') :
    readTime? (padded 2 hour ++ ':' :: (padded 2 minute ++ ':' :: (padded 2 second ++
      ((if micro = 0 then [] else '.' :: padded 6 micro) ++ rest)))) =
      some ((hour, minute, second, micro), rest) := by
  have hlong : (padded 6 micro).length = 6 := length_padded (by decide) hmicro
  have hdigits : (padded 6 micro ++ rest).takeWhile (fun c => (digit? c).isSome) = padded 6 micro := by
    rw [List.takeWhile_append_of_pos fun c hc => isSome_digit?_of_mem hc]
    cases rest with
    | nil => simp
    | cons c rest => simp [(hrest c rfl).1]
  have hsome : padded 6 micro ≠ [] := by
    rintro hnil
    simp [hnil] at hlong
  rw [readTime?]
  simp only [twoDigits?_padded (n := hour) (by omega), twoDigits?_padded (n := minute) (by omega),
    twoDigits?_padded (n := second) (by omega), Option.bind_eq_bind, Option.bind_some,
    List.head?_cons, beq_self_eq_true, if_true, List.drop_one, List.tail_cons, gt_iff_lt,
    Nat.not_lt.mpr hhour, Nat.not_lt.mpr hminute, Nat.not_lt.mpr hsecond, decide_false, Bool.or_self,
    if_false]
  by_cases hzero : micro = 0
  · cases rest with
    | nil => simp [hzero]
    | cons c rest => simp [hzero, hrest c rfl]
  · simp [hzero, hdigits, hsome, microsOf_padded hmicro]

theorem readOffset?_printed {offset : Option Int} (h : ∀ o ∈ offset, o % 60 = 0 ∧ o.natAbs ≤ 86340) :
    readOffset? (offsetText "Z" offset) = some offset := by
  cases offset with
  | none => rfl
  | some o =>
      obtain ⟨hminutes, hrange⟩ := h o rfl
      by_cases hzero : o = 0
      · subst hzero
        rfl
      · obtain ⟨m, hm⟩ : ∃ m, o.natAbs / 60 = m := ⟨_, rfl⟩
        have hhours : m / 60 ≤ 23 := by omega
        have hrest : m % 60 ≤ 59 := by omega
        have hread := twoDigits?_padded (n := m / 60) (by omega) (':' :: padded 2 (m % 60))
        have hread' := twoDigits?_padded (n := m % 60) (by omega) []
        rw [List.append_nil] at hread'
        by_cases hneg : o < 0
        · have ho : o = -(60 * m) := by omega
          simp [offsetText, hzero, hneg, hm, readOffset?, hread, hread', hhours, hrest]
          omega
        · have ho : o = 60 * m := by omega
          simp [offsetText, hzero, hneg, hm, readOffset?, hread, hread', hhours, hrest]
          omega

theorem offsetText_head (offset : Option Int) :
    ∀ c ∈ (offsetText "Z" offset).head?, digit? c = none ∧ c ≠ '.' ∧ c ≠ ',' := by
  cases offset with
  | none => simp [offsetText]
  | some o =>
      -- the offset begins with one of three characters
      have hhead : (offsetText "Z" (some o)).head? =
          some (if o = 0 then 'Z' else if o < 0 then '-' else '+') := by
        by_cases hzero : o = 0
        · subst hzero
          rfl
        · simp [offsetText, hzero]
      rw [hhead]
      rintro c ⟨⟩
      split
      · decide
      · split <;> decide

/-- The text of a point in time is read as that point. -/
theorem read_print (h : WellFormed t) : read? t.print = some t := by
  have htext : t.print.toList = padded 4 t.year ++ '-' :: (padded 2 t.month ++
      '-' :: (padded 2 t.day ++ 'T' :: (padded 2 t.hour ++ ':' :: (padded 2 t.minute ++
        ':' :: (padded 2 t.second ++ ((if t.micro = 0 then [] else '.' :: padded 6 t.micro) ++
          offsetText "Z" t.offset)))))) := by
    simp [print, printWith]
  have hcalendar : readCalendar? t.print.toList = some t := by
    rw [htext, readCalendar?]
    simp [readDate?_printed h.date, readTime?_printed h.hour h.minute h.second h.micro
      (offsetText_head t.offset), readOffset?_printed h.offset]
  rw [read?, hcalendar]
  rfl

/-! ## The characters of the text -/

theorem isAscii_padded (width n : Nat) : ∀ c ∈ padded width n, Text.IsAscii c := by
  intro c hc
  have hle : c.toNat ≤ 57 := (digit?_isSome.mp (isSome_digit?_of_mem hc)).2
  exact Nat.lt_of_le_of_lt hle (by decide)

theorem isAscii_offsetText (offset : Option Int) : ∀ c ∈ offsetText "Z" offset, Text.IsAscii c := by
  have hcolon : Text.IsAscii ':' := by decide
  unfold offsetText
  split
  · exact List.forall_mem_nil _
  · split
    · exact List.forall_mem_singleton.mpr (by decide)
    · have hsign : ∀ negative : Prop, [Decidable negative] →
          Text.IsAscii (if negative then '-' else '+') := by
        intro negative _
        split <;> decide
      simp only [List.cons_append, List.forall_mem_cons, List.forall_mem_append]
      exact ⟨hsign _, isAscii_padded _ _, hcolon, isAscii_padded _ _⟩

/-- A point in time is written with the first 128 characters. -/
theorem isAscii_print (t : Timestamp) : ∀ c ∈ t.print.toList, Text.IsAscii c := by
  have hmarks : Text.IsAscii '-' ∧ Text.IsAscii ':' ∧ Text.IsAscii 'T' ∧ Text.IsAscii '.' := by
    decide
  have hmicro : ∀ c ∈ if t.micro == 0 then [] else '.' :: padded 6 t.micro, Text.IsAscii c := by
    split
    · exact List.forall_mem_nil _
    · exact List.forall_mem_cons.mpr ⟨hmarks.2.2.2, isAscii_padded _ _⟩
  rw [print, String.toList_ofList, printWith]
  simp only [List.cons_append, List.append_assoc, List.forall_mem_cons, List.forall_mem_append,
    hmarks, true_and]
  exact ⟨isAscii_padded _ _, isAscii_padded _ _, isAscii_padded _ _, isAscii_padded _ _,
    isAscii_padded _ _, isAscii_padded _ _, hmicro, isAscii_offsetText _⟩

end Runbook.Timestamp

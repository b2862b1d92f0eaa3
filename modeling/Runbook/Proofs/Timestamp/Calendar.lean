import Runbook.Timestamp.Basic

/-!
# Counted days are dates

A day is counted within 400 years that start with March. Such a day stands in a century, in four
years of it, in one of these and in that year (`exists_isDay`), only the last of four years having a
366th day. `dateOfDays` finds these numbers, so that all days from the year 1600 to the year 9999 are
those of dates (`isDate_dateOfDays`).
-/

set_option autoImplicit false

namespace Runbook.Timestamp

/-! ## Days of 400 years -/

/-- A century of 400 years, four years of it, a year of these, and a day of that year. -/
structure IsDay (c q k d : Nat) : Prop where
  century : c ≤ 3
  quarter : q ≤ 24
  rest : k ≤ 3
  day : d ≤ 365
  last : d = 365 → k = 3 ∧ (q = 24 → c = 3)

theorem exists_isDay {day : Nat} (h : day < 146097) :
    ∃ c q k d, IsDay c q k d ∧ day = 36524 * c + 1461 * q + 365 * k + d := by
  obtain ⟨c, r, hday, hc, hr⟩ : ∃ c r, day = 36524 * c + r ∧ c ≤ 3 ∧
      (r ≤ 36523 ∨ c = 3 ∧ r = 36524) :=
    ⟨min (day / 36524) 3, day - 36524 * min (day / 36524) 3, by omega, by omega, by omega⟩
  obtain ⟨q, s, hr', hq, hs⟩ : ∃ q s, r = 1461 * q + s ∧ q ≤ 24 ∧ s ≤ 1460 :=
    ⟨r / 1461, r % 1461, by omega, by omega, by omega⟩
  obtain ⟨k, d, hs', hk, hd⟩ : ∃ k d, s = 365 * k + d ∧ k ≤ 3 ∧ (d ≤ 364 ∨ k = 3 ∧ d = 365) :=
    ⟨min (s / 365) 3, s - 365 * min (s / 365) 3, by omega, by omega, by omega⟩
  exact ⟨c, q, k, d, ⟨hc, hq, hk, by omega, by omega⟩, by omega⟩

theorem yearOfEra_eq {c q k d day : Nat} (h : IsDay c q k d)
    (hday : day = 36524 * c + 1461 * q + 365 * k + d) :
    (day - day / 1460 + day / 36524 - day / 146096) / 365 = 100 * c + 4 * q + k := by
  obtain ⟨hc, hq, hk, hd, hleap⟩ := h
  have hlast : 1461 * q + 365 * k + d ≤ 36523 ∨ c = 3 ∧ 1461 * q + 365 * k + d = 36524 := by
    by_cases hq' : q ≤ 23
    · omega
    by_cases hd' : d ≤ 364 <;> omega
  -- only the very last day is more than its century has
  have hsame : day / 36524 = c + day / 146096 := by
    rcases hlast with hlast | ⟨rfl, hlast⟩
    · have hone : day / 146096 = 0 := by omega
      have hcentury : day / 36524 = c := by omega
      omega
    · have hone : day = 146096 := by omega
      subst hone
      decide
  have hquarter : day / 1460 = 25 * c + q + if 24 * c + q + 365 * k + d < 1460 then 0 else 1 := by
    split <;> omega
  split at hquarter <;> omega

theorem dayOfYear_eq {c q k d day : Nat} (h : IsDay c q k d)
    (hday : day = 36524 * c + 1461 * q + 365 * k + d) :
    day - (365 * (100 * c + 4 * q + k) + (100 * c + 4 * q + k) / 4 - (100 * c + 4 * q + k) / 100) =
      d := by
  obtain ⟨hc, hq, hk, _, _⟩ := h
  have hquarter : (100 * c + 4 * q + k) / 4 = 25 * c + q := by omega
  have hcentury : (100 * c + 4 * q + k) / 100 = c := by omega
  omega

/-- A year with a 366th day is one before a leap year. -/
theorem isLeap_of_isDay {c q k : Nat} (h : IsDay c q k 365) (eras : Nat) :
    isLeap (100 * c + 4 * q + k + eras * 400 + 1) = true := by
  obtain ⟨rfl, hlast⟩ := h.last rfl
  have hq := h.quarter
  clear h
  have hquarter : (100 * c + 4 * q + 3 + eras * 400 + 1) % 4 = 0 := by
    clear hlast
    omega
  have hcentury : (100 * c + 4 * q + 3 + eras * 400 + 1) % 100 ≠ 0 ∨
      (100 * c + 4 * q + 3 + eras * 400 + 1) % 400 = 0 := by
    clear hquarter
    by_cases hq' : q = 24
    · rw [hlast hq', hq']
      right
      omega
    · left
      omega
  simpa [isLeap, hquarter] using hcentury

/-! ## Months -/

theorem daysInMonth_le {year year' : Nat} (h : isLeap year = true → isLeap year' = true)
    (month : Nat) : daysInMonth year month ≤ daysInMonth year' month := by
  unfold daysInMonth
  cases hleap : isLeap year with
  | true => simp [h hleap]
  | false => repeat' split <;> simp_all

/-- The month of a day of a year that starts with March. -/
def monthOfDay (day : Nat) : Nat :=
  if (5 * day + 2) / 153 < 10 then (5 * day + 2) / 153 + 3 else (5 * day + 2) / 153 - 9

theorem monthOfDay_bounds {day : Nat} (h : day ≤ 365) : 1 ≤ monthOfDay day ∧ monthOfDay day ≤ 12 := by
  unfold monthOfDay
  split <;> omega

theorem dayOfMonth_le {day : Nat} (hday : day ≤ 365) {year : Nat}
    (hleap : day = 365 → isLeap year = true) :
    day - (153 * ((5 * day + 2) / 153) + 2) / 5 + 1 ≤ daysInMonth year (monthOfDay day) := by
  -- the days of a leap year and those of another one
  have hall : ∀ day < 366, day - (153 * ((5 * day + 2) / 153) + 2) / 5 + 1 ≤
      daysInMonth (if day = 365 then 4 else 1) (monthOfDay day) := by
    decide +kernel
  refine Nat.le_trans (hall day (by omega)) (daysInMonth_le (fun h => hleap ?_) _)
  by_cases hlast : day = 365
  · exact hlast
  · rw [if_neg hlast] at h
    cases h

/-! ## Dates -/

theorem dateOfDays_eq {days : Int} {n c q k d : Nat} (hn : days + 719468 = n) (h : IsDay c q k d)
    (hday : n % 146097 = 36524 * c + 1461 * q + 365 * k + d) :
    dateOfDays days =
      (100 * c + 4 * q + k + n / 146097 * 400 + (if monthOfDay d ≤ 2 then 1 else 0), monthOfDay d,
        d - (153 * ((5 * d + 2) / 153) + 2) / 5 + 1) := by
  have hera : Int.fdiv (n : Int) 146097 = (n / 146097 : Nat) := by
    rw [Int.fdiv_eq_ediv_of_nonneg _ (by decide)]
    rfl
  have hrest : ((n : Int) - (n / 146097 : Nat) * 146097).toNat = n % 146097 := by omega
  have hyear : ∀ year : Nat, (Int.ofNat year + (n / 146097 : Nat) * 400).toNat =
      year + n / 146097 * 400 := by
    intro year
    show ((year : Int) + (n / 146097 : Nat) * 400).toNat = year + n / 146097 * 400
    omega
  simp only [dateOfDays, hn, hera, hrest, yearOfEra_eq h hday, dayOfYear_eq h hday, hyear,
    monthOfDay]
  rfl

theorem year_le {n c q k d : Nat} (hn : n ≤ 3652364) (h : IsDay c q k d)
    (hday : n % 146097 = 36524 * c + 1461 * q + 365 * k + d) :
    100 * c + 4 * q + k + n / 146097 * 400 + (if monthOfDay d ≤ 2 then 1 else 0) ≤ 9999 := by
  have heras : n / 146097 ≤ 23 ∨ n / 146097 = 24 ∧ n % 146097 ≤ 146036 := by omega
  generalize n / 146097 = eras at heras
  have hmonth : (if monthOfDay d ≤ 2 then 1 else 0) ≤ 1 := by split <;> decide
  obtain ⟨hc, hq, hk, hd, _⟩ := h
  rcases heras with heras | ⟨heras, hend⟩
  · clear hday hn
    omega
  · -- in the last 400 years, the last year ends with December
    by_cases hyear : 100 * c + 4 * q + k ≤ 398
    · clear hday hn
      omega
    · have hlate : monthOfDay d = 12 ∨ 3 ≤ monthOfDay d := by
        have hd' : d ≤ 305 := by omega
        unfold monthOfDay
        split <;> omega
      rw [if_neg (by omega)]
      clear hday hn
      omega

/-- The days from the year 1600 to the year 9999 are those of dates. -/
theorem isDate_dateOfDays {days : Int} (hlow : -135140 ≤ days) (hhigh : days ≤ 2932896) :
    isDate (dateOfDays days).1 (dateOfDays days).2.1 (dateOfDays days).2.2 = true := by
  obtain ⟨n, hn⟩ : ∃ n : Nat, days + 719468 = n := ⟨(days + 719468).toNat, by omega⟩
  obtain ⟨c, q, k, d, h, hday⟩ := exists_isDay (Nat.mod_lt n (by decide : 0 < 146097))
  have hleap : d = 365 → isLeap (100 * c + 4 * q + k + n / 146097 * 400 +
      (if monthOfDay d ≤ 2 then 1 else 0)) = true := by
    rintro rfl
    rw [if_pos (by decide)]
    exact isLeap_of_isDay h (n / 146097)
  have hlater : 3 ≤ n / 146097 := by omega
  simp only [dateOfDays_eq hn h hday, isDate, Bool.and_eq_true, decide_eq_true_eq]
  refine ⟨⟨⟨⟨⟨?_, year_le (by omega) h hday⟩, (monthOfDay_bounds h.day).1⟩,
    (monthOfDay_bounds h.day).2⟩, Nat.le_add_left ..⟩, dayOfMonth_le h.day hleap⟩
  clear hday hn hleap
  omega

end Runbook.Timestamp

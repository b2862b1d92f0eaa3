import Runbook.Number.Shortest
import Runbook.Proofs.Number.Rounding

/-!
# The fewest digits are nearest

The interval that `Binary.shortest` searches is that of the quotients nearest to the number
(`holds_iff`), and the search comes to a grid that has a point in it: the steps of the grids shrink
to a tenth from one to the next, and a step of a quarter of the number's last place cannot miss
(`isSome_gridHit`), which is reached before the fuel is used up. So the decimal that is found is nearest
to the number (`near_shortest`), and leaving out zeros at its end does not change it (`dropZeros_eq`).
A decimal that is nearest to a number is rounded to it (`ofDecimal_of_near`).
-/

set_option autoImplicit false

namespace Runbook.Binary

variable {m k n d : Nat} {q step : Int}

theorem ten_zpow_pos (step : Int) : (0 : ℚ) < 10 ^ step := zpow_pos (by norm_num) step

/-- A power with any exponent as a quotient of powers with natural ones. -/
theorem div_pow_eq_zpow {b : Nat} (hb : 0 < b) (e : Int) :
    (((if e ≥ 0 then Nat.pow b e.toNat else 1 : Nat) : ℚ)) /
      ((if e ≥ 0 then 1 else Nat.pow b (-e).toNat : Nat) : ℚ) = (b : ℚ) ^ e := by
  have hbq : (b : ℚ) ≠ 0 := by exact_mod_cast hb.ne'
  split
  · rename_i he
    obtain ⟨j, rfl⟩ := Int.eq_ofNat_of_zero_le he
    rw [Int.toNat_natCast, Nat.cast_one, div_one, zpow_natCast]
    push_cast [Nat.pow_eq]
    rfl
  · rename_i he
    obtain ⟨j, rfl⟩ : ∃ j : Nat, e = -(j : Int) := ⟨(-e).toNat, by omega⟩
    rw [neg_neg, Int.toNat_natCast, zpow_neg, zpow_natCast, Nat.cast_one, one_div]
    push_cast [Nat.pow_eq]
    rfl

/-! ## The interval -/

theorem denominator_pos (m : Nat) (q : Int) : 0 < (interval m q).denominator := by
  show 0 < 4 * (if q ≥ 0 then 1 else Nat.pow 2 (-q).toNat)
  split
  · decide
  · exact Nat.mul_pos (by decide) (Nat.pow_pos (by decide))

theorem value_eq (m : Nat) (q : Int) :
    ((interval m q).value : ℚ) / (interval m q).denominator = m * 2 ^ q := by
  have hpow := div_pow_eq_zpow (b := 2) (by decide) q
  rw [interval]
  push_cast at hpow ⊢
  rw [← hpow]
  ring

/-- The reach below a number in quarters of its last place. -/
theorem cast_low (hm : 0 < m) (q : Int) :
    ((4 * m - (if m == Nat.pow 2 52 && q > -1074 then 1 else 2) : Nat) : ℚ) =
      4 * (m - reach m q) := by
  unfold reach
  by_cases hnarrow : m = 2 ^ 52 ∧ -1074 < q
  · have hcond : (m == Nat.pow 2 52 && decide (q > -1074)) = true := by
      simpa using hnarrow
    rw [if_pos hnarrow, if_pos hcond, Nat.cast_sub (by omega)]
    push_cast
    ring
  · have hcond : ¬(m == Nat.pow 2 52 && decide (q > -1074)) = true := by
      simpa using hnarrow
    rw [if_neg hnarrow, if_neg hcond, Nat.cast_sub (by omega)]
    push_cast
    ring

theorem low_eq (hm : 0 < m) (q : Int) :
    ((interval m q).low : ℚ) / (interval m q).denominator = (m - reach m q) * 2 ^ q := by
  have hpow := div_pow_eq_zpow (b := 2) (by decide) q
  rw [interval]
  dsimp only
  rw [Nat.cast_mul, cast_low hm]
  push_cast at hpow ⊢
  rw [← hpow]
  ring

theorem high_eq (m : Nat) (q : Int) :
    ((interval m q).high : ℚ) / (interval m q).denominator = (m + 1 / 2) * 2 ^ q := by
  have hpow := div_pow_eq_zpow (b := 2) (by decide) q
  rw [interval]
  push_cast at hpow ⊢
  rw [← hpow]
  ring

/-- A decimal lies in the interval exactly if it is nearest to the number. -/
theorem holds_iff (hm : 0 < m) (hd : 0 < d) :
    (interval m q).holds n d = true ↔ Near m q ((n : ℚ) / d) := by
  have hdq : (0 : ℚ) < d := by exact_mod_cast hd
  have hden : (0 : ℚ) < (interval m q).denominator := by exact_mod_cast denominator_pos m q
  have hle : ∀ a b c e : Nat, (0 : ℚ) < c → (0 : ℚ) < e →
      (a * e ≤ b * c ↔ (a : ℚ) / c ≤ b / e) := by
    intro a b c e hc he
    rw [div_le_div_iff₀ hc he]
    exact_mod_cast Iff.rfl
  have hlt : ∀ a b c e : Nat, (0 : ℚ) < c → (0 : ℚ) < e →
      (a * e < b * c ↔ (a : ℚ) / c < b / e) := by
    intro a b c e hc he
    rw [div_lt_div_iff₀ hc he]
    exact_mod_cast Iff.rfl
  have hclosed : (interval m q).closed = (m % 2 == 0) := rfl
  unfold Interval.holds
  dsimp only
  split
  · rename_i heven
    rw [hclosed, beq_iff_eq] at heven
    simp only [Bool.and_eq_true, decide_eq_true_eq, hle _ _ _ _ hden hdq, hle _ _ _ _ hdq hden,
      low_eq hm, high_eq]
    constructor
    · rintro ⟨hlow, hhigh⟩
      exact ⟨hlow, hhigh, fun hodd => by omega⟩
    · intro h
      exact ⟨h.low, h.high⟩
  · rename_i hodd
    rw [hclosed, beq_iff_eq] at hodd
    simp only [Bool.and_eq_true, decide_eq_true_eq, hlt _ _ _ _ hden hdq, hlt _ _ _ _ hdq hden,
      low_eq hm, high_eq]
    constructor
    · rintro ⟨hlow, hhigh⟩
      exact ⟨hlow.le, hhigh.le, fun _ => ⟨hlow.ne, hhigh.ne⟩⟩
    · intro h
      obtain ⟨hlow, hhigh⟩ := h.odd (by omega)
      exact ⟨lt_of_le_of_ne h.low hlow, lt_of_le_of_ne h.high hhigh⟩

/-! ## The grids -/

/-- Numerator and denominator of the step of a grid. -/
theorem exists_scale (step : Int) : ∃ up down : Nat, 0 < up ∧ 0 < down ∧
    (if step ≥ 0 then Nat.pow 10 step.toNat else 1) = up ∧
    (if step ≥ 0 then 1 else Nat.pow 10 (-step).toNat) = down ∧
    (up : ℚ) / down = 10 ^ step := by
  have hpow := div_pow_eq_zpow (b := 10) (by decide) step
  have hten : ∀ j, 0 < Nat.pow 10 j := fun j => Nat.pow_pos (by decide)
  refine ⟨_, _, ?_, ?_, rfl, rfl, hpow⟩
  · split
    · exact hten _
    · exact Nat.one_pos
  · split
    · exact Nat.one_pos
    · exact hten _

/-- A point of a grid lies in the interval exactly if it is nearest to the number. -/
theorem holds_point_iff (hm : 0 < m) {up down : Nat} (hdown : 0 < down)
    (hstep : (up : ℚ) / down = 10 ^ step) (k : Nat) :
    (interval m q).holds (k * up) down = true ↔ Near m q (k * 10 ^ step) := by
  rw [holds_iff hm hdown, Nat.cast_mul, mul_div_assoc, hstep]

/-- What is found on a grid is nearest to the number. -/
theorem near_of_gridHit (hm : 0 < m) (h : gridHit (interval m q) step = some k) :
    0 < k ∧ Near m q (k * 10 ^ step) := by
  obtain ⟨up, down, -, hdown, hup', hdown', hstep⟩ := exists_scale step
  have hpoint := holds_point_iff (q := q) hm hdown hstep
  unfold gridHit at h
  rw [hup', hdown'] at h
  dsimp only at h
  generalize (interval m q).value * down / ((interval m q).denominator * up) = floor at h
  split at h
  · rename_i hbelow habove
    rw [Bool.and_eq_true, bne_iff_ne] at hbelow
    split at h
    · cases h
      exact ⟨Nat.pos_of_ne_zero hbelow.2, (hpoint _).1 hbelow.1⟩
    · cases h
      exact ⟨Nat.succ_pos _, (hpoint _).1 habove⟩
  · rename_i hbelow habove
    rw [Bool.and_eq_true, bne_iff_ne] at hbelow
    cases h
    exact ⟨Nat.pos_of_ne_zero hbelow.2, (hpoint _).1 hbelow.1⟩
  · rename_i hbelow habove
    cases h
    exact ⟨Nat.succ_pos _, (hpoint _).1 habove⟩
  · cases h

/-- The number lies between two neighbouring points of a grid. -/
theorem floor_bounds (m : Nat) (q : Int) {up down : Nat} (hup : 0 < up) (hdown : 0 < down)
    (hstep : (up : ℚ) / down = 10 ^ step) {floor : Nat}
    (hfloor : (interval m q).value * down / ((interval m q).denominator * up) = floor) :
    (floor : ℚ) * 10 ^ step ≤ m * 2 ^ q ∧ (m : ℚ) * 2 ^ q < (floor + 1) * 10 ^ step := by
  have hden := denominator_pos m q
  have hdenq : (0 : ℚ) < (interval m q).denominator := by exact_mod_cast hden
  have hdownq : (0 : ℚ) < down := by exact_mod_cast hdown
  have hle := Nat.div_mul_le_self ((interval m q).value * down) ((interval m q).denominator * up)
  have hlt := Nat.lt_div_mul_add (a := (interval m q).value * down)
    (b := (interval m q).denominator * up) (Nat.mul_pos hden hup)
  rw [hfloor] at hle hlt
  have hle' : (floor : ℚ) * ((interval m q).denominator * up) ≤ (interval m q).value * down := by
    exact_mod_cast hle
  have hlt' : ((interval m q).value * down : ℚ) <
      floor * ((interval m q).denominator * up) + (interval m q).denominator * up := by
    exact_mod_cast hlt
  rw [← value_eq, ← hstep]
  constructor
  · rw [mul_div_assoc', div_le_div_iff₀ hdownq hdenq]
    linarith
  · rw [mul_div_assoc', div_lt_div_iff₀ hdenq hdownq]
    linarith

/-- A grid whose step is at most a quarter of the last place of the number has a point in the interval. -/
theorem isSome_gridHit (h : Normal m q) (hfine : (10 : ℚ) ^ step ≤ 2 ^ q / 4) :
    (gridHit (interval m q) step).isSome = true := by
  obtain ⟨up, down, hup, hdown, hup', hdown', hstep⟩ := exists_scale step
  have hpoint := holds_point_iff (q := q) h.pos hdown hstep
  unfold gridHit
  rw [hup', hdown']
  dsimp only
  generalize hfloor : (interval m q).value * down / ((interval m q).denominator * up) = floor
  obtain ⟨hbelow, habove⟩ := floor_bounds m q hup hdown hstep hfloor
  have hten := ten_zpow_pos step
  have htwo := two_zpow_pos q
  have hone : (1 : ℚ) ≤ m := by exact_mod_cast h.pos
  have hvalue : (2 : ℚ) ^ q ≤ m * 2 ^ q := le_mul_of_one_le_left htwo.le hone
  have hquarter : (m - reach m q) * (2 : ℚ) ^ q ≤ m * 2 ^ q - 2 ^ q / 4 := by
    have hreach : 1 / 4 ≤ reach m q := by
      unfold reach
      split <;> norm_num
    have := mul_le_mul_of_nonneg_right hreach htwo.le
    linarith
  -- the point below the number is less than a step away from it
  have hnear : Near m q (floor * 10 ^ step) := by
    have hlow : (m - reach m q) * (2 : ℚ) ^ q < floor * 10 ^ step := by linarith
    have hhigh : (floor : ℚ) * 10 ^ step < (m + 1 / 2) * 2 ^ q := by linarith
    exact ⟨hlow.le, hhigh.le, fun _ => ⟨hlow.ne, hhigh.ne⟩⟩
  have hne : floor ≠ 0 := by
    rintro rfl
    push_cast at habove
    linarith
  rw [(hpoint floor).2 hnear, Bool.true_and, bne_iff_ne.2 hne]
  cases (interval m q).holds ((floor + 1) * up) down <;> rfl

/-! ## The search -/

/-- The search ends on the first grid with a point, if there is one within its reach. -/
theorem gridHit_searchGrid {i : Interval} {fuel j : Nat} (hj : j ≤ fuel)
    (h : (gridHit i (step - j)).isSome = true) :
    gridHit i (searchGrid i fuel step).2 = some (searchGrid i fuel step).1 := by
  -- by induction on the fuel; each grid without a point takes one from both
  induction fuel generalizing j step with
  | zero =>
      obtain rfl : j = 0 := Nat.le_zero.1 hj
      obtain ⟨k, hk⟩ := Option.isSome_iff_exists.1 h
      rw [Nat.cast_zero, sub_zero] at hk
      rw [searchGrid, hk]
      rfl
  | succ fuel ih =>
      rw [searchGrid]
      cases hhit : gridHit i step with
      | some k => exact hhit
      | none =>
          cases j with
          | zero =>
              rw [Nat.cast_zero, sub_zero, hhit] at h
              cases h
          | succ j =>
              apply ih (Nat.le_of_succ_le_succ hj)
              rwa [Nat.cast_succ, add_comm, ← sub_sub] at h

theorem lt_pow_digitCount (n : Nat) : n < 10 ^ digitCount n := by
  have hpos : 0 < digitCount n := List.length_pos_iff.2 Nat.toDigits_ne_nil
  exact (Nat.length_toDigits_le_iff (by decide) hpos).1 (le_refl _)

theorem pow_le_of_digitCount (hn : 0 < n) : 10 ^ (digitCount n - 1) ≤ n := by
  by_cases hone : digitCount n - 1 = 0
  · rw [hone]
    exact hn
  · have hpos : 0 < digitCount n - 1 := Nat.pos_of_ne_zero hone
    have hlong : ¬(Nat.toDigits 10 n).length ≤ digitCount n - 1 := by
      show ¬digitCount n ≤ digitCount n - 1
      omega
    rw [Nat.length_toDigits_le_iff (by decide) hpos] at hlong
    exact Nat.not_lt.1 hlong

/-- The coarsest grid is not much coarser than the number is large. -/
theorem leading_le (hm : 0 < m) (q : Int) :
    (10 : ℚ) ^ ((if (interval m q).value ≥ (interval m q).denominator then
      (digitCount ((interval m q).value / (interval m q).denominator) : Int)
      else 1 - (digitCount ((interval m q).denominator / max (interval m q).value 1) : Int) + 1) - 2) ≤
        m * 2 ^ q := by
  have hden := denominator_pos m q
  have hvalue := value_eq m q
  have hpositive : (0 : ℚ) < m * 2 ^ q := by
    have hmq : (0 : ℚ) < m := by exact_mod_cast hm
    exact mul_pos hmq (two_zpow_pos q)
  generalize (interval m q).value = n at hvalue ⊢
  generalize (interval m q).denominator = d at hden hvalue ⊢
  have hdq : (0 : ℚ) < d := by exact_mod_cast hden
  have hn : 0 < n := by
    rcases Nat.eq_zero_or_pos n with rfl | hn
    · rw [← hvalue] at hpositive
      simp at hpositive
    · exact hn
  have hnq : (0 : ℚ) < n := by exact_mod_cast hn
  rw [← hvalue]
  split
  · rename_i hlarge
    have hquotient : 0 < n / d := Nat.div_pos hlarge hden
    have hpow : (10 : ℚ) ^ (digitCount (n / d) - 1) ≤ (n / d : Nat) := by
      exact_mod_cast pow_le_of_digitCount hquotient
    have hcount : 0 < digitCount (n / d) := List.length_pos_iff.2 Nat.toDigits_ne_nil
    calc (10 : ℚ) ^ ((digitCount (n / d) : Int) - 2) ≤ 10 ^ ((digitCount (n / d) - 1 : Nat) : Int) :=
          zpow_le_zpow_right₀ (by norm_num) (by omega)
      _ = 10 ^ (digitCount (n / d) - 1) := zpow_natCast _ _
      _ ≤ (n / d : Nat) := hpow
      _ ≤ n / d := by
          rw [le_div_iff₀ hdq]
          exact_mod_cast Nat.div_mul_le_self n d
  · rw [max_eq_left (show 1 ≤ n from hn)]
    have hpow : ((d / n : Nat) : ℚ) + 1 ≤ 10 ^ digitCount (d / n) := by
      have := lt_pow_digitCount (d / n)
      exact_mod_cast Nat.succ_le_of_lt this
    have hlt : (d : ℚ) < (d / n : Nat) * n + n := by
      exact_mod_cast Nat.lt_div_mul_add hn
    have hexponent : 1 - (digitCount (d / n) : Int) + 1 - 2 = -(digitCount (d / n) : Int) := by ring
    have hten : (0 : ℚ) < 10 ^ digitCount (d / n) := by positivity
    rw [hexponent, zpow_neg, zpow_natCast, inv_eq_one_div, div_le_div_iff₀ hten hdq, one_mul]
    have hmul := mul_le_mul_of_nonneg_right hpow hnq.le
    linarith

/-- The shortest decimal of a number is nearest to it. -/
theorem near_shortest (h : Normal m q) :
    0 < (shortest m q).1 ∧ Near m q ((shortest m q).1 * 10 ^ (shortest m q).2) := by
  have hleading := leading_le h.pos q
  unfold shortest
  dsimp only
  generalize (if (interval m q).value ≥ (interval m q).denominator then
      (digitCount ((interval m q).value / (interval m q).denominator) : Int)
      else 1 - (digitCount ((interval m q).denominator / max (interval m q).value 1) : Int) + 1) =
        leading at hleading ⊢
  have hlt : (m : ℚ) ≤ 2 ^ 53 := by exact_mod_cast h.lt.le
  have hfine : (10 : ℚ) ^ (leading + 1 - (20 : Nat)) ≤ 2 ^ q / 4 := by
    have hsplit : (10 : ℚ) ^ (leading + 1 - (20 : Nat)) = 10 ^ (leading - 2) / 10 ^ 17 := by
      rw [show leading + 1 - ((20 : Nat) : Int) = leading - 2 - ((17 : Nat) : Int) by
        push_cast; ring, zpow_sub₀ (by norm_num), zpow_natCast]
    have hmul := mul_le_mul_of_nonneg_right hlt (two_zpow_pos q).le
    have hbound : (2 : ℚ) ^ 53 * 2 ^ q / 10 ^ 17 ≤ 2 ^ q / 4 := by
      have := two_zpow_pos q
      rw [div_le_div_iff₀ (by norm_num) (by norm_num)]
      linarith
    rw [hsplit]
    calc (10 : ℚ) ^ (leading - 2) / 10 ^ 17 ≤ 2 ^ 53 * 2 ^ q / 10 ^ 17 := by
          gcongr
          exact hleading.trans hmul
      _ ≤ 2 ^ q / 4 := hbound
  exact near_of_gridHit h.pos (gridHit_searchGrid (by decide) (isSome_gridHit h hfine))

/-- Leaving out zeros at the end does not change a decimal. -/
theorem dropZeros_eq (fuel k : Nat) (step : Int) (hk : 0 < k) :
    0 < (dropZeros fuel k step).1 ∧
      ((dropZeros fuel k step).1 : ℚ) * 10 ^ (dropZeros fuel k step).2 = k * 10 ^ step := by
  induction fuel generalizing k step with
  | zero => exact ⟨hk, rfl⟩
  | succ fuel ih =>
      rw [dropZeros]
      split
      · rename_i hzero
        rw [Bool.and_eq_true, bne_iff_ne, beq_iff_eq] at hzero
        have htenth : k / 10 * 10 = k := by omega
        obtain ⟨hpos, heq⟩ := ih (k / 10) (step + 1) (by omega)
        refine ⟨hpos, heq.trans ?_⟩
        have hcast : ((k / 10 : Nat) : ℚ) * 10 = k := by exact_mod_cast htenth
        rw [zpow_add₀ (by norm_num), zpow_one, ← hcast]
        ring
      · exact ⟨hk, rfl⟩

/-- The text of a number is the layout of a decimal that is nearest to it. -/
theorem exists_finiteText_eq (h : Normal m q) (negative : Bool) :
    ∃ (k : Nat) (step : Int), 0 < k ∧ Near m q (k * 10 ^ step) ∧
      finiteText negative m q = String.ofList ((if negative then ['-'] else []) ++
        layout (Nat.toDigits 10 k) ((Nat.toDigits 10 k).length + step)) := by
  obtain ⟨hpos, hnear⟩ := near_shortest h
  obtain ⟨hpos', hdropped⟩ := dropZeros_eq 400 _ (shortest m q).2 hpos
  rw [← hdropped] at hnear
  have hm : ¬(m == 0) = true := by
    rw [beq_iff_eq]
    exact h.pos.ne'
  refine ⟨_, _, hpos', hnear, ?_⟩
  unfold finiteText
  dsimp only
  rw [if_neg hm]

/-! ## Decimals -/

/-- The size of a decimal by its digits and its exponent. -/
theorem decimal_bounds (hd : 0 < d) (e : Int) :
    (10 : ℚ) ^ ((digitCount d : Int) + e - 1) ≤ d * 10 ^ e ∧
      (d : ℚ) * 10 ^ e < 10 ^ ((digitCount d : Int) + e) := by
  have hcount : 0 < digitCount d := List.length_pos_iff.2 Nat.toDigits_ne_nil
  have hlow : (10 : ℚ) ^ (digitCount d - 1) ≤ d := by exact_mod_cast pow_le_of_digitCount hd
  have hhigh : (d : ℚ) < 10 ^ digitCount d := by exact_mod_cast lt_pow_digitCount d
  constructor
  · rw [show (digitCount d : Int) + e - 1 = ((digitCount d - 1 : Nat) : Int) + e by omega,
      zpow_add₀ (by norm_num), zpow_natCast]
    exact mul_le_mul_of_nonneg_right hlow (ten_zpow_pos e).le
  · rw [zpow_add₀ (by norm_num), zpow_natCast]
    exact mul_lt_mul_of_pos_right hhigh (ten_zpow_pos e)

/-- What is near to a number is neither so large nor so small that its digits are not looked at. -/
theorem Near.size_bounds (h : Normal m q) (hd : 0 < d) {e : Int} (hnear : Near m q (d * 10 ^ e)) :
    -330 ≤ (digitCount d : Int) + e ∧ (digitCount d : Int) + e ≤ 310 := by
  obtain ⟨hlow, hhigh⟩ := decimal_bounds hd e
  have hpos := two_zpow_pos q
  have hten : (1 : ℚ) < 10 := by norm_num
  constructor
  · have hone : (1 : ℚ) ≤ m := by exact_mod_cast h.pos
    have hleast : (2 : ℚ) ^ (-1074 : Int) ≤ 2 ^ q := zpow_le_zpow_right₀ (by norm_num) h.least
    have hhalf : (1 / 2) * (2 : ℚ) ^ q ≤ (m - reach m q) * 2 ^ q := by
      have := reach_le m q
      exact mul_le_mul_of_nonneg_right (by linarith) hpos.le
    have hsmall : (10 : ℚ) ^ (-330 : Int) < (1 / 2) * 2 ^ (-1074 : Int) := by
      have hnat : 2 ^ 1074 * 2 < 10 ^ 330 := by decide +kernel
      have hcast : (2 : ℚ) ^ 1074 * 2 < 10 ^ 330 := by exact_mod_cast hnat
      rw [zpow_neg, zpow_neg, one_div, ← mul_inv, mul_comm]
      exact inv_strictAnti₀ (by positivity) hcast
    have hlt : (10 : ℚ) ^ (-330 : Int) < 10 ^ ((digitCount d : Int) + e) := by
      have := hnear.low
      linarith
    exact ((zpow_lt_zpow_iff_right₀ hten).1 hlt).le
  · have hmant : (m : ℚ) + 1 / 2 ≤ 2 ^ 53 := by
      have : (m : ℚ) + 1 ≤ 2 ^ 53 := by exact_mod_cast h.lt
      linarith
    have hgreatest : (2 : ℚ) ^ q ≤ 2 ^ (971 : Int) := zpow_le_zpow_right₀ (by norm_num) h.greatest
    have hlarge : (2 : ℚ) ^ 53 * 2 ^ (971 : Int) < 10 ^ (310 : Int) := by
      have hnat : 2 ^ 53 * 2 ^ 971 < 10 ^ 310 := by decide +kernel
      exact_mod_cast hnat
    have hlt : (10 : ℚ) ^ ((digitCount d : Int) + e - 1) < 10 ^ (310 : Int) := by
      calc (10 : ℚ) ^ ((digitCount d : Int) + e - 1) ≤ d * 10 ^ e := hlow
        _ ≤ (m + 1 / 2) * 2 ^ q := hnear.high
        _ ≤ 2 ^ 53 * 2 ^ (971 : Int) := by gcongr
        _ < 10 ^ (310 : Int) := hlarge
    have := (zpow_lt_zpow_iff_right₀ hten).1 hlt
    omega

/-- A decimal is rounded to the number to which it is nearest. -/
theorem ofDecimal_of_near (h : Normal m q) (hd : 0 < d) {e : Int} (hnear : Near m q (d * 10 ^ e))
    (negative : Bool) : ofDecimal negative d e = .finite negative m q := by
  obtain ⟨hleast, hgreatest⟩ := hnear.size_bounds h hd
  unfold ofDecimal
  dsimp only
  rw [if_neg (by simpa using hd.ne'), if_neg (Int.not_lt.2 hgreatest),
    if_neg (Int.not_lt.2 hleast)]
  split
  · rename_i he
    obtain ⟨k, rfl⟩ := Int.eq_ofNat_of_zero_le he
    apply ofRatio_of_near h Nat.one_pos
    rw [zpow_natCast] at hnear
    rw [Int.toNat_natCast, Nat.cast_one, div_one]
    push_cast [Nat.pow_eq]
    exact hnear
  · rename_i he
    obtain ⟨k, rfl⟩ : ∃ k : Nat, e = -(k : Int) := ⟨(-e).toNat, by omega⟩
    apply ofRatio_of_near h (Nat.pow_pos (by decide))
    rw [zpow_neg, zpow_natCast, ← div_eq_mul_inv] at hnear
    rw [neg_neg, Int.toNat_natCast]
    push_cast [Nat.pow_eq]
    exact hnear

end Runbook.Binary

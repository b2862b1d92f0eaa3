import Mathlib.Algebra.Order.Field.Power
import Mathlib.Data.Int.Log
import Mathlib.Data.Rat.Floor
import Mathlib.Tactic.FieldSimp
import Mathlib.Tactic.Linarith
import Mathlib.Tactic.NormNum
import Mathlib.Tactic.Positivity
import Mathlib.Tactic.Ring
import Runbook.Number.Binary

/-!
# Rounding to binary numbers

What `Binary.ofRatio` makes of a quotient, in terms of rational numbers. The quotients around a binary
number that are nearest to it form an interval, `Near`, which contains its ends exactly if the mantissa
is even. Each quotient in the interval is rounded to the number (`ofRatio_of_near`): the exponent is
found from the binary logarithm of the quotient (`exponentFor_eq`), and the mantissa is the whole number
nearest to the quotient in units of the exponent (`roundDiv_eq`).
-/

set_option autoImplicit false

namespace Runbook.Binary

/-! ## Numbers and what is near to them -/

/-- Mantissa and exponent of a finite number other than zero: the mantissa has 53 bits, or fewer at the
least exponent. -/
structure Normal (m : Nat) (q : Int) : Prop where
  pos : 0 < m
  lt : m < 2 ^ 53
  least : -1074 ≤ q
  greatest : q ≤ 971
  full : 2 ^ 52 ≤ m ∨ q = -1074

/-- How far the quotients that are nearest to a number reach below it, in units of its exponent. Below a
power of two the numbers lie twice as close. -/
def reach (m : Nat) (q : Int) : ℚ := if m = 2 ^ 52 ∧ -1074 < q then 1 / 4 else 1 / 2

/-- The quotients that are nearest to a number; one in the middle between two numbers belongs to the one
with the even mantissa. -/
structure Near (m : Nat) (q : Int) (v : ℚ) : Prop where
  low : (m - reach m q) * 2 ^ q ≤ v
  high : v ≤ (m + 1 / 2) * 2 ^ q
  odd : m % 2 = 1 → (m - reach m q) * 2 ^ q ≠ v ∧ v ≠ (m + 1 / 2) * 2 ^ q

section

variable {m n d : Nat} {q : Int} {v : ℚ}

theorem two_zpow_pos (q : Int) : (0 : ℚ) < 2 ^ q := zpow_pos (by norm_num) q

theorem two_zpow_add (k : Nat) (q : Int) : (2 : ℚ) ^ (q + k) = 2 ^ k * 2 ^ q := by
  rw [zpow_add₀ (by norm_num), zpow_natCast, mul_comm]

theorem reach_le (m : Nat) (q : Int) : reach m q ≤ 1 / 2 := by
  unfold reach
  split
  · norm_num
  · exact le_refl _

theorem Near.pos (h : Near m q v) (hm : 0 < m) : 0 < v := by
  have hone : (1 : ℚ) ≤ m := by exact_mod_cast hm
  have hreach := reach_le m q
  have hlow : 0 < (m - reach m q) * (2 : ℚ) ^ q :=
    mul_pos (by linarith) (two_zpow_pos q)
  exact lt_of_lt_of_le hlow h.low

/-! ## Whole numbers -/

/-- The whole number nearest to a quotient, a tie to the even one. -/
theorem roundDiv_eq (hd : 0 < d) (hlow : (m : ℚ) - 1 / 2 ≤ n / d) (hhigh : (n : ℚ) / d ≤ m + 1 / 2)
    (hodd : m % 2 = 1 → (m : ℚ) - 1 / 2 ≠ n / d ∧ (n : ℚ) / d ≠ m + 1 / 2) :
    roundDiv n d = m := by
  have hdq : (0 : ℚ) < d := by exact_mod_cast hd
  -- the same over natural numbers
  have hlow' : 2 * (m * d) ≤ 2 * n + d := by
    rw [le_div_iff₀ hdq] at hlow
    have hcast : (2 * (m * d) : ℚ) ≤ 2 * n + d := by linarith
    exact_mod_cast hcast
  have hhigh' : 2 * n ≤ 2 * (m * d) + d := by
    rw [div_le_iff₀ hdq] at hhigh
    have hcast : (2 * n : ℚ) ≤ 2 * (m * d) + d := by linarith
    exact_mod_cast hcast
  have hodd' : m % 2 = 1 → 2 * (m * d) ≠ 2 * n + d ∧ 2 * n ≠ 2 * (m * d) + d := by
    intro h
    obtain ⟨hleft, hright⟩ := hodd h
    refine ⟨fun heq => hleft ?_, fun heq => hright ?_⟩
    · have hcast : (2 * (m * d) : ℚ) = 2 * n + d := by exact_mod_cast heq
      rw [eq_div_iff hdq.ne']
      linarith
    · have hcast : (2 * n : ℚ) = 2 * (m * d) + d := by exact_mod_cast heq
      rw [div_eq_iff hdq.ne']
      linarith
  have hsplit := Nat.div_add_mod n d
  have hrest := Nat.mod_lt n hd
  have hcases : m = n / d ∨ m = n / d + 1 := by
    have hupper : m < n / d + 2 := by
      refine Nat.lt_of_mul_lt_mul_left (a := d) ?_
      rw [Nat.mul_add, Nat.mul_comm d m]
      omega
    have hlower : n / d < m + 1 := by
      refine Nat.lt_of_mul_lt_mul_left (a := d) ?_
      rw [Nat.mul_add, Nat.mul_comm d m]
      omega
    omega
  unfold roundDiv
  dsimp only
  rcases hcases with hm | hm
  · rw [hm, Nat.mul_comm _ d] at hhigh' hodd'
    split
    · exact hm.symm
    · split
      · omega
      · have heven : n / d % 2 = 0 := by
          by_contra hne
          have := (hodd' (by omega)).2
          omega
        simp [heven, hm]
  · rw [hm, Nat.add_mul, Nat.mul_comm _ d] at hlow' hodd'
    split
    · omega
    · split
      · exact hm.symm
      · have hnot : n / d % 2 ≠ 0 := by
          intro heven
          have := (hodd' (by omega)).1
          omega
        simp [hnot, hm]

/-! ## Exponents -/

/-- The binary logarithm of a quotient is that of its parts, or one less. -/
theorem zpow_log2_bounds (hn : 0 < n) (hd : 0 < d) :
    (2 : ℚ) ^ ((Nat.log2 n : Int) - Nat.log2 d - 1) < n / d ∧
      (n : ℚ) / d < 2 ^ ((Nat.log2 n : Int) - Nat.log2 d + 1) := by
  have hdq : (0 : ℚ) < d := by exact_mod_cast hd
  have hnlow : (2 : ℚ) ^ n.log2 ≤ n := by exact_mod_cast Nat.log2_self_le hn.ne'
  have hnhigh : (n : ℚ) < 2 ^ (n.log2 + 1) := by exact_mod_cast Nat.lt_log2_self
  have hdlow : (2 : ℚ) ^ d.log2 ≤ d := by exact_mod_cast Nat.log2_self_le hd.ne'
  have hdhigh : (d : ℚ) < 2 ^ (d.log2 + 1) := by exact_mod_cast Nat.lt_log2_self
  have hdpos : (0 : ℚ) < 2 ^ d.log2 := by positivity
  have hleft : (2 : ℚ) ^ ((n.log2 : Int) - d.log2 - 1) = 2 ^ n.log2 / 2 ^ (d.log2 + 1) := by
    rw [show (n.log2 : Int) - d.log2 - 1 = (n.log2 : Int) - ((d.log2 + 1 : Nat) : Int) by
      push_cast; ring, zpow_sub₀ (by norm_num), zpow_natCast, zpow_natCast]
  have hright : (2 : ℚ) ^ ((n.log2 : Int) - d.log2 + 1) = 2 ^ (n.log2 + 1) / 2 ^ d.log2 := by
    rw [show (n.log2 : Int) - d.log2 + 1 = ((n.log2 + 1 : Nat) : Int) - (d.log2 : Int) by
      push_cast; ring, zpow_sub₀ (by norm_num), zpow_natCast, zpow_natCast]
  rw [hleft, hright]
  constructor
  · calc (2 : ℚ) ^ n.log2 / 2 ^ (d.log2 + 1) ≤ n / 2 ^ (d.log2 + 1) := by gcongr
      _ < n / d := by
        have hnq : (0 : ℚ) < n := by exact_mod_cast hn
        exact div_lt_div_of_pos_left hnq hdq hdhigh
  · calc (n : ℚ) / d ≤ n / 2 ^ d.log2 := by gcongr
      _ < 2 ^ (n.log2 + 1) / 2 ^ d.log2 := by gcongr

/-- The comparison that corrects the first guess. -/
theorem lt_two_zpow_iff (n : Nat) (hd : 0 < d) (q : Int) :
    (if q ≥ 0 then decide (n < d * Nat.pow 2 (q.toNat + 52))
      else decide (n * Nat.pow 2 (-q).toNat < d * Nat.pow 2 52)) = true ↔
      (n : ℚ) / d < 2 ^ (q + 52) := by
  have hdq : (0 : ℚ) < d := by exact_mod_cast hd
  rw [div_lt_iff₀ hdq]
  split
  · rename_i hq
    obtain ⟨k, rfl⟩ := Int.eq_ofNat_of_zero_le hq
    have hpow : (2 : ℚ) ^ ((k : Int) + 52) = 2 ^ (k + 52) := by
      rw [show (k : Int) + 52 = ((k + 52 : Nat) : Int) by push_cast; ring, zpow_natCast]
    rw [hpow, decide_eq_true_iff, Int.toNat_natCast, mul_comm]
    constructor
    · intro h
      exact_mod_cast h
    · intro h
      exact_mod_cast h
  · rename_i hq
    obtain ⟨k, hk⟩ : ∃ k : Nat, q = -(k : Int) := ⟨(-q).toNat, by omega⟩
    subst hk
    have hkpos : (0 : ℚ) < 2 ^ k := by positivity
    have hpow : (2 : ℚ) ^ (-(k : Int) + 52) = 2 ^ 52 / 2 ^ k := by
      rw [zpow_add₀ (by norm_num), zpow_neg, zpow_natCast]
      norm_num
      ring
    rw [hpow, decide_eq_true_iff, neg_neg, Int.toNat_natCast, div_mul_eq_mul_div,
      lt_div_iff₀ hkpos, mul_comm (2 ^ 52 : ℚ)]
    constructor
    · intro h
      exact_mod_cast h
    · intro h
      exact_mod_cast h

theorem int_log_eq (hv : 0 < v) {e : Int} (hlow : 2 ^ e ≤ v) (hhigh : v < 2 ^ (e + 1)) :
    Int.log 2 v = e := by
  have h₁ := (Int.zpow_le_iff_le_log (b := 2) (by decide) hv).1 (by exact_mod_cast hlow)
  have h₂ := (Int.lt_zpow_iff_log_lt (b := 2) (by decide) hv).1 (by exact_mod_cast hhigh)
  omega

theorem exponentFor_eq (hn : 0 < n) (hd : 0 < d) :
    exponentFor n d = max (Int.log 2 ((n : ℚ) / d) - 52) (-1074) := by
  have hv : (0 : ℚ) < n / d := by
    have hnq : (0 : ℚ) < n := by exact_mod_cast hn
    have hdq : (0 : ℚ) < d := by exact_mod_cast hd
    positivity
  obtain ⟨hlow, hhigh⟩ := zpow_log2_bounds hn hd
  have hbelow := lt_two_zpow_iff n hd ((Nat.log2 n : Int) - Nat.log2 d - 52)
  rw [sub_add_cancel] at hbelow
  unfold exponentFor
  dsimp only
  congr 1
  by_cases hcond : (n : ℚ) / d < 2 ^ ((Nat.log2 n : Int) - Nat.log2 d)
  · rw [if_pos (hbelow.2 hcond), int_log_eq hv hlow.le (by rw [sub_add_cancel]; exact hcond)]
    ring
  · rw [if_neg fun h => hcond (hbelow.1 h), int_log_eq hv (not_lt.1 hcond) hhigh]

/-! ## The nearest number -/

/-- The quotient in units of an exponent, whose nearest whole number is the mantissa. -/
theorem roundDiv_scaled_eq (hd : 0 < d) (hlow : (m : ℚ) - 1 / 2 ≤ n / d / 2 ^ q)
    (hhigh : (n : ℚ) / d / 2 ^ q ≤ m + 1 / 2)
    (hodd : m % 2 = 1 → (m : ℚ) - 1 / 2 ≠ n / d / 2 ^ q ∧ (n : ℚ) / d / 2 ^ q ≠ m + 1 / 2) :
    (if q ≥ 0 then roundDiv n (d * Nat.pow 2 q.toNat)
      else roundDiv (n * Nat.pow 2 (-q).toNat) d) = m := by
  split
  · rename_i hq
    obtain ⟨k, rfl⟩ := Int.eq_ofNat_of_zero_le hq
    have hscaled : (n : ℚ) / d / 2 ^ (k : Int) = n / ((d * 2 ^ k : Nat) : ℚ) := by
      rw [zpow_natCast, div_div]
      push_cast
      rfl
    rw [hscaled] at hlow hhigh hodd
    exact roundDiv_eq (Nat.mul_pos hd (Nat.two_pow_pos k)) hlow hhigh hodd
  · rename_i hq
    obtain ⟨k, rfl⟩ : ∃ k : Nat, q = -(k : Int) := ⟨(-q).toNat, by omega⟩
    have hscaled : (n : ℚ) / d / 2 ^ (-(k : Int)) = ((n * 2 ^ k : Nat) : ℚ) / d := by
      rw [zpow_neg, zpow_natCast]
      push_cast
      field_simp
    rw [hscaled] at hlow hhigh hodd
    rw [neg_neg]
    exact roundDiv_eq hd hlow hhigh hodd

/-- The exponent of a quotient that is nearest to a number is that of the number, unless the quotient
lies below a power of two. -/
theorem log_of_near (h : Normal m q) (hnear : Near m q v) :
    max (Int.log 2 v - 52) (-1074) = q ∨
      m = 2 ^ 52 ∧ -1074 < q ∧ Int.log 2 v - 52 = q - 1 ∧ v < 2 ^ 52 * 2 ^ q := by
  have hv := hnear.pos h.pos
  have hlt : (m : ℚ) + 1 ≤ 2 ^ 53 := by exact_mod_cast h.lt
  have hupper : v < 2 ^ (q + 53 : Int) := by
    have hpow := two_zpow_add 53 q
    push_cast at hpow
    rw [hpow]
    refine lt_of_le_of_lt hnear.high ?_
    exact mul_lt_mul_of_pos_right (by linarith) (two_zpow_pos q)
  by_cases hfull : (2 : ℚ) ^ (q + 52 : Int) ≤ v
  · left
    rw [int_log_eq hv hfull (by rwa [add_assoc])]
    have := h.least
    omega
  · rw [not_le] at hfull
    by_cases hleast : q = -1074
    · left
      have hlog := (Int.lt_zpow_iff_log_lt (b := 2) (by decide) hv).1 (by exact_mod_cast hfull)
      omega
    · right
      have hm : 2 ^ 52 ≤ m := h.full.resolve_right hleast
      have hgreater : -1074 < q := lt_of_le_of_ne h.least (Ne.symm hleast)
      have hpow := two_zpow_add 52 q
      push_cast at hpow
      rw [hpow] at hfull
      -- a greater mantissa would keep the quotient above the power of two
      have hmeq : m = 2 ^ 52 := by
        by_contra hne
        have hone : (2 : ℚ) ^ 52 + 1 ≤ m := by
          have : 2 ^ 52 + 1 ≤ m := by omega
          exact_mod_cast this
        have hreach := reach_le m q
        have hlow := hnear.low
        have : (2 : ℚ) ^ 52 * 2 ^ q ≤ (m - reach m q) * 2 ^ q :=
          mul_le_mul_of_nonneg_right (by linarith) (two_zpow_pos q).le
        linarith
      refine ⟨hmeq, hgreater, ?_, hfull⟩
      rw [int_log_eq (e := q + 51) hv ?_ ?_]
      · ring
      · have hpow' := two_zpow_add 51 q
        push_cast at hpow'
        rw [hpow']
        refine le_trans ?_ hnear.low
        have hreach := reach_le m q
        have hmq : (m : ℚ) = 2 ^ 52 := by exact_mod_cast hmeq
        exact mul_le_mul_of_nonneg_right (by rw [hmq]; norm_num; linarith) (two_zpow_pos q).le
      · rw [show q + 51 + 1 = q + 52 by ring]
        have hpow := two_zpow_add 52 q
        push_cast at hpow
        rwa [hpow]

/-- A quotient is rounded to the number to which it is nearest. -/
theorem ofRatio_of_near (h : Normal m q) (hd : 0 < d) (hnear : Near m q ((n : ℚ) / d))
    (negative : Bool) : ofRatio negative n d = .finite negative m q := by
  have hv := hnear.pos h.pos
  have hpos := two_zpow_pos q
  have hn : 0 < n := by
    rcases Nat.eq_zero_or_pos n with rfl | hn
    · simp at hv
    · exact hn
  have hbound := h.lt
  have hgreatest := h.greatest
  unfold ofRatio
  rw [if_neg (by simpa using hn.ne'), exponentFor_eq hn hd]
  rcases log_of_near h hnear with hlog | ⟨hm, hq, hlog, hbelow⟩
  · have hmantissa : (if q ≥ 0 then roundDiv n (d * Nat.pow 2 q.toNat)
        else roundDiv (n * Nat.pow 2 (-q).toNat) d) = m := by
      have hreach := reach_le m q
      refine roundDiv_scaled_eq hd ?_ ?_ fun hodd => ⟨?_, ?_⟩
      · rw [le_div_iff₀ hpos]
        refine le_trans ?_ hnear.low
        exact mul_le_mul_of_nonneg_right (by linarith) hpos.le
      · rw [div_le_iff₀ hpos]
        exact hnear.high
      · intro heq
        have hhalf : reach m q = 1 / 2 := by
          unfold reach
          rw [if_neg]
          rintro ⟨rfl, -⟩
          simp at hodd
        apply (hnear.odd hodd).1
        rw [hhalf, heq, div_mul_cancel₀ _ hpos.ne']
      · intro heq
        apply (hnear.odd hodd).2
        rw [← heq, div_mul_cancel₀ _ hpos.ne']
    rw [hlog]
    dsimp only
    rw [hmantissa]
    have hne : (m == Nat.pow 2 53) = false := by
      simp only [beq_eq_false_iff_ne]
      exact Nat.ne_of_lt hbound
    simp only [hne, Bool.false_eq_true, if_false]
    rw [if_neg (by omega)]
  · -- the quotient is rounded up to a power of two, which takes the next exponent
    have hpred : (2 : ℚ) ^ q = 2 * 2 ^ (q - 1) := by
      have hpow := two_zpow_add 1 (q - 1)
      push_cast at hpow
      rw [sub_add_cancel, pow_one] at hpow
      exact hpow
    have hpos' := two_zpow_pos (q - 1)
    have hmantissa : (if q - 1 ≥ 0 then roundDiv n (d * Nat.pow 2 (q - 1).toNat)
        else roundDiv (n * Nat.pow 2 (-(q - 1)).toNat) d) = 2 ^ 53 := by
      refine roundDiv_scaled_eq hd ?_ ?_ fun hodd => ?_
      · have hlow := hnear.low
        rw [reach, if_pos ⟨hm, hq⟩, hm, hpred] at hlow
        push_cast at hlow ⊢
        rw [le_div_iff₀ hpos']
        refine le_trans (le_of_eq ?_) hlow
        ring
      · rw [hpred] at hbelow
        push_cast
        rw [div_le_iff₀ hpos']
        refine le_trans hbelow.le ?_
        rw [← mul_assoc]
        exact mul_le_mul_of_nonneg_right (by norm_num) hpos'.le
      · norm_num at hodd
    rw [hlog, max_eq_left (by omega)]
    dsimp only
    rw [hmantissa]
    have heq : ((2 ^ 53 : Nat) == Nat.pow 2 53) = true := by decide
    simp only [heq, if_true]
    rw [if_neg (by omega), sub_add_cancel, hm]
    rfl

end

end Runbook.Binary

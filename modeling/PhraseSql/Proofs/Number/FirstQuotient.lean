import PhraseSql.Proofs.Number.Rounded

/-!
A significand is divided by the largest power of ten first if the power that it is to be divided by
is beyond that one.
-/

namespace PhraseSql.Number

theorem ofWhole_largest : Nat.pow 10 largestPower * one ≤ ofWhole (Nat.pow 10 largestPower) ∧
    (ofWhole (Nat.pow 10 largestPower) - Nat.pow 10 largestPower * one) * (10 * 1 <<< 53) ≤
      ofWhole (Nat.pow 10 largestPower) := by
  decide +kernel

theorem largest_bounds : 8988 * 1 <<< 51 * Nat.pow 10 largestPower ≤ 10000 * one ∧
    10000 * one ≤ 8989 * 1 <<< 51 * Nat.pow 10 largestPower := by
  decide +kernel

theorem abs_div_sub_div_le {x unit power rounded : ℚ} (hx : 0 ≤ x) (hp : 0 < power)
    (hr : 0 < rounded) (hl : power * unit ≤ rounded)
    (hu : rounded * (10 * 2 ^ 53) ≤ rounded + power * unit * (10 * 2 ^ 53)) :
    |x * unit / rounded - x / power| ≤ x / power / (10 * 2 ^ 53) := by
  have hq : 0 ≤ x / power := div_nonneg hx hp.le
  have he : x * unit = x / power * (power * unit) := by
    rw [← mul_assoc, div_mul_cancel₀ _ hp.ne']
  rw [he]
  generalize x / power = q at *
  have hlow : q * (1 - 1 / (10 * 2 ^ 53)) ≤ q * (power * unit) / rounded := by
    rw [le_div_iff₀ hr, mul_assoc]
    exact mul_le_mul_of_nonneg_left (by linarith) hq
  have hhigh : q * (power * unit) / rounded ≤ q := by
    rw [div_le_iff₀ hr]
    exact mul_le_mul_of_nonneg_left hl hq
  rw [abs_of_nonpos (by linarith)]
  linarith

theorem abs_div_largest_sub_le {x : ℚ} (hx : 0 ≤ x) :
    |x * one / ofWhole (Nat.pow 10 largestPower) - x / 10 ^ largestPower| ≤
      x / 10 ^ largestPower / (10 * 2 ^ 53) := by
  obtain ⟨hl, hu⟩ := ofWhole_largest
  rw [tsub_mul, Nat.one_shiftLeft, tsub_le_iff_right] at hu
  have hp := ten_pow_pos largestPower
  rw [← cast_pow_ten]
  generalize Nat.pow 10 largestPower = t at *
  apply abs_div_sub_div_le hx
  · exact Nat.cast_pos.mpr hp
  · exact Nat.cast_pos.mpr (ofWhole_pos hp)
  · exact_mod_cast hl
  · exact_mod_cast hu

theorem abs_sub_le_of_rounded {exact whole quotient x : ℚ} (hw : IsRounded whole exact)
    (hq : |quotient - whole| ≤ whole / (10 * 2 ^ 53))
    (hx : |x - quotient| ≤ 1 / 2 + quotient / (2 ^ 53 + 1)) :
    |x - exact| ≤ 1 / 2 + exact * (11 / 5) / 2 ^ 53 := by
  have ha := hw.nonneg
  obtain ⟨-, hwu⟩ := hw.bounds
  have hw : |whole - exact| ≤ exact / (2 ^ 53 + 1) := (le_div_iff₀ (by norm_num)).mpr hw
  have hqu := (abs_le.mp hq).2
  have h := (abs_sub_le x quotient exact).trans
    (add_le_add_right (abs_sub_le quotient whole exact) _)
  linarith

/-- If the significand is rounded in steps of `step`, the first quotient is rounded in steps that
are smaller the smaller a part of it the former are. -/
theorem abs_sub_le_of_steps {exact whole quotient x step scaled : ℚ}
    (he : 2 ^ 52 * scaled ≤ exact) (hw : |whole - exact| ≤ scaled / 2)
    (hq : |quotient - whole| ≤ whole / (10 * 2 ^ 53))
    (hs : 8988 * 2 ^ 51 * step ≤ 10000 * scaled ∧ 10000 * scaled ≤ 8989 * 2 ^ 51 * step)
    (hx : |x - quotient| ≤ 2 ^ 49 * step ∨
      2 ^ 103 * step ≤ quotient ∧ |x - quotient| ≤ 2 ^ 50 * step) :
    |x - exact| ≤ exact / 2 ^ 52 := by
  have hwu := (abs_le.mp hw).2
  have hqu := (abs_le.mp hq).2
  have hn := (abs_nonneg _).trans hw
  have h := (abs_sub_le x quotient exact).trans
    (add_le_add_right (abs_sub_le quotient whole exact) _)
  rcases hx with hx | ⟨hg, hx⟩ <;> linarith

def least : ℚ := one / 10 ^ largestPower

theorem least_bounds : 8988 * 2 ^ 51 ≤ 10000 * least ∧ 10000 * least ≤ 8989 * 2 ^ 51 := by
  obtain ⟨hl, hu⟩ := largest_bounds
  have hp : (0 : ℚ) < (Nat.pow 10 largestPower : ℕ) := Nat.cast_pos.mpr (ten_pow_pos largestPower)
  rw [Nat.one_shiftLeft] at hl hu
  rw [least, ← cast_pow_ten, ← mul_div_assoc]
  generalize Nat.pow 10 largestPower = t at *
  constructor
  · rw [le_div_iff₀ hp]
    exact_mod_cast hl
  · rw [div_le_iff₀ hp]
    exact_mod_cast hu

def firstQuotient (significand : Nat) : Nat :=
  dividedBy (ofWhole significand) (ofWhole (Nat.pow 10 largestPower))

section

variable {significand : Nat}

theorem isRounded_ofWhole_div (hs : 0 < significand) :
    IsRounded (ofWhole significand / 10 ^ largestPower) (significand * least) := by
  rw [least, ← mul_div_assoc]
  exact (isRounded_ofWhole hs).div_right (by positivity)

theorem abs_firstQuotient_sub_le (hs : 0 < significand) :
    |(firstQuotient significand : ℚ) - significand * least| ≤
      1 / 2 + significand * least * (11 / 5) / 2 ^ 53 := by
  apply abs_sub_le_of_rounded (isRounded_ofWhole_div hs)
    (abs_div_largest_sub_le (Nat.cast_nonneg _))
  rw [← Nat.cast_mul]
  exact abs_nearest_sub_le (ofWhole_pos (ten_pow_pos largestPower))

theorem abs_ofWhole_div_sub_le {k : Nat} (h : significand < 2 ^ (53 + k)) :
    |(ofWhole significand / 10 ^ largestPower : ℚ) - significand * least| ≤ 2 ^ k * least / 2 := by
  have hp : (0 : ℚ) < 10 ^ largestPower := by positivity
  rw [least, ← mul_div_assoc, ← mul_div_assoc, ← sub_div, abs_div, abs_of_pos hp, div_right_comm]
  exact div_le_div_of_nonneg_right (abs_ofWhole_sub_le h) hp.le

theorem abs_firstQuotient_sub_le_steps {k : Nat} {quotient : ℚ}
    (hq : ofWhole significand * one / ofWhole (Nat.pow 10 largestPower) = quotient)
    (h : quotient < 2 ^ 104 * 2 ^ k) :
    |firstQuotient significand - quotient| ≤ 2 ^ 49 * 2 ^ k ∨
      2 ^ 103 * 2 ^ k ≤ quotient ∧ |firstQuotient significand - quotient| ≤ 2 ^ 50 * 2 ^ k := by
  have hd := ofWhole_pos (ten_pow_pos largestPower)
  rw [← Nat.cast_mul] at hq
  subst hq
  rw [firstQuotient, dividedBy]
  by_cases hb : ((ofWhole significand * one : ℕ) / ofWhole (Nat.pow 10 largestPower) : ℚ) <
      2 ^ 103 * 2 ^ k
  · left
    rw [← pow_add, Nat.add_assoc 53 50] at hb
    have hr := abs_nearest_sub_le_of_lt hd hb
    rw [pow_add] at hr
    linarith
  · right
    rw [← pow_add, Nat.add_assoc 53 51] at h
    have hr := abs_nearest_sub_le_of_lt hd h
    rw [pow_add] at hr
    refine ⟨not_lt.mp hb, ?_⟩
    linarith

theorem abs_firstQuotient_sub_le_of_lt {k : Nat} (hl : 2 ^ (52 + k) ≤ significand)
    (hu : significand < 2 ^ (53 + k)) :
    |(firstQuotient significand : ℚ) - significand * least| ≤ significand * least / 2 ^ 52 := by
  obtain ⟨hbl, hbu⟩ := least_bounds
  have hk : (0 : ℚ) < 2 ^ k := by positivity
  have hlq : (2 ^ 52 * 2 ^ k : ℚ) ≤ significand := by
    rw [← pow_add]
    exact_mod_cast hl
  have huq : (significand : ℚ) ≤ 2 ^ 53 * 2 ^ k := by
    rw [← pow_add]
    exact_mod_cast hu.le
  have hlA := mul_le_mul_of_nonneg_right hlq (show 0 ≤ least by linarith)
  have huA := mul_le_mul_of_nonneg_right huq (show 0 ≤ least by linarith)
  have hs := And.intro (mul_le_mul_of_nonneg_right hbl hk.le) (mul_le_mul_of_nonneg_right hbu hk.le)
  rw [mul_assoc] at hlA huA
  rw [mul_assoc 10000, mul_comm least] at hs
  have hw := abs_ofWhole_div_sub_le hu
  have hq := abs_div_largest_sub_le (Nat.cast_nonneg (ofWhole significand))
  apply abs_sub_le_of_steps hlA hw hq hs
  apply abs_firstQuotient_sub_le_steps rfl
  have hwu := (abs_le.mp hw).2
  have hqu := (abs_le.mp hq).2
  linarith [hs.2]

theorem abs_firstQuotient_sub_le_of_le (hs : 0 < significand)
    (h : 2 ^ 52 ≤ ofWhole significand * one / ofWhole (Nat.pow 10 largestPower)) :
    |(firstQuotient significand : ℚ) - significand * least| ≤ significand * least / 2 ^ 52 := by
  by_cases hle : significand ≤ 1 <<< 53
  · have hr : IsRounded (firstQuotient significand)
        ((ofWhole significand * one : ℕ) / ofWhole (Nat.pow 10 largestPower)) :=
      isRounded_nearest (ofWhole_pos (ten_pow_pos largestPower)) h
    have hq := abs_div_largest_sub_le (Nat.cast_nonneg (ofWhole significand))
    have hw : (ofWhole significand / 10 ^ largestPower : ℚ) = significand * least := by
      rw [ofWhole_of_le hle, Nat.cast_mul, mul_div_assoc, least]
    rw [← Nat.cast_mul, hw] at hq
    obtain ⟨hrl, hru⟩ := hr.bounds
    obtain ⟨hql, hqu⟩ := abs_le.mp hq
    rw [abs_le]
    constructor <;> linarith
  · rw [Nat.one_shiftLeft] at hle
    have hl : 53 ≤ significand.log2 := (Nat.le_log2 hs.ne').mpr (by omega)
    apply abs_firstQuotient_sub_le_of_lt (k := significand.log2 - 52)
    · rw [Nat.add_sub_cancel' (by omega)]
      exact Nat.log2_self_le hs.ne'
    · have he : 53 + (significand.log2 - 52) = significand.log2 + 1 := by omega
      rw [he]
      exact Nat.lt_log2_self

theorem le_firstQuotient (hs : 0 < significand) (h : 2 ^ 53 ≤ significand * least) :
    2 ^ 52 ≤ ofWhole significand * one / ofWhole (Nat.pow 10 largestPower) := by
  have hl := (isRounded_ofWhole_div hs).bounds.1
  have hq := abs_div_largest_sub_le (Nat.cast_nonneg (ofWhole significand))
  have hq := (abs_le.mp hq).1
  rw [le_div_iff_cast (ofWhole_pos (ten_pow_pos largestPower)), Nat.cast_mul]
  push_cast
  linarith

end

end PhraseSql.Number

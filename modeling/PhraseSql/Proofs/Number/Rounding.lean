import Mathlib.Algebra.Order.Field.Rat
import Mathlib.Tactic.Linarith
import Mathlib.Tactic.NormNum
import Mathlib.Tactic.Positivity
import PhraseSql.Number.Binary64

namespace PhraseSql.Number

def value (units : Nat) : ℚ := units / one

structure Within (least greatest x exact : ℚ) : Prop where
  low : least * exact ≤ x
  high : x ≤ greatest * exact

def leastFactor : ℚ := 1 - 1 / 2 ^ 53
def greatestFactor : ℚ := 1 + 1 / 2 ^ 53

theorem Within.trans {l g l' g' x y z : ℚ} (h : Within l g x y) (h' : Within l' g' y z)
    (hl : 0 ≤ l) (hg : 0 ≤ g) : Within (l * l') (g * g') x z where
  low := by
    rw [mul_assoc]
    exact (mul_le_mul_of_nonneg_left h'.low hl).trans h.low
  high := by
    rw [mul_assoc]
    exact h.high.trans (mul_le_mul_of_nonneg_left h'.high hg)

theorem Within.mul {l g l' g' x y x' y' : ℚ} (h : Within l g x x') (h' : Within l' g' y y')
    (hl : 0 ≤ l) (hl' : 0 ≤ l') (hx : 0 ≤ x') (hy : 0 ≤ y') :
    Within (l * l') (g * g') (x * y) (x' * y') where
  low := by
    have hx₀ : 0 ≤ x := (mul_nonneg hl hx).trans h.low
    rw [mul_mul_mul_comm]
    exact mul_le_mul h.low h'.low (mul_nonneg hl' hy) hx₀
  high := by
    have hy₀ : 0 ≤ y := (mul_nonneg hl' hy).trans h'.low
    have hgx : 0 ≤ g * x' := ((mul_nonneg hl hx).trans h.low).trans h.high
    rw [mul_mul_mul_comm]
    exact mul_le_mul h.high h'.high hy₀ hgx

theorem two_mul_roundDiv (n : Nat) {d : Nat} (hd : 0 < d) :
    2 * (roundDiv n d * d) ≤ 2 * n + d ∧ 2 * n ≤ 2 * (roundDiv n d * d) + d := by
  have hq := Nat.div_add_mod n d
  have hr := Nat.mod_lt n hd
  have hs : (n / d + 1) * d = n / d * d + d := Nat.succ_mul (n / d) d
  rw [Nat.mul_comm] at hq
  unfold roundDiv
  split
  · omega
  · split
    · omega
    · rcases Nat.mod_two_eq_zero_or_one (n / d) with h | h
      · rw [h, Nat.add_zero]
        omega
      · rw [h]
        omega

theorem spacing_le {units : Nat} (h : 1 <<< 52 ≤ units) : spacing units * 1 <<< 52 ≤ units := by
  have hu : units ≠ 0 := by
    rintro rfl
    exact absurd h (by decide)
  have hl : 52 ≤ units.log2 := (Nat.le_log2 hu).mpr (Nat.one_shiftLeft 52 ▸ h)
  rw [spacing, Nat.one_shiftLeft, Nat.one_shiftLeft, ← Nat.pow_add, Nat.sub_add_cancel hl]
  exact Nat.log2_self_le hu

theorem half_le_leastFactor : 1 / 2 ≤ leastFactor := by
  norm_num [leastFactor]

theorem leastFactor_pos : 0 < leastFactor :=
  lt_of_lt_of_le (by norm_num) half_le_leastFactor

theorem greatestFactor_pos : 0 < greatestFactor := by
  norm_num [greatestFactor]

theorem within_nearest {n d : Nat} (hd : 0 < d) (h : 1 <<< 52 ≤ n / d) :
    Within leastFactor greatestFactor (nearest n d) (n / d : ℚ) := by
  have hs : 0 < spacing (n / d) := by
    rw [spacing, Nat.one_shiftLeft]
    exact Nat.two_pow_pos _
  obtain ⟨hu, hl⟩ := two_mul_roundDiv n (Nat.mul_pos hd hs)
  have hm : d * spacing (n / d) * 1 <<< 52 ≤ n := by
    rw [Nat.mul_assoc]
    exact (Nat.mul_le_mul_left d (spacing_le h)).trans (Nat.mul_div_le n d)
  have he : roundDiv n (d * spacing (n / d)) * (d * spacing (n / d)) = nearest n d * d := by
    rw [nearest, Nat.mul_assoc, Nat.mul_comm d]
  rw [he] at hu hl
  have hc : 1 <<< 52 = 4503599627370496 := by decide
  rw [hc] at hm
  have hu' : 9007199254740992 * (nearest n d * d) ≤ 9007199254740993 * n := by omega
  have hl' : 9007199254740991 * n ≤ 9007199254740992 * (nearest n d * d) := by omega
  have hdq : (0 : ℚ) < d := Nat.cast_pos.mpr hd
  constructor
  · rw [leastFactor, ← mul_div_assoc, div_le_iff₀ hdq]
    have hq : (9007199254740991 * n : ℚ) ≤ 9007199254740992 * (nearest n d * d) := mod_cast hl'
    linarith
  · rw [greatestFactor, ← mul_div_assoc, le_div_iff₀ hdq]
    have hq : (9007199254740992 * (nearest n d * d) : ℚ) ≤ 9007199254740993 * n := mod_cast hu'
    linarith

theorem one_pos : 0 < one := by
  decide +kernel

theorem one_cast_pos : (0 : ℚ) < one :=
  Nat.cast_pos.mpr one_pos

theorem within_value_nearest {n d : Nat} (hd : 0 < d) (h : 1 <<< 52 ≤ n / d) :
    Within leastFactor greatestFactor (value (nearest n d)) (n / d / one : ℚ) := by
  obtain ⟨hl, hg⟩ := within_nearest hd h
  constructor
  · rw [value, ← mul_div_assoc]
    exact div_le_div_of_nonneg_right hl one_cast_pos.le
  · rw [value, ← mul_div_assoc]
    exact div_le_div_of_nonneg_right hg one_cast_pos.le

theorem within_ofWhole {n : Nat} (hn : 0 < n) :
    Within leastFactor greatestFactor (value (ofWhole n)) n := by
  have hp : 1 <<< 52 ≤ n * one / 1 := by
    rw [Nat.div_one]
    exact (show 1 <<< 52 ≤ one by decide +kernel).trans (Nat.le_mul_of_pos_left one hn)
  have h := within_value_nearest Nat.one_pos hp
  rwa [Nat.cast_one, div_one, Nat.cast_mul, mul_div_cancel_right₀ _ one_cast_pos.ne'] at h

theorem within_times {x y : Nat} (h : 1 / 4 ≤ value x * value y) :
    Within leastFactor greatestFactor (value (times x y)) (value x * value y) := by
  have hv : value x * value y = (x * y : ℕ) / one / one := by
    rw [value, value, Nat.cast_mul, div_mul_div_comm, div_div]
  have hp : 1 <<< 52 ≤ x * y / one := by
    have ho : ((4 * 1 <<< 52 : ℕ) : ℚ) ≤ one := Nat.cast_le.mpr (by decide +kernel)
    have hb : ((1 <<< 52 : ℕ) : ℚ) ≤ 1 / 4 * one := by
      rw [Nat.cast_mul, Nat.cast_ofNat] at ho
      linarith
    have hc : ((1 <<< 52 * one : ℕ) : ℚ) ≤ (x * y : ℕ) := by
      rw [hv, le_div_iff₀ one_cast_pos, le_div_iff₀ one_cast_pos] at h
      rw [Nat.cast_mul]
      exact (mul_le_mul_of_nonneg_right hb one_cast_pos.le).trans h
    exact (Nat.le_div_iff_mul_le one_pos).mpr (mod_cast hc)
  rw [hv]
  exact within_value_nearest one_pos hp

theorem cast_pow_ten (power : Nat) : ((Nat.pow 10 power : ℕ) : ℚ) = 10 ^ power :=
  Nat.cast_pow 10 power

theorem within_product {significand : Nat} (hs : 0 < significand) (power : Nat) :
    Within (leastFactor ^ 3) (greatestFactor ^ 3)
      (value (times (ofWhole significand) (ofWhole (Nat.pow 10 power))))
      (significand * 10 ^ power) := by
  rw [pow_three, pow_three]
  have hp : 0 < Nat.pow 10 power := Nat.pow_pos (by decide)
  have hc := cast_pow_ten power
  have h := (within_ofWhole hs).mul (within_ofWhole hp) leastFactor_pos.le leastFactor_pos.le
    (Nat.cast_nonneg _) (Nat.cast_nonneg _)
  rw [hc] at h
  have hq : (1 : ℚ) ≤ significand * 10 ^ power := by
    rw [← hc]
    exact_mod_cast Nat.mul_pos hs hp
  have hl := half_le_leastFactor
  refine (within_times ?_).trans h leastFactor_pos.le greatestFactor_pos.le
  exact le_trans (by nlinarith) h.low

theorem nearest_zero (d : Nat) : nearest 0 d = 0 := by
  simp [nearest, roundDiv, spacing]

theorem nearest_le (n d : Nat) : nearest n d ≤ 2 * (n / d) + 1 := by
  have hs : spacing (n / d) ≤ n / d + 1 := by
    rw [spacing, Nat.one_shiftLeft]
    by_cases hu : n / d = 0
    · rw [hu]
      decide
    · exact Nat.le_succ_of_le ((Nat.pow_le_pow_right (by decide) (Nat.sub_le _ _)).trans
        (Nat.log2_self_le hu))
  calc nearest n d ≤ (n / (d * spacing (n / d)) + 1) * spacing (n / d) :=
        Nat.mul_le_mul_right _ (roundDiv_le _ _)
    _ = n / d / spacing (n / d) * spacing (n / d) + spacing (n / d) := by
        rw [Nat.succ_mul, Nat.div_div_eq_div_mul]
    _ ≤ n / d + (n / d + 1) := Nat.add_le_add (Nat.div_mul_le_self _ _) hs
    _ = 2 * (n / d) + 1 := by omega

theorem dividedBy_le {x y : Nat} (h : 4 * one ≤ y) : dividedBy x y ≤ x := by
  cases x with
  | zero => rw [dividedBy, Nat.zero_mul, nearest_zero]
  | succ x =>
    have hd : (x + 1) * one / y ≤ (x + 1) / 4 := by
      rw [← Nat.mul_div_mul_right (x + 1) 4 one_pos]
      exact Nat.div_le_div_left h (Nat.mul_pos (by decide) one_pos)
    have hn := nearest_le ((x + 1) * one) y
    rw [dividedBy]
    omega

theorem four_mul_one_le_ofWhole {power : Nat} (hp : 0 < power) :
    4 * one ≤ ofWhole (Nat.pow 10 power) := by
  have ht : 10 ≤ Nat.pow 10 power := Nat.pow_le_pow_right (show 0 < 10 by decide) hp
  have h := (within_ofWhole (Nat.lt_of_lt_of_le (by decide) ht)).low
  have hq : (10 : ℚ) ≤ (Nat.pow 10 power : ℕ) := mod_cast ht
  have hl := half_le_leastFactor
  rw [value, le_div_iff₀ one_cast_pos] at h
  have hc : ((4 * one : ℕ) : ℚ) ≤ ofWhole (Nat.pow 10 power) := by
    rw [Nat.cast_mul]
    refine le_trans (mul_le_mul_of_nonneg_right ?_ one_cast_pos.le) h
    push_cast
    nlinarith
  exact_mod_cast hc

theorem shrink_le {x power : Nat} (hp : 0 < power) : shrink x power ≤ x := by
  fun_induction shrink x power with
  | case1 => exact dividedBy_le (four_mul_one_le_ofWhole hp)
  | case2 => exact Nat.zero_le _
  | case3 x power hl _ ih =>
    have hs : 0 < power - largestPower := Nat.sub_pos_of_lt (Nat.not_le.mp hl)
    exact (ih hs).trans (dividedBy_le (four_mul_one_le_ofWhole (by decide)))

theorem ofWhole_lt_overflow {n : Nat} (h : n < 1 <<< 64) : ofWhole n < overflow := by
  have hm : n * one ≤ 1 <<< 64 * one := Nat.mul_le_mul_right one h.le
  have hl : 2 * (1 <<< 64 * one) + 1 < overflow := by decide +kernel
  have hn := nearest_le (n * one) 1
  rw [Nat.div_one] at hn
  rw [ofWhole]
  omega

theorem cast_one_shiftLeft (k : Nat) : ((1 <<< k : ℕ) : ℚ) = 2 ^ k := by
  rw [Nat.one_shiftLeft, Nat.cast_pow, Nat.cast_ofNat]

theorem lt_overflow_iff {units : Nat} : units < overflow ↔ value units < 2 ^ 1024 := by
  have ho : (overflow : ℚ) = 2 ^ 1024 * one := by
    have h : overflow = 1 <<< 1024 * one := by decide +kernel
    rw [h, Nat.cast_mul, cast_one_shiftLeft]
  rw [value, div_lt_iff₀ one_cast_pos, ← ho, Nat.cast_lt]

end PhraseSql.Number

namespace PhraseSql.Binary64

open Number

variable {negative : Bool} {significand : Nat} {exponent : Int}

theorem ofScaled?_eq_none_iff : ofScaled? negative significand exponent = none ↔
    ∀ units, scaled? significand exponent = some units → overflow ≤ units := by
  unfold ofScaled?
  split
  · rename_i h
    simp [h]
  · rename_i units h
    simp [h]

theorem scaled?_zero (power : Nat) : scaled? 0 (.ofNat power) = some 0 := by
  have hz : ofWhole 0 = 0 := by rw [ofWhole, Nat.zero_mul, nearest_zero]
  simp only [scaled?, grow?, hz, times, Nat.zero_mul, nearest_zero, if_true]
  split <;> rfl

theorem le_largestPower {power : Nat} (hp : 0 < significand)
    (h : greatestFactor ^ 3 * (significand * 10 ^ power) < 2 ^ 1024) :
    power ≤ largestPower := by
  by_contra hl
  have hg : 1 ≤ greatestFactor ^ 3 := by norm_num [greatestFactor]
  have hb : (2 : ℚ) ^ 1024 ≤ 10 ^ 309 := by
    show (2 : ℚ) ^ (93 * 11 + 1) ≤ 10 ^ (28 * 11 + 1)
    rw [pow_succ 2, pow_succ 10, pow_mul, pow_mul]
    gcongr <;> norm_num
  have hs : (1 : ℚ) ≤ significand := mod_cast hp
  have ht : (10 : ℚ) ^ 309 ≤ 10 ^ power := pow_le_pow_right₀ (by norm_num) (Nat.not_le.mp hl)
  have hq : (10 : ℚ) ^ power ≤ significand * 10 ^ power :=
    le_mul_of_one_le_left (by positivity) hs
  have hm : significand * (10 : ℚ) ^ power ≤ greatestFactor ^ 3 * (significand * 10 ^ power) :=
    le_mul_of_one_le_left (by positivity) hg
  exact absurd (hb.trans (ht.trans (hq.trans hm))) (not_le.mpr h)

theorem exists_ofScaled? (hs : significand < 1 <<< 64)
    (h : greatestFactor ^ 3 * (significand * 10 ^ exponent) < 2 ^ 1024) :
    ∃ x, ofScaled? negative significand exponent = some x := by
  apply Option.ne_none_iff_exists'.mp
  intro hn
  rw [ofScaled?_eq_none_iff] at hn
  cases exponent with
  | negSucc power =>
    have hl := (shrink_le (x := ofWhole significand) power.succ_pos).trans_lt (ofWhole_lt_overflow hs)
    exact absurd (hn _ rfl) (Nat.not_le.mpr hl)
  | ofNat power =>
    rw [Int.ofNat_eq_natCast, zpow_natCast] at h
    rcases Nat.eq_zero_or_pos significand with rfl | hp
    · have hz : scaled? 0 (.ofNat power) = some 0 := scaled?_zero power
      exact absurd (hn _ hz) (by decide +kernel)
    · have hle : power ≤ largestPower := le_largestPower hp h
      have hv : value (times (ofWhole significand) (ofWhole (Nat.pow 10 power))) < 2 ^ 1024 :=
        (within_product hp power).high.trans_lt h
      exact absurd (hn _ (if_pos hle)) (Nat.not_le.mpr (lt_overflow_iff.mpr hv))

theorem ofScaled?_eq_none (hs : significand < 1 <<< 64)
    (h : 2 ^ 1024 ≤ leastFactor ^ 3 * (significand * 10 ^ exponent)) :
    ofScaled? negative significand exponent = none := by
  rw [ofScaled?_eq_none_iff]
  intro units hu
  rw [← Nat.not_lt, lt_overflow_iff, not_lt]
  cases exponent with
  | negSucc power =>
    have hl : leastFactor ^ 3 ≤ 1 := by norm_num [leastFactor]
    have hq : (significand : ℚ) * 10 ^ Int.negSucc power ≤ significand := by
      rw [zpow_negSucc]
      exact mul_le_of_le_one_right (Nat.cast_nonneg _)
        (inv_le_one_of_one_le₀ (one_le_pow₀ (by norm_num)))
    have hn : (0 : ℚ) ≤ significand * 10 ^ Int.negSucc power :=
      mul_nonneg (Nat.cast_nonneg _) (zpow_nonneg (by norm_num) _)
    have hb : (significand : ℚ) < 2 ^ 64 := by
      rw [← cast_one_shiftLeft]
      exact_mod_cast hs
    have ht : (2 : ℚ) ^ 64 ≤ 2 ^ 1024 := pow_le_pow_right₀ (by norm_num) (by norm_num)
    have hm := h.trans ((mul_le_of_le_one_left hn hl).trans hq)
    exact absurd (hb.trans_le ht) (not_lt.mpr hm)
  | ofNat power =>
    rw [Int.ofNat_eq_natCast, zpow_natCast] at h
    have hp : 0 < significand := by
      apply Nat.pos_of_ne_zero
      rintro rfl
      rw [Nat.cast_zero, zero_mul, mul_zero] at h
      exact absurd h (not_le.mpr (by positivity))
    simp only [scaled?, grow?] at hu
    split at hu
    · cases hu
      exact h.trans (within_product hp power).low
    · have hz : ofWhole significand ≠ 0 := by
        intro hz
        have hl := (within_ofWhole hp).low
        rw [hz, value, Nat.cast_zero, zero_div] at hl
        exact absurd hl (not_le.mpr (mul_pos leastFactor_pos (Nat.cast_pos.mpr hp)))
      rw [if_neg hz] at hu
      cases hu

end PhraseSql.Binary64

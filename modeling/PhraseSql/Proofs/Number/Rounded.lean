import Mathlib.Tactic.FieldSimp
import Mathlib.Tactic.Ring
import PhraseSql.Proofs.Number.Near

namespace PhraseSql.Number

def IsRounded (x exact : ℚ) : Prop := |x - exact| * (2 ^ 53 + 1) ≤ exact

theorem isRounded_nearest {n d : Nat} (hd : 0 < d) (h : 2 ^ 52 ≤ n / d) :
    IsRounded (nearest n d) (n / d) :=
  abs_nearest_sub_mul_le hd h

theorem two_pow_le_one : 2 ^ 52 ≤ one := by
  rw [← Nat.one_shiftLeft]
  decide +kernel

theorem isRounded_ofWhole {n : Nat} (hn : 0 < n) : IsRounded (ofWhole n) (n * one) := by
  have h : 2 ^ 52 ≤ n * one / 1 := by
    rw [Nat.div_one]
    exact two_pow_le_one.trans (Nat.le_mul_of_pos_left one hn)
  have hr := isRounded_nearest Nat.one_pos h
  rwa [Nat.cast_one, div_one, Nat.cast_mul] at hr

namespace IsRounded

variable {x y a b : ℚ}

theorem bounds (h : IsRounded x a) :
    a * 2 ^ 53 ≤ x * (2 ^ 53 + 1) ∧ x * (2 ^ 53 + 1) ≤ a * (2 ^ 53 + 2) := by
  have h : |(x - a) * (2 ^ 53 + 1)| ≤ a := by
    rw [abs_mul, abs_of_pos (show (0 : ℚ) < 2 ^ 53 + 1 by norm_num)]
    exact h
  obtain ⟨hl, hu⟩ := abs_le.mp h
  constructor <;> linarith

theorem nonneg (h : IsRounded x a) : 0 ≤ a :=
  (mul_nonneg (abs_nonneg _) (by norm_num)).trans h

theorem mul (hx : IsRounded x a) (hy : IsRounded y b) : |x * y - a * b| ≤ a * b / 2 ^ 52 := by
  have ha := hx.nonneg
  have hb := hy.nonneg
  obtain ⟨hxl, hxu⟩ := hx.bounds
  obtain ⟨hyl, hyu⟩ := hy.bounds
  have hxp : 0 ≤ x * (2 ^ 53 + 1) := by linarith
  have hyp : 0 ≤ y * (2 ^ 53 + 1) := by linarith
  have hl := mul_le_mul hxl hyl (by positivity) hxp
  have hu := mul_le_mul hxu hyu hyp (by positivity)
  rw [mul_mul_mul_comm, mul_mul_mul_comm x] at hl
  rw [mul_mul_mul_comm, mul_mul_mul_comm a] at hu
  have hab := mul_nonneg ha hb
  generalize x * y = p at *
  generalize a * b = r at *
  rw [abs_le]
  constructor <;> linarith

theorem div (hx : IsRounded x a) (hy : IsRounded y b) (hb : 0 < b) :
    |x / y - a / b| ≤ a / b / 2 ^ 52 := by
  obtain ⟨hxl, hxu⟩ := hx.bounds
  obtain ⟨hyl, hyu⟩ := hy.bounds
  have hy₀ : 0 < y := by linarith
  have hq : 0 ≤ a / b := div_nonneg hx.nonneg hb.le
  have ha : a = a / b * b := (div_mul_cancel₀ a hb.ne').symm
  generalize a / b = q at *
  subst ha
  have hl := mul_le_mul_of_nonneg_left hyl hq
  have hu := mul_le_mul_of_nonneg_left hyu hq
  have hqy := mul_nonneg hq hy₀.le
  have hlow : q - q / 2 ^ 52 ≤ x / y := (le_div_iff₀ hy₀).mpr (by linarith)
  have hhigh : x / y ≤ q + q / 2 ^ 52 := (div_le_iff₀ hy₀).mpr (by linarith)
  rw [abs_le]
  constructor <;> linarith

theorem div_right {c : ℚ} (h : IsRounded x a) (hc : 0 < c) : IsRounded (x / c) (a / c) := by
  rw [IsRounded, ← sub_div, abs_div, abs_of_pos hc, div_mul_eq_mul_div]
  exact div_le_div_of_nonneg_right h hc.le

end IsRounded

section

variable {significand : Nat}

theorem ten_pow_pos (power : Nat) : 0 < Nat.pow 10 power :=
  Nat.pow_pos (by decide)

theorem ofWhole_pos {n : Nat} (hn : 0 < n) : 0 < ofWhole n := by
  have h := (isRounded_ofWhole hn).bounds.1
  have hp : (0 : ℚ) < n * one := mul_pos (Nat.cast_pos.mpr hn) one_cast_pos
  have hq : (0 : ℚ) < ofWhole n := by linarith
  exact_mod_cast hq

theorem exists_one_eq : ∃ m, one = 1 <<< m :=
  ⟨1074, rfl⟩

theorem onGrid_mul_one (hs : significand ≤ 1 <<< 53) : OnGrid (significand * one) :=
  ⟨significand, 1074, hs, by rw [one, Nat.one_shiftLeft, Nat.shiftLeft_eq]⟩

theorem ofWhole_of_le (hs : significand ≤ 1 <<< 53) : ofWhole significand = significand * one := by
  have h := nearest_mul_self (onGrid_mul_one hs) Nat.one_pos
  rwa [Nat.mul_one] at h

theorem abs_ofWhole_sub_le {k : Nat} (hs : significand < 2 ^ (53 + k)) :
    |(ofWhole significand : ℚ) - significand * one| ≤ 2 ^ k * one / 2 := by
  obtain ⟨m, hm⟩ := exists_one_eq
  have ho : (one : ℚ) = 2 ^ m := by rw [hm, cast_one_shiftLeft]
  have hlt : ((significand * one : ℕ) / (1 : ℕ) : ℚ) < 2 ^ (53 + (k + m)) := by
    rw [Nat.cast_one, div_one, Nat.cast_mul, ho, ← Nat.add_assoc, pow_add]
    exact mul_lt_mul_of_pos_right (mod_cast hs) (by positivity)
  have h := abs_nearest_sub_le_of_lt Nat.one_pos hlt
  rwa [Nat.cast_one, div_one, Nat.cast_mul, pow_add, ← ho] at h

theorem ofWhole_ten_pow {power : Nat} (h : power ≤ 22) :
    ofWhole (Nat.pow 10 power) = Nat.pow 10 power * one := by
  obtain ⟨m, hm⟩ := exists_one_eq
  have hg : OnGrid (Nat.pow 10 power * one) := by
    refine ⟨5 ^ power, power + m, ?_, ?_⟩
    · exact (Nat.pow_le_pow_right (by decide) h).trans (by decide)
    · show 10 ^ power * one = _
      rw [hm, Nat.one_shiftLeft, Nat.shiftLeft_eq, Nat.pow_add, ← Nat.mul_assoc, ← Nat.mul_pow]
  have h := nearest_mul_self hg Nat.one_pos
  rwa [Nat.mul_one] at h

theorem isClose_of_le {exact computed : ℚ} (h : |computed - exact| ≤ exact / 2 ^ 52) :
    IsClose exact computed :=
  h.trans (le_max_left _ _)

theorem isClose_mul_one {x y : ℚ} (h : |y - x| ≤ x / 2 ^ 52) : IsClose (x * one) (y * one) := by
  apply isClose_of_le
  rw [← sub_mul, abs_mul, abs_of_pos one_cast_pos, mul_div_right_comm]
  exact mul_le_mul_of_nonneg_right h one_cast_pos.le

theorem isClose_times (hs : 0 < significand) (power : Nat) :
    IsClose (significand * 10 ^ power * one)
      ((ofWhole significand * ofWhole (Nat.pow 10 power) : ℕ) / one) := by
  have ho := one_cast_pos
  have h := (isRounded_ofWhole hs).mul (isRounded_ofWhole (ten_pow_pos power))
  rw [cast_pow_ten] at h
  apply isClose_of_le
  have he : (ofWhole significand * ofWhole (Nat.pow 10 power) : ℕ) / one -
      (significand * 10 ^ power * one : ℚ) = (ofWhole significand * ofWhole (Nat.pow 10 power) -
        significand * one * (10 ^ power * one)) / one := by
    push_cast
    field_simp
  rw [he, abs_div, abs_of_pos ho, div_le_iff₀ ho]
  calc _ ≤ _ := h
    _ = _ := by ring

theorem isClose_dividedBy (hs : 0 < significand) (power : Nat) :
    IsClose (significand * 10 ^ (-power : ℤ) * one)
      ((ofWhole significand * one : ℕ) / ofWhole (Nat.pow 10 power)) := by
  have ho := one_cast_pos
  have hp : (0 : ℚ) < (Nat.pow 10 power : ℕ) := Nat.cast_pos.mpr (ten_pow_pos power)
  have h := (isRounded_ofWhole hs).div (isRounded_ofWhole (ten_pow_pos power)) (mul_pos hp ho)
  rw [mul_div_mul_right _ _ ho.ne', cast_pow_ten] at h
  rw [zpow_neg, zpow_natCast, ← div_eq_mul_inv, Nat.cast_mul, mul_div_right_comm]
  exact isClose_mul_one h

end

end PhraseSql.Number

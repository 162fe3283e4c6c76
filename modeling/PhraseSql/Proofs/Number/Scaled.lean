import PhraseSql.Proofs.Number.FirstQuotient

/-!
A significand and a power of ten are rounded before they meet, and rounded again after that. Up to
this last step they come close to their product.
-/

namespace PhraseSql.Number

section

variable {significand : Nat}

theorem abs_div_sub_le {x exact rounded ten : ℚ} (he : 0 ≤ exact) (hb : exact ≤ 2 ^ 52)
    (ht : 10 ≤ ten) (hr : IsRounded rounded ten)
    (hx : |x - exact * ten| ≤ 1 / 2 + exact * ten * (11 / 5) / 2 ^ 53) :
    |x / rounded - exact| ≤ 7 / 4 := by
  obtain ⟨hrl, hru⟩ := hr.bounds
  obtain ⟨hxl, hxu⟩ := abs_le.mp hx
  have hr₀ : 0 < rounded := by linarith
  have hl := mul_le_mul_of_nonneg_left hrl he
  have hu := mul_le_mul_of_nonneg_left hru he
  have hb := mul_le_mul_of_nonneg_right hb (show 0 ≤ ten by linarith)
  have hlow : exact - 7 / 4 ≤ x / rounded := (le_div_iff₀ hr₀).mpr (by linarith)
  have hhigh : x / rounded ≤ exact + 7 / 4 := (div_le_iff₀ hr₀).mpr (by linarith)
  rw [abs_le]
  constructor <;> linarith

theorem le_of_two_pow_lt_mul (hlt : significand < 10 ^ 17) {r : Nat}
    (h : (2 ^ 52 * 10 ^ r : ℚ) < significand * least) : r ≤ 22 := by
  by_contra hr
  obtain ⟨hbl, hbu⟩ := least_bounds
  have hp : (10 : ℚ) ^ 17 ≤ 10 ^ r := pow_le_pow_right₀ (by norm_num) (by omega)
  have hs : (significand : ℚ) ≤ 10 ^ 17 := mod_cast hlt.le
  have hm := mul_le_mul_of_nonneg_right (hs.trans hp) (show 0 ≤ least by linarith)
  have hu := mul_le_mul_of_nonneg_left hbu (show (0 : ℚ) ≤ 10 ^ r by positivity)
  linarith

theorem isClose_second (hs : 0 < significand) (hlt : significand < 10 ^ 17) {r : Nat} (hr : 0 < r) :
    IsClose (significand * least / 10 ^ r)
      ((firstQuotient significand * one : ℕ) / ofWhole (Nat.pow 10 r)) := by
  have hone := one_cast_pos
  have hten : (10 : ℚ) ≤ 10 ^ r := by
    calc (10 : ℚ) = 10 ^ 1 := (pow_one _).symm
      _ ≤ 10 ^ r := pow_le_pow_right₀ (by norm_num) hr
  have hpos : (0 : ℚ) < 10 ^ r := by positivity
  have hl := least_bounds.1
  have hA : (0 : ℚ) ≤ significand * least := mul_nonneg (Nat.cast_nonneg _) (by linarith)
  have he : significand * least / 10 ^ r * 10 ^ r = significand * least :=
    div_mul_cancel₀ _ hpos.ne'
  by_cases hb : (significand * least / 10 ^ r : ℚ) ≤ 2 ^ 52
  · have hp := (isRounded_ofWhole (ten_pow_pos r)).div_right hone
    rw [mul_div_cancel_right₀ _ hone.ne', cast_pow_ten] at hp
    have hx := abs_firstQuotient_sub_le hs
    rw [← he] at hx
    apply le_max_of_le_right
    rw [Nat.cast_mul, ← div_div_eq_mul_div]
    exact abs_div_sub_le (div_nonneg hA hpos.le) hb hten hp hx
  · rw [not_le, lt_div_iff₀ hpos] at hb
    -- what is left is large only if the second power of ten is small, and then not rounded
    have hr := le_of_two_pow_lt_mul hlt hb
    have hx := abs_firstQuotient_sub_le_of_le hs (le_firstQuotient hs (by linarith))
    apply isClose_of_le
    rw [ofWhole_ten_pow hr, Nat.cast_mul, Nat.cast_mul, mul_div_mul_right _ _ hone.ne', cast_pow_ten,
      ← sub_div, abs_div, abs_of_pos hpos, div_right_comm]
    exact div_le_div_of_nonneg_right hx hpos.le

theorem scaled?_negSucc_le {p : Nat} (h : p + 1 ≤ largestPower) :
    scaled? significand (.negSucc p) =
      some (nearest (ofWhole significand * one) (ofWhole (Nat.pow 10 (p + 1)))) := by
  rw [scaled?, shrink, if_pos h, dividedBy]

theorem scaled?_negSucc_lt {p : Nat} (hs : 0 < significand) (h : largestPower < p + 1)
    (h' : p + 1 ≤ 2 * largestPower) :
    scaled? significand (.negSucc p) = some (nearest (firstQuotient significand * one)
      (ofWhole (Nat.pow 10 (p + 1 - largestPower)))) := by
  rw [scaled?, shrink, if_neg (by omega), if_neg (ofWhole_pos hs).ne', shrink, if_pos (by omega),
    dividedBy, firstQuotient]

theorem le_largestPower_of_lt {p : Nat} (hs : 0 < significand)
    (hu : (significand * 10 ^ p * one : ℚ) < overflow) : p ≤ largestPower := by
  by_contra hp
  have ho : (overflow : ℚ) ≤ 10 ^ (largestPower + 1) * one := by
    rw [← cast_pow_ten, ← Nat.cast_mul, Nat.cast_le]
    decide +kernel
  have ht : (10 : ℚ) ^ (largestPower + 1) ≤ 10 ^ p :=
    pow_le_pow_right₀ (by norm_num) (Nat.not_le.mp hp)
  have hq : (10 : ℚ) ^ p ≤ significand * 10 ^ p :=
    le_mul_of_one_le_left (by positivity) (mod_cast hs)
  have hm := mul_le_mul_of_nonneg_right (ht.trans hq) one_cast_pos.le
  exact absurd hu (not_lt.mpr (ho.trans hm))

theorem le_of_one_le {p : Nat} (hlt : significand < 10 ^ 17)
    (hl : 1 ≤ 2 * (significand * 10 ^ (-p : ℤ) * one : ℚ)) : p ≤ 2 * largestPower := by
  by_contra hp
  have hpos : (0 : ℚ) < 10 ^ p := by positivity
  have ho : (2 * (10 ^ 17 * one) : ℚ) ≤ 10 ^ (2 * largestPower) := by
    rw [← cast_pow_ten (2 * largestPower)]
    exact_mod_cast (show 2 * (Nat.pow 10 17 * one) ≤ Nat.pow 10 (2 * largestPower) by decide +kernel)
  have ht : (10 : ℚ) ^ (2 * largestPower) < 10 ^ p :=
    pow_lt_pow_right₀ (by norm_num) (Nat.not_le.mp hp)
  have hs : (significand : ℚ) ≤ 10 ^ 17 := mod_cast hlt.le
  have hm := mul_le_mul_of_nonneg_right hs one_cast_pos.le
  rw [zpow_neg, zpow_natCast, mul_right_comm, ← div_eq_mul_inv, ← mul_div_assoc, le_div_iff₀ hpos,
    one_mul] at hl
  linarith

theorem natAbs_le (hs : 0 < significand) (hlt : significand < 10 ^ 17) {e : ℤ}
    (hl : 1 ≤ 2 * (significand * 10 ^ e * one : ℚ)) (hu : (significand * 10 ^ e * one : ℚ) < overflow) :
    e.natAbs ≤ 2 * largestPower := by
  cases e with
  | ofNat p =>
    rw [Int.ofNat_eq_natCast, zpow_natCast] at hu
    exact (le_largestPower_of_lt hs hu).trans (by decide)
  | negSucc p =>
    rw [Int.negSucc_eq, ← Nat.cast_succ] at hl
    exact le_of_one_le hlt hl

theorem mul_zpow_neg_mul (significand r : Nat) :
    (significand * 10 ^ (-(largestPower + r : ℕ) : ℤ) * one : ℚ) = significand * least / 10 ^ r := by
  rw [zpow_neg, zpow_natCast, pow_add, mul_inv, least]
  ring

theorem exists_isClose (hs : 0 < significand) (hlt : significand < 10 ^ 17) {e : ℤ}
    (hl : 1 ≤ 2 * (significand * 10 ^ e * one : ℚ)) (hu : (significand * 10 ^ e * one : ℚ) < overflow) :
    ∃ n d : Nat, 0 < d ∧ scaled? significand e = some (nearest n d) ∧
      IsClose (significand * 10 ^ e * one) (n / d) := by
  cases e with
  | ofNat p =>
    rw [Int.ofNat_eq_natCast, zpow_natCast] at hu ⊢
    exact ⟨_, _, one_pos, if_pos (le_largestPower_of_lt hs hu), isClose_times hs p⟩
  | negSucc p =>
    have hd (power : Nat) := ofWhole_pos (ten_pow_pos power)
    rw [Int.negSucc_eq, ← Nat.cast_succ] at hl ⊢
    by_cases hp : p + 1 ≤ largestPower
    · exact ⟨_, _, hd (p + 1), scaled?_negSucc_le hp, isClose_dividedBy hs (p + 1)⟩
    · have hr : 0 < p + 1 - largestPower := by omega
      have he := mul_zpow_neg_mul significand (p + 1 - largestPower)
      rw [Nat.add_sub_cancel' (by omega)] at he
      refine ⟨_, _, hd (p + 1 - largestPower),
        scaled?_negSucc_lt hs (Nat.not_le.mp hp) (le_of_one_le hlt hl), ?_⟩
      rw [he]
      exact isClose_second hs hlt hr

theorem exists_exact (hs : significand ≤ 1 <<< 53) {e : ℤ} (he : e.natAbs ≤ 22) :
    ∃ n d : Nat, 0 < d ∧ scaled? significand e = some (nearest n d) ∧
      (n / d : ℚ) = significand * 10 ^ e * one := by
  have ho := one_cast_pos
  have hle : (22 : Nat) ≤ largestPower := by decide
  cases e with
  | ofNat p =>
    have hp : p ≤ 22 := he
    refine ⟨_, _, one_pos, if_pos (hp.trans hle), ?_⟩
    rw [ofWhole_of_le hs, ofWhole_ten_pow hp, Int.ofNat_eq_natCast, zpow_natCast]
    push_cast
    rw [cast_pow_ten]
    field_simp
  | negSucc p =>
    have hp : p + 1 ≤ 22 := he
    refine ⟨_, _, ofWhole_pos (ten_pow_pos (p + 1)), scaled?_negSucc_le (hp.trans hle), ?_⟩
    rw [ofWhole_of_le hs, ofWhole_ten_pow hp, zpow_negSucc]
    push_cast
    rw [cast_pow_ten]
    field_simp

end

end PhraseSql.Number

import Mathlib.Algebra.Order.Field.Rat
import Mathlib.Tactic.Linarith
import Mathlib.Tactic.NormNum
import Mathlib.Tactic.Positivity
import PhraseSql.Proofs.Number.Rounding

namespace PhraseSql.Number

theorem spacing_eq (units : Nat) : spacing units = 2 ^ (units.log2 - 52) := by
  rw [spacing, Nat.one_shiftLeft]

theorem spacing_pos (units : Nat) : 0 < spacing units := by
  rw [spacing_eq]
  exact Nat.two_pow_pos _

theorem lt_spacing_mul (units : Nat) : units < spacing units * 2 ^ 53 := by
  rw [spacing_eq, ← Nat.pow_add]
  apply Nat.lt_log2_self.trans_le
  apply Nat.pow_le_pow_right (by decide)
  omega

theorem spacing_mul_le {units : Nat} (h : 1 < spacing units) : spacing units * 2 ^ 52 ≤ units := by
  rw [spacing_eq] at h ⊢
  have hl : 52 < units.log2 := by
    by_contra hl
    rw [Nat.sub_eq_zero_of_le (by omega)] at h
    omega
  have hu : units ≠ 0 := by
    rintro rfl
    exact absurd hl (by decide)
  rw [← Nat.pow_add, Nat.sub_add_cancel hl.le]
  exact Nat.log2_self_le hu

theorem spacing_le_two_pow {units k : Nat} (h : units < 2 ^ (53 + k)) : spacing units ≤ 2 ^ k := by
  rw [spacing_eq]
  apply Nat.pow_le_pow_right (by decide)
  by_cases hu : units = 0
  · rw [hu]
    exact Nat.zero_le k
  · have hl := (Nat.log2_lt hu).mpr h
    omega

theorem two_pow_le_spacing {units k : Nat} (h : 2 ^ (52 + k) ≤ units) : 2 ^ k ≤ spacing units := by
  have hu : units ≠ 0 := by
    rintro rfl
    exact absurd h (Nat.not_le.mpr (Nat.two_pow_pos _))
  have hl := (Nat.le_log2 hu).mpr h
  rw [spacing_eq]
  apply Nat.pow_le_pow_right (by decide)
  omega

theorem spacing_eq_one {units : Nat} (h : units < 2 ^ 53) : spacing units = 1 :=
  Nat.le_antisymm (@spacing_le_two_pow units 0 h) (spacing_pos units)

theorem spacing_mono {x y : Nat} (h : x ≤ y) : spacing x ≤ spacing y := by
  rw [spacing_eq x]
  by_cases hx : 52 ≤ x.log2
  · apply two_pow_le_spacing
    have hz : x ≠ 0 := by
      rintro rfl
      exact absurd hx (by decide)
    rw [Nat.add_sub_cancel' hx]
    exact (Nat.log2_self_le hz).trans h
  · rw [Nat.sub_eq_zero_of_le (by omega)]
    exact spacing_pos y

theorem spacing_dvd_spacing {x y : Nat} (h : spacing x ≤ spacing y) : spacing x ∣ spacing y := by
  rw [spacing_eq, spacing_eq] at h ⊢
  exact Nat.pow_dvd_pow 2 ((Nat.pow_le_pow_iff_right (by decide)).mp h)

theorem two_mul_spacing_le {x y : Nat} (h : spacing x < spacing y) :
    2 * spacing x ≤ spacing y := by
  rw [spacing_eq, spacing_eq] at h ⊢
  rw [← Nat.pow_succ']
  exact Nat.pow_le_pow_right (by decide) ((Nat.pow_lt_pow_iff_right (by decide)).mp h)

theorem OnGrid.spacing_dvd {units : Nat} (h : OnGrid units) : spacing units ∣ units := by
  obtain ⟨significand, place, hs, rfl⟩ := h
  rw [Nat.one_shiftLeft] at hs
  rw [Nat.shiftLeft_eq]
  rcases Nat.lt_or_eq_of_le hs with hs | rfl
  · have hp : spacing (significand * 2 ^ place) ≤ 2 ^ place := by
      apply spacing_le_two_pow
      rw [Nat.pow_add]
      exact Nat.mul_lt_mul_of_pos_right hs (Nat.two_pow_pos place)
    rw [spacing_eq] at hp ⊢
    apply Nat.dvd_mul_left_of_dvd
    exact Nat.pow_dvd_pow 2 ((Nat.pow_le_pow_iff_right (by decide)).mp hp)
  · rw [spacing_eq, ← Nat.pow_add]
    apply Nat.pow_dvd_pow 2
    rw [Nat.log2_two_pow]
    omega

theorem OnGrid.add_spacing_le {units : Nat} (h : OnGrid units) :
    units + spacing units ≤ spacing units * 2 ^ 53 := by
  obtain ⟨m, hm⟩ := h.spacing_dvd
  have hl := lt_spacing_mul units
  generalize spacing units = step at *
  subst hm
  exact Nat.mul_le_mul_left step (Nat.lt_of_mul_lt_mul_left hl)

section

variable {n d : Nat}

theorem spacing_dvd_nearest (n d : Nat) : spacing (n / d) ∣ nearest n d :=
  Nat.dvd_mul_left _ _

theorem spacing_mul_le_nearest (h : 2 ^ 52 ≤ n / d) :
    spacing (n / d) * 2 ^ 52 ≤ nearest n d := by
  have hs : spacing (n / d) * 2 ^ 52 ≤ n / d := spacing_le h
  rw [nearest, Nat.mul_comm]
  apply Nat.mul_le_mul_right
  have hq : 2 ^ 52 ≤ n / (d * spacing (n / d)) := by
    rw [← Nat.div_div_eq_div_mul]
    apply (Nat.le_div_iff_mul_le (spacing_pos _)).mpr
    rwa [Nat.mul_comm]
  apply hq.trans
  unfold roundDiv
  split
  · exact Nat.le_refl _
  · split <;> omega

theorem spacing_le_spacing_nearest (n d : Nat) : spacing (n / d) ≤ spacing (nearest n d) := by
  by_cases h : 1 < spacing (n / d)
  · have hq : 2 ^ 52 ≤ n / d :=
      (Nat.le_mul_of_pos_left _ (spacing_pos _)).trans (spacing_mul_le h)
    have hn := spacing_mul_le_nearest hq
    rw [spacing_eq (n / d)] at hn ⊢
    apply two_pow_le_spacing
    rwa [Nat.pow_add, Nat.mul_comm]
  · exact (Nat.le_of_not_lt h).trans (spacing_pos _)

theorem le_div_iff_cast (hd : 0 < d) (m : Nat) : m ≤ n / d ↔ (m : ℚ) ≤ n / d := by
  rw [Nat.le_div_iff_mul_le hd, le_div_iff₀ (Nat.cast_pos.mpr hd), ← Nat.cast_mul, Nat.cast_le]

theorem div_lt_iff_cast (hd : 0 < d) (m : Nat) : n / d < m ↔ (n / d : ℚ) < m := by
  rw [← not_le, le_div_iff_cast hd, not_le]

theorem abs_nearest_sub_le_half (hd : 0 < d) :
    |(nearest n d : ℚ) - n / d| ≤ spacing (n / d) / 2 := by
  obtain ⟨hu, hl⟩ := two_mul_roundDiv n (Nat.mul_pos hd (spacing_pos (n / d)))
  have he : roundDiv n (d * spacing (n / d)) * (d * spacing (n / d)) = nearest n d * d := by
    rw [nearest, Nat.mul_assoc, Nat.mul_comm d]
  rw [he] at hu hl
  have hdq : (0 : ℚ) < d := Nat.cast_pos.mpr hd
  have hu : (2 * (nearest n d * d) : ℚ) ≤ 2 * n + d * spacing (n / d) := mod_cast hu
  have hl : (2 * n : ℚ) ≤ 2 * (nearest n d * d) + d * spacing (n / d) := mod_cast hl
  have hq : (n : ℚ) / d * d = n := div_mul_cancel₀ _ hdq.ne'
  rw [abs_le]
  constructor
  · apply le_of_mul_le_mul_right _ hdq
    linarith
  · apply le_of_mul_le_mul_right _ hdq
    linarith

theorem abs_nearest_sub_le_of_lt (hd : 0 < d) {k : Nat} (h : (n / d : ℚ) < 2 ^ (53 + k)) :
    |(nearest n d : ℚ) - n / d| ≤ 2 ^ k / 2 := by
  have hlt : n / d < 2 ^ (53 + k) := by
    apply (div_lt_iff_cast hd _).mpr
    push_cast
    exact h
  have hs : (spacing (n / d) : ℚ) ≤ 2 ^ k := mod_cast spacing_le_two_pow hlt
  exact (abs_nearest_sub_le_half hd).trans (div_le_div_of_nonneg_right hs two_pos.le)

/-- Half a step is a smaller part of a rounded number than of the least number of its size, which
is not rounded at all. -/
theorem abs_nearest_sub_mul_le (hd : 0 < d) (h : 2 ^ 52 ≤ n / d) :
    |(nearest n d : ℚ) - n / d| * (2 ^ 53 + 1) ≤ n / d := by
  have hr := abs_nearest_sub_le_half (n := n) hd
  have hn : (spacing (n / d) * 2 ^ 52 : ℚ) ≤ nearest n d := mod_cast spacing_mul_le_nearest h
  have hq : (spacing (n / d) * 2 ^ 52 : ℚ) ≤ n / d :=
    mod_cast (le_div_iff_cast hd _).mp (spacing_le h)
  obtain ⟨m, hm⟩ := spacing_dvd_nearest n d
  have hs : (0 : ℚ) < spacing (n / d) := Nat.cast_pos.mpr (spacing_pos _)
  have hc : (nearest n d : ℚ) = spacing (n / d) * m := mod_cast hm
  generalize (n : ℚ) / d = q at *
  generalize (spacing (n / d) : ℚ) = step at *
  by_cases hb : step * (2 ^ 53 + 1) ≤ 2 * q
  · linarith
  · have hlt : (m : ℚ) < 2 ^ 52 + 1 := by
      have hu := (abs_le.mp hr).2
      apply lt_of_mul_lt_mul_left _ hs.le
      linarith
    have hle : (2 ^ 52 : ℚ) ≤ m := by
      apply le_of_mul_le_mul_left _ hs
      linarith
    have he : m = 2 ^ 52 := by
      have hlt : m < 2 ^ 52 + 1 := mod_cast hlt
      have hle : 2 ^ 52 ≤ m := mod_cast hle
      omega
    rw [hc, he, abs_of_nonpos (by push_cast; linarith)]
    push_cast
    linarith

theorem abs_nearest_sub_le (hd : 0 < d) :
    |(nearest n d : ℚ) - n / d| ≤ 1 / 2 + n / d / (2 ^ 53 + 1) := by
  have hq : (0 : ℚ) ≤ n / d := by positivity
  by_cases h : 2 ^ 52 ≤ n / d
  · have he := (le_div_iff₀ (by norm_num)).mpr (abs_nearest_sub_mul_le hd h)
    linarith
  · have hr := abs_nearest_sub_le_half (n := n) hd
    rw [spacing_eq_one (by omega), Nat.cast_one] at hr
    have hp : (0 : ℚ) ≤ n / d / (2 ^ 53 + 1) := by positivity
    linarith

theorem nearest_mul_self {units : Nat} (h : OnGrid units) (hd : 0 < d) :
    nearest (units * d) d = units := by
  have hs := spacing_pos units
  obtain ⟨m, hm⟩ := h.spacing_dvd
  have hn : units * d = m * (d * spacing units) := by
    rw [Nat.mul_left_comm, Nat.mul_comm m, ← hm, Nat.mul_comm]
  have hp : 0 < d * spacing units := Nat.mul_pos hd hs
  rw [nearest, Nat.mul_div_cancel _ hd, roundDiv, hn, Nat.mul_mod_left, if_pos (by omega),
    Nat.mul_div_cancel _ hp, Nat.mul_comm, ← hm]

end

end PhraseSql.Number

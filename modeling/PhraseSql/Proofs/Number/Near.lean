import PhraseSql.Proofs.Number.Spacing

namespace PhraseSql.Number

/-- At most two steps apart, where a step is the distance of neighbours of the greater one. -/
def IsNear (x y : Nat) : Prop :=
  x ≤ y + 2 * spacing x ∧ y ≤ x + 2 * spacing y

instance (x y : Nat) : Decidable (IsNear x y) :=
  inferInstanceAs (Decidable (_ ∧ _))

theorem IsNear.refl (x : Nat) : IsNear x x :=
  ⟨Nat.le_add_right _ _, Nat.le_add_right _ _⟩

/-- What is computed differs from what is exact as much as two roundings make it differ, or by less
than two of the smallest steps. -/
def IsClose (exact computed : ℚ) : Prop :=
  |computed - exact| ≤ max (exact / 2 ^ 52) (7 / 4)

section

variable {units n d : Nat} {exact computed : ℚ}

theorem abs_sub_lt_of_isClose (hg : OnGrid units) (ha : |exact - units| ≤ spacing units / 2)
    (hc : IsClose exact computed) : |computed - units| < 5 / 2 * spacing units := by
  have hb : (units + spacing units : ℚ) ≤ spacing units * 2 ^ 53 := mod_cast hg.add_spacing_le
  have hs : (1 : ℚ) ≤ spacing units := mod_cast spacing_pos units
  have ht := abs_sub_le computed exact units
  have hu := (abs_le.mp ha).2
  rcases le_max_iff.mp hc with hc | hc <;> linarith

theorem sub_le_of_isClose (ha : |exact - units| ≤ spacing units / 2)
    (hc : IsClose exact computed) (hs : 1 < spacing units)
    (hb : computed < spacing units * 2 ^ 52) : units - computed ≤ 7 / 4 * spacing units := by
  have hs : (2 : ℚ) ≤ spacing units := mod_cast hs
  have hu := (abs_le.mp ha).1
  rcases le_max_iff.mp hc with hc | hc
  · have hl := (abs_le.mp hc).1
    linarith
  · have hl := (abs_le.mp hc).1
    linarith

theorem le_add_two_mul_of_dvd {x y step : Nat} (hx : step ∣ x) (hy : step ∣ y)
    (h : (x : ℚ) < y + 3 * step) : x ≤ y + 2 * step := by
  obtain ⟨a, rfl⟩ := hx
  obtain ⟨b, rfl⟩ := hy
  have h : step * a < step * (b + 3) := by
    rw [Nat.mul_add, Nat.mul_comm step 3]
    exact_mod_cast h
  have hab : a ≤ b + 2 := Nat.le_of_lt_succ (Nat.lt_of_mul_lt_mul_left h)
  calc step * a ≤ step * (b + 2) := Nat.mul_le_mul_left step hab
    _ = step * b + 2 * step := by rw [Nat.mul_add, Nat.mul_comm step 2]

theorem le_nearest_add (hg : OnGrid units) (ha : |exact - units| ≤ spacing units / 2) (hd : 0 < d)
    (hc : IsClose exact (n / d)) (hle : nearest n d ≤ units) :
    units ≤ nearest n d + 2 * spacing units := by
  have hq := abs_lt.mp (abs_sub_lt_of_isClose hg ha hc)
  have hr := abs_le.mp (abs_nearest_sub_le_half (n := n) hd)
  have hs := (spacing_le_spacing_nearest n d).trans (spacing_mono hle)
  rcases Nat.lt_or_eq_of_le hs with hlt | heq
  -- below a power of two the steps are smaller, and the error is counted in these
  · have ht := two_mul_spacing_le hlt
    have htq : (2 * spacing (n / d) : ℚ) ≤ spacing units := mod_cast ht
    have hb : (n / d : ℚ) < spacing units * 2 ^ 52 := by
      have hm : n / d < spacing units * 2 ^ 52 := by
        apply (lt_spacing_mul (n / d)).trans_le
        rw [Nat.pow_succ', ← Nat.mul_assoc, Nat.mul_comm _ 2]
        exact Nat.mul_le_mul_right _ ht
      exact_mod_cast (div_lt_iff_cast hd _).mp hm
    have hl := sub_le_of_isClose ha hc (Nat.lt_of_le_of_lt (spacing_pos (n / d)) hlt) hb
    have hn : (units : ℚ) ≤ nearest n d + 2 * spacing units := by linarith
    exact_mod_cast hn
  · apply le_add_two_mul_of_dvd hg.spacing_dvd (heq ▸ spacing_dvd_nearest n d)
    rw [heq] at hr
    linarith

theorem nearest_le_add (hg : OnGrid units) (ha : |exact - units| ≤ spacing units / 2) (hd : 0 < d)
    (hc : IsClose exact (n / d)) (hle : units ≤ nearest n d) :
    nearest n d ≤ units + 2 * spacing (nearest n d) := by
  have hq := abs_lt.mp (abs_sub_lt_of_isClose hg ha hc)
  have hr := abs_le.mp (abs_nearest_sub_le_half (n := n) hd)
  have hs := spacing_mono hle
  by_cases hlt : spacing units < spacing (n / d)
  -- above a power of two the steps are larger, and fewer of them fit into the error
  · have ht : (2 * spacing units : ℚ) ≤ spacing (n / d) := mod_cast two_mul_spacing_le hlt
    have hsr : (spacing (n / d) : ℚ) ≤ spacing (nearest n d) :=
      mod_cast spacing_le_spacing_nearest n d
    have hn : (nearest n d : ℚ) ≤ units + 2 * spacing (nearest n d) := by linarith
    exact_mod_cast hn
  · have hls : (spacing (n / d) : ℚ) ≤ spacing units := mod_cast Nat.le_of_not_lt hlt
    have hdr : spacing units ∣ nearest n d :=
      (spacing_dvd_spacing hs).trans (onGrid_nearest n d).spacing_dvd
    have hn : nearest n d ≤ units + 2 * spacing units := by
      apply le_add_two_mul_of_dvd hdr hg.spacing_dvd
      linarith
    exact hn.trans (Nat.add_le_add_left (Nat.mul_le_mul_left 2 hs) units)

theorem isNear_nearest (hg : OnGrid units) (ha : |exact - units| ≤ spacing units / 2) (hd : 0 < d)
    (hc : IsClose exact (n / d)) : IsNear units (nearest n d) := by
  rcases Nat.le_total (nearest n d) units with hle | hle
  · exact ⟨le_nearest_add hg ha hd hc hle, hle.trans (Nat.le_add_right _ _)⟩
  · exact ⟨hle.trans (Nat.le_add_right _ _), nearest_le_add hg ha hd hc hle⟩

theorem overflow_eq : overflow = 1 <<< 53 * 1 <<< 2045 := by
  decide +kernel

theorem spacing_le_of_lt_overflow (h : units < overflow) : spacing units ≤ 1 <<< 2045 := by
  rw [overflow_eq, Nat.one_shiftLeft 53] at h
  generalize 2045 = k at *
  rw [Nat.one_shiftLeft] at h ⊢
  apply spacing_le_two_pow
  rwa [Nat.pow_add]

theorem add_spacing_le_overflow (hg : OnGrid units) (h : units < overflow) :
    units + spacing units ≤ overflow := by
  have hs := Nat.mul_le_mul_right (2 ^ 53) (spacing_le_of_lt_overflow h)
  rw [overflow_eq, Nat.one_shiftLeft 53, Nat.mul_comm]
  exact hg.add_spacing_le.trans hs

theorem nearest_lt_overflow (hg : OnGrid units) (ha : |exact - units| ≤ spacing units / 2)
    (hd : 0 < d) (hc : IsClose exact (n / d)) (hu : units + 3 * 1 <<< 2045 ≤ overflow) :
    nearest n d < overflow := by
  have hp : 0 < 1 <<< 2045 := Nat.one_shiftLeft 2045 ▸ Nat.two_pow_pos 2045
  have hs {x : Nat} (hx : x < overflow) := spacing_le_of_lt_overflow hx
  rw [overflow_eq, Nat.one_shiftLeft 53] at hu hs ⊢
  generalize 1 <<< 2045 = top at *
  have hsu : (spacing units : ℚ) ≤ top := mod_cast hs (by omega)
  have huq : (units + 3 * top : ℚ) ≤ 2 ^ 53 * top := mod_cast hu
  have hpq : (0 : ℚ) < top := Nat.cast_pos.mpr hp
  have hq := (abs_lt.mp (abs_sub_lt_of_isClose hg ha hc)).2
  have hlt : n / d < 2 ^ 53 * top := by
    apply (div_lt_iff_cast hd _).mpr
    push_cast
    linarith
  have hsq : (spacing (n / d) : ℚ) ≤ top := mod_cast hs hlt
  have hr := (abs_le.mp (abs_nearest_sub_le_half (n := n) hd)).2
  have hn : (nearest n d : ℚ) < 2 ^ 53 * top := by linarith
  exact_mod_cast hn

end

end PhraseSql.Number

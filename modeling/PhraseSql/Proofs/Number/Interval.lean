import PhraseSql.Number.Shortest
import PhraseSql.Proofs.Number.Spacing

namespace PhraseSql.Number

theorem roundDiv_eq {n d m : Nat} (hd : 0 < d) (hl : 2 * (m * d) ≤ 2 * n + d)
    (hu : 2 * n ≤ 2 * (m * d) + d)
    (ht : 2 * (m * d) = 2 * n + d ∨ 2 * n = 2 * (m * d) + d → m % 2 = 0) : roundDiv n d = m := by
  have hq := Nat.div_add_mod n d
  have hr := Nat.mod_lt n hd
  rw [Nat.mul_comm] at hq
  have hs : (n / d + 1) * d = n / d * d + d := Nat.succ_mul (n / d) d
  have hm : m = n / d ∨ m = n / d + 1 := by
    by_contra hm
    rcases Nat.lt_or_ge m (n / d) with h | h
    · have hle := Nat.mul_le_mul_right d (Nat.succ_le_of_lt h)
      rw [Nat.succ_mul] at hle
      omega
    · have hle := Nat.mul_le_mul_right d (show n / d + 1 + 1 ≤ m by omega)
      rw [Nat.succ_mul] at hle
      omega
  unfold roundDiv
  rcases hm with rfl | rfl
  · split
    · rfl
    · rw [if_neg (by omega), ht (.inr (by omega)), Nat.add_zero]
  · rw [if_neg (by omega)]
    split
    · rfl
    · have ht := ht (.inl (by omega))
      omega

namespace Interval

structure Has (i : Interval) (x : ℚ) : Prop where
  low : i.low ≤ 2 * x
  high : 2 * x ≤ i.high
  inside : i.closed = false → i.low < 2 * x ∧ 2 * x < i.high

theorem contains_iff {i : Interval} {point scale : Nat} (hs : 0 < scale) :
    i.contains point scale = true ↔ i.Has (point / scale) := by
  have hq : (0 : ℚ) < scale := Nat.cast_pos.mpr hs
  have hl : (i.low : ℚ) ≤ 2 * (point / scale) ↔ i.low * scale ≤ 2 * point := by
    rw [← mul_div_assoc, le_div_iff₀ hq]
    norm_cast
  have hh : 2 * (point / scale) ≤ (i.high : ℚ) ↔ 2 * point ≤ i.high * scale := by
    rw [← mul_div_assoc, div_le_iff₀ hq]
    norm_cast
  have hl' : (i.low : ℚ) < 2 * (point / scale) ↔ i.low * scale < 2 * point := by
    rw [← mul_div_assoc, lt_div_iff₀ hq]
    norm_cast
  have hh' : 2 * (point / scale) < (i.high : ℚ) ↔ 2 * point < i.high * scale := by
    rw [← mul_div_assoc, div_lt_iff₀ hq]
    norm_cast
  unfold contains
  split
  · rename_i hc
    rw [Bool.and_eq_true, decide_eq_true_eq, decide_eq_true_eq, ← hl, ← hh]
    constructor
    · rintro ⟨h, h'⟩
      exact ⟨h, h', fun hf => absurd hc (by simp [hf])⟩
    · intro h
      exact ⟨h.low, h.high⟩
  · rename_i hc
    rw [Bool.and_eq_true, decide_eq_true_eq, decide_eq_true_eq, ← hl', ← hh']
    constructor
    · intro h
      exact ⟨h.1.le, h.2.le, fun _ => h⟩
    · intro h
      exact h.inside (Bool.eq_false_iff.mpr hc)

section

variable {units : Nat}

/-- The step below a magnitude, which is half of the step above it where the size changes. -/
def stepBelow (units : Nat) : Nat :=
  if units = 1 <<< units.log2 ∧ 53 ≤ units.log2 then spacing units / 2 else spacing units

theorem stepBelow_le (units : Nat) : stepBelow units ≤ spacing units := by
  unfold stepBelow
  split <;> omega

theorem two_mul_le_low_add (units : Nat) : 2 * units ≤ (around units).low + stepBelow units := by
  show 2 * units ≤ 2 * units - stepBelow units + stepBelow units
  omega

inductive Divided (units : Nat) : Prop where
  | least (k : Nat) (hs : stepBelow units = 2 ^ k) (hu : units = 2 ^ 53 * 2 ^ k)
  | inner (hs : stepBelow units = spacing units)
      (hl : 1 < spacing units → spacing units * 2 ^ 52 + spacing units ≤ units)

theorem divided (hg : OnGrid units) : Divided units := by
  by_cases hb : units = 1 <<< units.log2 ∧ 53 ≤ units.log2
  · have hk : units.log2 - 52 = units.log2 - 53 + 1 := by omega
    refine .least (units.log2 - 53) ?_ ?_
    · rw [stepBelow, if_pos hb, spacing_eq, hk, Nat.pow_succ, Nat.mul_div_cancel _ (by decide)]
    · rw [← Nat.pow_add, Nat.add_sub_cancel' hb.2, ← Nat.one_shiftLeft]
      exact hb.1
  · refine .inner (if_neg hb) ?_
    intro hs
    have hl := spacing_mul_le hs
    obtain ⟨m, hm⟩ := hg.spacing_dvd
    have hne : m ≠ 2 ^ 52 := by
      rintro rfl
      apply hb
      have hlog : 53 ≤ units.log2 := by
        by_contra hlog
        rw [spacing_eq, Nat.sub_eq_zero_of_le (by omega)] at hs
        omega
      refine ⟨?_, hlog⟩
      rw [spacing_eq, ← Nat.pow_add, Nat.sub_add_cancel (by omega)] at hm
      rw [Nat.one_shiftLeft]
      exact hm
    generalize spacing units = step at *
    subst hm
    have hle := Nat.le_of_mul_le_mul_left hl (by omega)
    rw [← Nat.mul_succ]
    exact Nat.mul_le_mul_left step (by omega)

theorem Has.abs_sub_le {x : ℚ} (h : (around units).Has x) : |x - units| ≤ spacing units / 2 := by
  have hl : (2 * units : ℚ) ≤ (around units).low + spacing units :=
    mod_cast (two_mul_le_low_add units).trans (Nat.add_le_add_left (stepBelow_le units) _)
  have hx := h.low
  have hh : 2 * x ≤ 2 * units + spacing units := mod_cast h.high
  rw [abs_le]
  constructor <;> linarith

variable {n d : Nat}

theorem bounds_of_contains {i : Interval} (h : i.contains n d = true) :
    i.low * d ≤ 2 * n ∧ 2 * n ≤ i.high * d ∧
      (i.low * d = 2 * n ∨ 2 * n = i.high * d → i.closed = true) := by
  unfold contains at h
  split at h
  · rename_i hc
    rw [Bool.and_eq_true, decide_eq_true_eq, decide_eq_true_eq] at h
    exact ⟨h.1, h.2, fun _ => hc⟩
  · rw [Bool.and_eq_true, decide_eq_true_eq, decide_eq_true_eq] at h
    exact ⟨h.1.le, h.2.le, fun ht => by omega⟩

theorem nearest_eq_of_step {step m : Nat} (hd : 0 < d) (hs : spacing (n / d) = step)
    (hl : 2 * (m * step * d) ≤ 2 * n + d * step) (hu : 2 * n ≤ 2 * (m * step * d) + d * step)
    (ht : 2 * (m * step * d) = 2 * n + d * step ∨ 2 * n = 2 * (m * step * d) + d * step →
      m % 2 = 0) : nearest n d = m * step := by
  have he : m * step * d = m * (d * step) := by
    rw [Nat.mul_assoc, Nat.mul_comm step]
  rw [he] at hl hu ht
  rw [nearest, hs, roundDiv_eq (Nat.mul_pos hd (hs ▸ spacing_pos _)) hl hu ht]

theorem nearest_eq_of_le (hg : OnGrid units) (hd : 0 < d)
    (h : (around units).contains n d = true) (hle : units ≤ n / d) : nearest n d = units := by
  obtain ⟨-, hh, ht⟩ := bounds_of_contains h
  have hs := spacing_pos units
  have hu := hg.add_spacing_le
  have hn := (Nat.le_div_iff_mul_le hd).mp hle
  have hD : 0 < d * spacing units := Nat.mul_pos hd hs
  have hhigh : (around units).high * d = 2 * (units * d) + d * spacing units := by
    show (2 * units + spacing units) * d = _
    rw [Nat.add_mul, Nat.mul_assoc, Nat.mul_comm d]
  have hsp : spacing (n / d) = spacing units := by
    apply Nat.le_antisymm _ (spacing_mono hle)
    have hlt : n / d < units + spacing units := by
      apply (Nat.div_lt_iff_lt_mul hd).mpr
      rw [Nat.add_mul, Nat.mul_comm (spacing units)]
      omega
    have hlt := hlt.trans_le hu
    rw [spacing_eq units, ← Nat.pow_add, Nat.add_comm] at hlt
    rw [spacing_eq units]
    exact spacing_le_two_pow hlt
  have hm := Nat.div_mul_cancel hg.spacing_dvd
  rw [hhigh] at hh ht
  have h := nearest_eq_of_step hd hsp (m := units / spacing units)
  rw [hm] at h
  apply h (by omega) (by omega)
  rintro (he | he)
  · omega
  · exact of_decide_eq_true (ht (.inr he))

theorem nearest_eq_of_lt (hg : OnGrid units) (hd : 0 < d)
    (h : (around units).contains n d = true) (hlt : n / d < units) : nearest n d = units := by
  obtain ⟨hl, -, ht⟩ := bounds_of_contains h
  have hn := (Nat.div_lt_iff_lt_mul hd).mp hlt
  have hlow := Nat.mul_le_mul_right d (two_mul_le_low_add units)
  rw [Nat.add_mul, Nat.mul_comm (stepBelow units), Nat.mul_assoc] at hlow
  have hge : units ≤ n / d + stepBelow units := by
    rw [Nat.add_comm, ← Nat.sub_le_iff_le_add']
    apply (Nat.le_div_iff_mul_le hd).mpr
    rw [Nat.sub_mul, Nat.mul_comm (stepBelow units)]
    omega
  cases divided hg with
  | least k hs hu =>
    rw [hs] at hlow hge
    have hsp : spacing (n / d) = 2 ^ k := by
      apply Nat.le_antisymm
      · apply spacing_le_two_pow
        rw [Nat.pow_add]
        omega
      · apply two_pow_le_spacing
        rw [Nat.pow_add]
        omega
    have h := nearest_eq_of_step hd hsp (m := 2 ^ 53)
    rw [← hu] at h
    exact h (by omega) (by omega) fun _ => rfl
  | inner hs hb =>
    rw [hs] at hlow hge
    have hsp : spacing (n / d) = spacing units := by
      apply Nat.le_antisymm (spacing_mono hlt.le)
      by_cases hone : 1 < spacing units
      · have hb := hb hone
        rw [spacing_eq units] at hb hge ⊢
        apply two_pow_le_spacing
        rw [Nat.pow_add]
        omega
      · exact (Nat.le_of_not_lt hone).trans (spacing_pos _)
    have hm := Nat.div_mul_cancel hg.spacing_dvd
    have h := nearest_eq_of_step hd hsp (m := units / spacing units)
    rw [hm] at h
    apply h (by omega) (by omega)
    rintro (he | he)
    · exact of_decide_eq_true (ht (.inl (by omega)))
    · omega

theorem nearest_eq_of_has (hg : OnGrid units) (hd : 0 < d) (h : (around units).Has (n / d)) :
    nearest n d = units := by
  have h := (contains_iff hd).mpr h
  rcases Nat.lt_or_ge (n / d) units with hlt | hle
  · exact nearest_eq_of_lt hg hd h hlt
  · exact nearest_eq_of_le hg hd h hle

end

end Interval

end PhraseSql.Number

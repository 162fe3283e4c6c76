import PhraseSql.Number.Layout
import PhraseSql.Proofs.Number.Scaled
import PhraseSql.Proofs.Number.Shortest

namespace PhraseSql.Number

def Layout.zeros (layout : Layout) (d : Decimal) : Nat :=
  if layout.leastWritten ≤ d.exponent ∧ d.exponent ≤ layout.greatestWritten then
    (d.exponent + 2 - d.digits.length).toNat
  else 0

def Layout.significand (layout : Layout) (d : Decimal) : Nat :=
  Nat.ofDigitChars 10 d.digits 0 * 10 ^ layout.zeros d

def Layout.power (layout : Layout) (d : Decimal) : Int :=
  d.exponent + 1 - d.digits.length - layout.zeros d

theorem Layout.significand_mul (layout : Layout) (d : Decimal) :
    (layout.significand d * 10 ^ layout.power d : ℚ) = d.amount := by
  rw [significand, power, Decimal.amount, zpow_sub₀ (by norm_num : (10 : ℚ) ≠ 0) _ (layout.zeros d),
    zpow_natCast]
  push_cast
  field_simp

theorem ofDigitChars_cons (c : Char) (digits : List Char) :
    Nat.ofDigitChars 10 (c :: digits) 0 =
      (c.toNat - 48) * 10 ^ digits.length + Nat.ofDigitChars 10 digits 0 := by
  rw [Nat.ofDigitChars_cons, Nat.ofDigitChars_eq_ofDigitChars_zero, Nat.mul_zero, Nat.zero_add,
    Nat.mul_comm]
  rfl

theorem toNat_of_isDigit {c : Char} (h : c.isDigit = true) : 48 ≤ c.toNat ∧ c.toNat ≤ 57 := by
  unfold Char.isDigit at h
  simp only [Bool.and_eq_true, decide_eq_true_eq, ge_iff_le, UInt32.le_iff_toNat_le] at h
  exact h

theorem ofDigitChars_lt {digits : List Char} (h : ∀ c ∈ digits, c.isDigit = true) :
    Nat.ofDigitChars 10 digits 0 < 10 ^ digits.length := by
  induction digits with
  | nil => decide
  | cons c digits ih =>
    have hc := toNat_of_isDigit (h c List.mem_cons_self)
    have hlt := ih fun x hx => h x (List.mem_cons_of_mem _ hx)
    have hm := Nat.mul_le_mul_right (10 ^ digits.length) (show c.toNat - 48 ≤ 9 by omega)
    rw [ofDigitChars_cons, List.length_cons, Nat.pow_succ]
    omega

namespace Decimal.IsPlain

variable {d : Decimal}

theorem ofDigitChars_pos (h : d.IsPlain) : 0 < Nat.ofDigitChars 10 d.digits 0 := by
  obtain ⟨c, rest, hd, hc⟩ := h.first
  have hb := toNat_of_isDigit (h.isDigit c (hd ▸ List.mem_cons_self))
  have hne : c.toNat ≠ 48 := fun he => hc (Char.toNat_inj.mp he)
  have hp : 0 < 10 ^ rest.length := Nat.pow_pos (by decide)
  have hm := Nat.mul_le_mul_right (10 ^ rest.length) (show 1 ≤ c.toNat - 48 by omega)
  rw [hd, ofDigitChars_cons]
  omega

theorem significand_pos (h : d.IsPlain) (layout : Layout) : 0 < layout.significand d :=
  Nat.mul_pos h.ofDigitChars_pos (Nat.pow_pos (by decide))

theorem length_add_zeros_le (h : d.IsPlain) :
    d.digits.length + Layout.document.zeros d ≤ mostDigits := by
  have hl := h.length
  unfold Layout.zeros
  split
  · rename_i he
    have hu : d.exponent ≤ 15 := he.2
    have hm : mostDigits = 17 := rfl
    omega
  · exact hl

theorem significand_lt (h : d.IsPlain) : Layout.document.significand d < 10 ^ mostDigits := by
  have hp : 0 < 10 ^ Layout.document.zeros d := Nat.pow_pos (by decide)
  have hm := Nat.mul_lt_mul_of_pos_right (ofDigitChars_lt h.isDigit) hp
  rw [← Nat.pow_add] at hm
  exact hm.trans_le (Nat.pow_le_pow_right (by decide) h.length_add_zeros_le)

theorem natAbs_exponent_le (h : d.IsPlain)
    (hp : (Layout.document.power d).natAbs ≤ 2 * largestPower) :
    d.exponent.natAbs ≤ 2 * largestPower + mostDigits := by
  have hl := h.length_add_zeros_le
  obtain ⟨c, rest, hd, -⟩ := h.first
  have hc := congrArg List.length hd
  rw [List.length_cons] at hc
  rw [Layout.power] at hp
  omega

end Decimal.IsPlain

section

variable {units : Nat} {x : ℚ}

theorem one_le_two_mul (hg : OnGrid units) (hu : 0 < units) (h : (Interval.around units).Has x) :
    1 ≤ 2 * x := by
  have hl := Interval.two_mul_le_low_add units
  have hs := (Interval.stepBelow_le units).trans (Nat.le_of_dvd hu hg.spacing_dvd)
  have hq : (1 : ℚ) ≤ (Interval.around units).low := mod_cast (by omega)
  exact hq.trans h.low

theorem lt_overflow_of_has (hg : OnGrid units) (ho : units < overflow)
    (h : (Interval.around units).Has x) : x < overflow := by
  have ha := add_spacing_le_overflow hg ho
  have hq : (2 * units + spacing units : ℚ) < 2 * overflow := mod_cast (by omega)
  have hh : 2 * x ≤ 2 * units + spacing units := mod_cast h.high
  linarith

structure Rereads (units : Nat) (d : Decimal) (v : Nat) : Prop where
  scaled : scaled? (Layout.document.significand d) (Layout.document.power d) = some v
  lt : v < overflow
  near : IsNear units v
  exact : Layout.document.significand d ≤ 1 <<< 53 → (Layout.document.power d).natAbs ≤ 22 →
    v = units
  significand : Layout.document.significand d < 10 ^ mostDigits
  exponent : d.exponent.natAbs ≤ 2 * largestPower + mostDigits

theorem rereads_of_isPlain {d : Decimal} (hg : OnGrid units) (hu : 0 < units)
    (ho : units + 3 * 1 <<< 2045 ≤ overflow) (hp : d.IsPlain)
    (h : (Interval.around units).Has (d.amount * one)) : ∃ v, Rereads units d v := by
  have hlt : units < overflow := by
    have ht : 0 < 1 <<< 2045 := Nat.one_shiftLeft 2045 ▸ Nat.two_pow_pos 2045
    omega
  have hl := one_le_two_mul hg hu h
  have hb := lt_overflow_of_has hg hlt h
  have ha := h.abs_sub_le
  rw [← Layout.document.significand_mul] at h hl hb ha
  obtain ⟨n, m, hm, hs, hc⟩ :=
    exists_isClose (hp.significand_pos .document) hp.significand_lt hl hb
  refine ⟨nearest n m, hs, nearest_lt_overflow hg ha hm hc ho, isNear_nearest hg ha hm hc, ?_,
    hp.significand_lt,
    hp.natAbs_exponent_le (natAbs_le (hp.significand_pos .document) hp.significand_lt hl hb)⟩
  intro hle hpow
  obtain ⟨n', m', hm', hs', he⟩ := exists_exact hle hpow
  rw [hs, Option.some.injEq] at hs'
  rw [hs']
  apply Interval.nearest_eq_of_has hg hm'
  rwa [he]

end

theorem rereads_zero : Rereads 0 .zero 0 where
  scaled := by
    show some (shrink (ofWhole 0) 1) = some 0
    rw [shrink, if_pos (by decide)]
    decide +kernel
  lt := by decide +kernel
  near := .refl 0
  exact := fun _ _ => rfl
  significand := by decide +kernel
  exponent := by decide +kernel

theorem rereads_greatest : Rereads ((1 <<< 53 - 1) <<< 2045)
    (.shortest .even ((1 <<< 53 - 1) <<< 2045)) ((1 <<< 53 - 1) <<< 2045) where
  scaled := by decide +kernel
  lt := by decide +kernel
  near := .refl _
  exact := fun _ _ => rfl
  significand := by decide +kernel
  exponent := by decide +kernel

theorem rereads_second_greatest : Rereads ((1 <<< 53 - 2) <<< 2045)
    (.shortest .even ((1 <<< 53 - 2) <<< 2045)) ((1 <<< 53 - 1) <<< 2045) where
  scaled := by decide +kernel
  lt := by decide +kernel
  near := by decide +kernel
  exact := by decide +kernel
  significand := by decide +kernel
  exponent := by decide +kernel

theorem eq_of_overflow_lt {units : Nat} (hg : OnGrid units) (ho : units < overflow)
    (h : overflow < units + 3 * 1 <<< 2045) :
    units = (1 <<< 53 - 1) <<< 2045 ∨ units = (1 <<< 53 - 2) <<< 2045 := by
  have hle := spacing_le_of_lt_overflow ho
  obtain ⟨m, hm⟩ := hg.spacing_dvd
  rw [overflow_eq] at ho h
  generalize 2045 = k at *
  rw [Nat.one_shiftLeft k] at hle ho h
  have hs : spacing units = 2 ^ k := by
    apply Nat.le_antisymm hle
    apply two_pow_le_spacing
    rw [Nat.pow_add]
    omega
  rw [hs] at hm
  rw [hm, Nat.mul_comm (1 <<< 53)] at ho h
  rw [Nat.mul_comm 3, ← Nat.mul_add] at h
  have ho := Nat.lt_of_mul_lt_mul_left ho
  have h := Nat.lt_of_mul_lt_mul_left h
  have he : m = 1 <<< 53 - 1 ∨ m = 1 <<< 53 - 2 := by omega
  rw [hm, Nat.mul_comm, ← Nat.shiftLeft_eq]
  exact he.imp (fun he => by rw [he]) (fun he => by rw [he])

theorem exists_rereads {units : Nat} (hg : OnGrid units) (ho : units < overflow) :
    ∃ v, Rereads units (.shortest .even units) v := by
  rcases Nat.eq_zero_or_pos units with rfl | hu
  · exact ⟨0, rereads_zero⟩
  · by_cases h : units + 3 * 1 <<< 2045 ≤ overflow
    · obtain ⟨hp, hh⟩ := shortest_spec .even hg hu
      exact rereads_of_isPlain hg hu h hp hh
    -- the error could lead out of the range only from the two greatest magnitudes
    · rcases eq_of_overflow_lt hg ho (Nat.lt_of_not_le h) with rfl | rfl
      · exact ⟨_, rereads_greatest⟩
      · exact ⟨_, rereads_second_greatest⟩

end PhraseSql.Number

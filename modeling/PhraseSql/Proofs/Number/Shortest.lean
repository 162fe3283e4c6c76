import Mathlib.Tactic.FieldSimp
import PhraseSql.Proofs.Number.Interval

namespace PhraseSql.Number

section

variable {tie : Tie} {i : Interval} {scale amount step n places left : Nat}

theorem neighbour?_eq_some (h : neighbour? tie i scale amount step = some n) :
    (n = amount / step ∨ n = amount / step + 1) ∧ i.contains (n * step) scale = true := by
  unfold neighbour? at h
  dsimp only at h
  split at h
  · cases h
  · rename_i hb _
    cases h
    exact ⟨.inl rfl, hb⟩
  · rename_i ha
    cases h
    exact ⟨.inr rfl, ha⟩
  · rename_i hb ha
    split at h
    · cases h
      exact ⟨.inl rfl, hb⟩
    · split at h
      · cases h
        exact ⟨.inr rfl, ha⟩
      · split at h
        · split at h
          · cases h
            exact ⟨.inl rfl, hb⟩
          · cases h
            exact ⟨.inr rfl, ha⟩
        · cases h
          exact ⟨.inr rfl, ha⟩

theorem neighbour?_eq_none (h : neighbour? tie i scale amount step = none) :
    i.contains (amount / step * step) scale = false ∧
      i.contains ((amount / step + 1) * step) scale = false := by
  unfold neighbour? at h
  dsimp only at h
  split at h
  · rename_i hb ha
    exact ⟨hb, ha⟩
  · cases h
  · cases h
  · split at h
    · cases h
    · split at h
      · cases h
      · split at h <;> cases h

theorem exists_firstGrid {k : Nat} (hk : k < left)
    (h : neighbour? tie i scale amount (Nat.pow 10 (places - k)) ≠ none) :
    ∃ j ≤ k, ∃ n, neighbour? tie i scale amount (Nat.pow 10 (places - j)) = some n ∧
      firstGrid tie i scale amount places left = (n, places - j) := by
  induction left generalizing places k with
  | zero => omega
  | succ left ih =>
    rw [firstGrid]
    cases hn : neighbour? tie i scale amount (Nat.pow 10 places) with
    | some n => exact ⟨0, Nat.zero_le k, n, hn, rfl⟩
    | none =>
      cases k with
      | zero => exact absurd hn h
      | succ k =>
        rw [← Nat.sub_sub, Nat.sub_right_comm] at h
        obtain ⟨j, hj, n, hn, hf⟩ := ih (Nat.lt_of_succ_lt_succ hk) h
        refine ⟨j + 1, Nat.succ_le_succ hj, n, ?_, ?_⟩
        · rwa [← Nat.sub_sub, Nat.sub_right_comm]
        · rw [← Nat.sub_sub, Nat.sub_right_comm]
          exact hf

end

section

variable {units : Nat}

theorem le_stepBelow_mul (hg : OnGrid units) : units ≤ Interval.stepBelow units * 2 ^ 53 := by
  cases Interval.divided hg with
  | least k hs hu =>
    rw [hs, Nat.mul_comm]
    exact Nat.le_of_eq hu
  | inner hs _ =>
    rw [hs]
    exact (lt_spacing_mul units).le

theorem le_low_of_not_contains {i : Interval} {point amount scale : Nat} (hp : point ≤ amount)
    (ha : 2 * amount < i.high * scale) (h : i.contains point scale = false) :
    2 * point ≤ i.low * scale := by
  by_contra hl
  have hc : i.contains point scale = true := by
    unfold Interval.contains
    split <;> simp only [Bool.and_eq_true, decide_eq_true_eq] <;> omega
  rw [hc] at h
  cases h

theorem high_le_of_not_contains {i : Interval} {point amount scale : Nat} (hp : amount ≤ point)
    (ha : i.low * scale < 2 * amount) (h : i.contains point scale = false) :
    i.high * scale ≤ 2 * point := by
  by_contra hl
  have hc : i.contains point scale = true := by
    unfold Interval.contains
    split <;> simp only [Bool.and_eq_true, decide_eq_true_eq] <;> omega
  rw [hc] at h
  cases h

theorem stepBelow_pos (units : Nat) : 0 < Interval.stepBelow units := by
  unfold Interval.stepBelow
  split
  · rename_i h
    have hs : 2 ^ 1 ≤ spacing units := by
      apply two_pow_le_spacing
      rw [h.1, Nat.one_shiftLeft]
      exact Nat.pow_le_pow_right (by decide) h.2
    omega
  · exact spacing_pos units

theorem neighbour?_ne_none (tie : Tie) {scale step : Nat} (hg : OnGrid units) (hu : 0 < units)
    (hs : 0 < scale) (h : 0 < step) (hstep : step * 10 ^ 16 ≤ units * scale) :
    neighbour? tie (.around units) scale (units * scale) step ≠ none := by
  intro hn
  obtain ⟨hb, ha⟩ := neighbour?_eq_none hn
  have hsp := Nat.mul_lt_mul_of_pos_right (spacing_pos units) hs
  have hsb := Nat.mul_lt_mul_of_pos_right (stepBelow_pos units) hs
  have hle := Nat.mul_le_mul_right scale (Interval.stepBelow_le units)
  have hdvd := Nat.mul_le_mul_right scale (Nat.le_of_dvd hu hg.spacing_dvd)
  have hbig := Nat.mul_le_mul_right scale (le_stepBelow_mul hg)
  rw [Nat.mul_right_comm] at hbig
  have hlow : (Interval.around units).low * scale =
      2 * (units * scale) - Interval.stepBelow units * scale := by
    show (2 * units - Interval.stepBelow units) * scale = _
    rw [Nat.sub_mul, Nat.mul_assoc]
  have hhigh : (Interval.around units).high * scale =
      2 * (units * scale) + spacing units * scale := by
    show (2 * units + spacing units) * scale = _
    rw [Nat.add_mul, Nat.mul_assoc]
  have hbelow := Nat.div_mul_le_self (units * scale) step
  have habove := (Nat.lt_div_mul_add h (a := units * scale)).le
  rw [← Nat.succ_mul] at habove
  -- the interval would lie between two neighbours, and so be shorter than the step
  have hb := le_low_of_not_contains hbelow (by omega) hb
  have ha := high_le_of_not_contains habove (by omega) ha
  rw [Nat.succ_mul (units * scale / step)] at ha
  omega

structure Found (tie : Tie) (units n place : Nat) : Prop where
  pos : 0 < n
  le : n ≤ 10 ^ mostDigits
  contains : (Interval.around units).contains (n * 10 ^ place) unitScale = true

theorem unitScale_pos : 0 < unitScale := by
  decide +kernel

theorem ten_pow_le_unitScale : 10 ^ mostDigits ≤ unitScale := by
  decide +kernel

theorem toDigits_bounds {n : Nat} (hn : 0 < n) : ∃ places,
    (Nat.toDigits 10 n).length = places + 1 ∧ 10 ^ places ≤ n ∧ n < 10 ^ (places + 1) := by
  have hpos := Nat.length_toDigits_pos (b := 10) (n := n)
  obtain ⟨places, hp⟩ : ∃ places, (Nat.toDigits 10 n).length = places + 1 :=
    ⟨_, (Nat.sub_add_cancel hpos).symm⟩
  refine ⟨places, hp, ?_, (Nat.length_toDigits_le_iff (by decide) (Nat.succ_pos places)).mp hp.le⟩
  by_contra h
  rcases Nat.eq_zero_or_pos places with rfl | hd
  · omega
  · have hl := (Nat.length_toDigits_le_iff (by decide) hd).mpr (Nat.lt_of_not_le h)
    omega

theorem found_firstGrid (tie : Tie) (hg : OnGrid units) (hu : 0 < units) :
    ∃ n place, Found tie units n place ∧
      firstGrid tie (.around units) unitScale (units * unitScale)
        ((Nat.toDigits 10 (units * unitScale)).length - 1) mostDigits = (n, place) := by
  obtain ⟨places, hp, hle, hlt⟩ := toDigits_bounds (Nat.mul_pos hu unitScale_pos)
  have hm : mostDigits ≤ places := by
    have hbig := ten_pow_le_unitScale.trans (Nat.le_mul_of_pos_left unitScale hu)
    exact Nat.le_of_lt_succ ((Nat.pow_lt_pow_iff_right (by decide)).mp (hbig.trans_lt hlt))
  have hsplit {k : Nat} (hk : k ≤ 16) : 10 ^ (places - k) * 10 ^ k = 10 ^ places := by
    rw [← Nat.pow_add, Nat.sub_add_cancel]
    exact hk.trans ((Nat.le_succ 16).trans hm)
  have hstep : 10 ^ (places - 16) * 10 ^ 16 ≤ units * unitScale :=
    (hsplit (Nat.le_refl 16)).le.trans hle
  have hn := neighbour?_ne_none tie hg hu unitScale_pos (Nat.pow_pos (by decide)) hstep
  -- the search ends on the seventeenth grid at the latest
  obtain ⟨k, hk, n, hn, hf⟩ := exists_firstGrid (show 16 < mostDigits by decide) hn
  obtain ⟨hv, hc⟩ := neighbour?_eq_some hn
  rw [hp, Nat.add_sub_cancel]
  generalize units * unitScale = amount at *
  have hpos : 0 < amount / 10 ^ (places - k) :=
    Nat.div_pos ((Nat.pow_le_pow_right (by decide) (Nat.sub_le _ _)).trans hle)
      (Nat.pow_pos (by decide))
  have hdiv : amount / 10 ^ (places - k) < 10 ^ (k + 1) := by
    apply Nat.div_lt_of_lt_mul
    rwa [Nat.pow_succ, ← Nat.mul_assoc, hsplit hk, ← Nat.pow_succ]
  have hmost : 10 ^ (k + 1) ≤ 10 ^ mostDigits :=
    Nat.pow_le_pow_right (by decide) (Nat.succ_le_succ hk)
  change n = amount / 10 ^ (places - k) ∨ n = amount / 10 ^ (places - k) + 1 at hv
  exact ⟨n, places - k, ⟨by omega, by omega, hc⟩, hf⟩

structure Decimal.IsPlain (d : Decimal) : Prop where
  first : ∃ c rest, d.digits = c :: rest ∧ c ≠ '0'
  isDigit : ∀ c ∈ d.digits, c.isDigit = true
  length : d.digits.length ≤ mostDigits

def Decimal.amount (d : Decimal) : ℚ :=
  Nat.ofDigitChars 10 d.digits 0 * 10 ^ (d.exponent + 1 - d.digits.length : ℤ)

theorem first_toDigits {n : Nat} (hn : 0 < n) : ∃ c rest, Nat.toDigits 10 n = c :: rest ∧ c ≠ '0' := by
  induction n using Nat.strongRecOn with
  | ind n ih =>
    by_cases hlt : n < 10
    · refine ⟨n.digitChar, [], Nat.toDigits_of_lt_base hlt, ?_⟩
      rw [ne_eq, Nat.digitChar_eq_zero]
      omega
    · obtain ⟨c, rest, h, hc⟩ := ih (n / 10) (by omega) (by omega)
      refine ⟨c, rest ++ [(n % 10).digitChar], ?_, hc⟩
      rw [Nat.toDigits_of_base_le (by decide) (by omega), h, List.cons_append]

def withoutZeros (digits : List Char) : List Char := (digits.reverse.dropWhile (· = '0')).reverse

theorem exists_withoutZeros (digits : List Char) :
    ∃ zeros, digits = withoutZeros digits ++ List.replicate zeros '0' := by
  have hz : ∀ c ∈ digits.reverse.takeWhile (· = '0'), c = '0' := by
    intro c hc
    exact of_decide_eq_true (List.all_eq_true.mp List.all_takeWhile c hc)
  refine ⟨(digits.reverse.takeWhile (· = '0')).length, ?_⟩
  rw [withoutZeros, ← List.reverse_replicate, ← List.eq_replicate_of_mem hz, ← List.reverse_append,
    List.takeWhile_append_dropWhile, List.reverse_reverse]

theorem length_withoutZeros_le {n : Nat} (hn : n ≤ 10 ^ mostDigits) :
    (withoutZeros (Nat.toDigits 10 n)).length ≤ mostDigits := by
  rcases Nat.lt_or_eq_of_le hn with h | rfl
  · have hl := (Nat.length_toDigits_le_iff (by decide) (by decide)).mpr h
    obtain ⟨zeros, hz⟩ := exists_withoutZeros (Nat.toDigits 10 n)
    rw [hz, List.length_append] at hl
    omega
  · decide +kernel

theorem isPlain_withoutZeros {n : Nat} (hn : 0 < n) (hle : n ≤ 10 ^ mostDigits) (exponent : Int) :
    Decimal.IsPlain ⟨withoutZeros (Nat.toDigits 10 n), exponent⟩ := by
  obtain ⟨zeros, hz⟩ := exists_withoutZeros (Nat.toDigits 10 n)
  refine ⟨?_, ?_, length_withoutZeros_le hle⟩
  · obtain ⟨c, rest, hd, hc⟩ := first_toDigits hn
    rw [hd] at hz
    dsimp only
    rw [hd]
    cases hw : withoutZeros (c :: rest) with
    | nil =>
      rw [hw, List.nil_append] at hz
      exact absurd (List.eq_of_mem_replicate (hz ▸ List.mem_cons_self)) hc
    | cons c' rest' =>
      rw [hw, List.cons_append, List.cons.injEq] at hz
      exact ⟨c', rest', rfl, hz.1 ▸ hc⟩
  · intro c hc
    apply Nat.isDigit_of_mem_toDigits (b := 10) (by decide) (by decide)
    rw [hz]
    exact List.mem_append_left _ hc

theorem one_mul_unitScale : (one * unitScale : ℚ) = 10 ^ unitPlaces := by
  rw [← cast_pow_ten, ← Nat.cast_mul]
  exact congrArg Nat.cast (show one * unitScale = Nat.pow 10 unitPlaces by decide +kernel)

theorem amount_withoutZeros (n place : Nat) :
    Decimal.amount ⟨withoutZeros (Nat.toDigits 10 n),
      ((Nat.toDigits 10 n).length - 1 + place : Nat) - (unitPlaces : Int)⟩ * one =
      (n * 10 ^ place : ℕ) / unitScale := by
  obtain ⟨zeros, hz⟩ := exists_withoutZeros (Nat.toDigits 10 n)
  have hlen := Nat.length_toDigits_pos (b := 10) (n := n)
  have hn := Nat.ofDigitChars_toDigits (b := 10) (n := n) (by decide) (by decide)
  rw [hz, Nat.ofDigitChars_append, Nat.ofDigitChars_replicate_zero] at hn
  have hl : (Nat.toDigits 10 n).length = (withoutZeros (Nat.toDigits 10 n)).length + zeros := by
    conv_lhs => rw [hz]
    rw [List.length_append, List.length_replicate]
  have he : (((Nat.toDigits 10 n).length - 1 + place : Nat) - (unitPlaces : Int)) + 1 -
      (withoutZeros (Nat.toDigits 10 n)).length = (zeros + place : Nat) - (unitPlaces : Nat) := by
    omega
  have hs : (unitScale : ℚ) ≠ 0 := Nat.cast_ne_zero.mpr unitScale_pos.ne'
  have ho := one_cast_pos.ne'
  have hq : (n : ℚ) = 10 ^ zeros * Nat.ofDigitChars 10 (withoutZeros (Nat.toDigits 10 n)) 0 :=
    mod_cast hn.symm
  rw [Decimal.amount]
  dsimp only
  rw [he, zpow_sub₀ (by norm_num), zpow_natCast, zpow_natCast, ← one_mul_unitScale, Nat.cast_mul,
    hq, pow_add]
  push_cast
  field_simp

theorem shortest_spec (tie : Tie) (hg : OnGrid units) (hu : 0 < units) :
    (Decimal.shortest tie units).IsPlain ∧
      (Interval.around units).Has ((Decimal.shortest tie units).amount * one) := by
  obtain ⟨n, place, hn, hf⟩ := found_firstGrid tie hg hu
  have he : Decimal.shortest tie units = ⟨withoutZeros (Nat.toDigits 10 n),
      ((Nat.toDigits 10 n).length - 1 + place : Nat) - (unitPlaces : Int)⟩ := by
    rw [Decimal.shortest, if_neg hu.ne']
    dsimp only
    rw [hf]
    rfl
  rw [he, amount_withoutZeros]
  exact ⟨isPlain_withoutZeros hn.pos hn.le _, (Interval.contains_iff unitScale_pos).mp hn.contains⟩

end

end PhraseSql.Number

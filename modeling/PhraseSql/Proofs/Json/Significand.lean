import Mathlib.Tactic.FieldSimp
import PhraseSql.Proofs.Json.Numeral
import PhraseSql.Proofs.Number.Rounding

/-!
A number literal is read as a significand and a power of ten, which make up its amount but for the
digits that do not fit.
-/

namespace PhraseSql.Json

open Number (Within)

structure Keeps (whole s dropped : Nat) : Prop where
  lt : s < significandLimit
  low : s * 10 ^ dropped ≤ whole
  high : whole < (s + 1) * 10 ^ dropped
  full : dropped = 0 ∨ 10 ^ 18 ≤ s

abbrev Close (x amount : ℚ) : Prop := Within (1 - 1 / 10 ^ 18) (1 + 1 / 10 ^ 18) x amount

structure Scales (amount : ℚ) (s : Nat) (e : ℤ) : Prop where
  lt : s < significandLimit
  close : Close (s * 10 ^ e) amount

theorem close_self {a : ℚ} (ha : 0 ≤ a) : Close a a :=
  ⟨mul_le_of_le_one_left ha (by norm_num), le_mul_of_one_le_left ha (by norm_num)⟩

theorem close_of_between {n unit x a : ℚ} (hu : 0 ≤ unit) (hn : 10 ^ 18 ≤ n)
    (hx : n * unit ≤ x ∧ x ≤ (n + 1) * unit) (ha : n * unit ≤ a ∧ a ≤ (n + 1) * unit) :
    Close x a := by
  have hk : 10 ^ 18 * unit ≤ n * unit := mul_le_mul_of_nonneg_right hn hu
  obtain ⟨hx, hx'⟩ := hx
  obtain ⟨ha, ha'⟩ := ha
  rw [add_mul, one_mul] at hx' ha'
  constructor <;> linarith

theorem full_of_absorbs {significand s taken : Nat} {digits left : List UInt8}
    (h : Absorbs significand digits s taken left) : left.length = 0 ∨ 10 ^ 18 ≤ s := by
  rcases h.full with rfl | hf
  · exact .inl rfl
  · have hl : significandLimit = 18446744073709551616 := by decide
    rw [hl] at hf
    exact .inr (by omega)

theorem keeps_of_absorbs {b : UInt8} {digits left : List UInt8} {s taken : Nat}
    (hd : ∀ x ∈ b :: digits, isDigit x = true)
    (h : Absorbs (digitValue b) digits s taken left) :
    Keeps (digitsAmount (b :: digits)) s left.length := by
  have hl := digitsAmount_lt (h.digits_left (List.forall_mem_cons.mp hd).2)
  have hf := full_of_absorbs h
  have hb : digitValue b < significandLimit :=
    (digitValue_lt (hd b List.mem_cons_self)).trans (by decide)
  have hs := h.lt hb
  obtain ⟨front, rfl, rfl, hv⟩ := h.front
  have hw : digitsAmount (b :: (front ++ left)) = s * 10 ^ left.length + digitsAmount left := by
    rw [← List.cons_append, digitsAmount_append, digitsAmount_cons, hv]
  refine ⟨hs, ?_, ?_, hf⟩
  · rw [hw]
    exact Nat.le_add_right _ _
  · rw [hw, Nat.succ_mul]
    exact Nat.add_lt_add_left hl _

theorem keeps_zero : Keeps (digitsAmount [zero]) 0 0 :=
  ⟨by decide, by decide, by decide, .inl rfl⟩

theorem Keeps.eq_of_dropped_zero {whole s : Nat} (h : Keeps whole s 0) : s = whole := by
  have hl := h.low
  have hh := h.high
  omega

theorem scales_of_keeps {whole s dropped : Nat} (h : Keeps whole s dropped) :
    Scales whole s dropped := by
  refine ⟨h.lt, ?_⟩
  rw [zpow_natCast]
  have hl : (s * 10 ^ dropped : ℚ) ≤ whole := mod_cast h.low
  have hh : (whole : ℚ) ≤ (s + 1) * 10 ^ dropped := mod_cast h.high.le
  rcases h.full with rfl | hf
  · rw [pow_zero, mul_one, h.eq_of_dropped_zero]
    exact close_self (Nat.cast_nonneg _)
  · have hn : (10 ^ 18 : ℚ) ≤ s := mod_cast hf
    have hu : (0 : ℚ) ≤ 10 ^ dropped := by positivity
    exact close_of_between hu hn ⟨le_rfl, mul_le_mul_of_nonneg_right (by simp) hu⟩ ⟨hl, hh⟩

theorem Scales.shift {amount : ℚ} {s : Nat} {e : ℤ} (h : Scales amount s e) (x : ℤ) :
    Scales (amount * 10 ^ x) s (e + x) := by
  have hp : (0 : ℚ) ≤ 10 ^ x := zpow_nonneg (by norm_num) x
  refine ⟨h.lt, ?_, ?_⟩
  · rw [zpow_add₀ (by norm_num), ← mul_assoc, ← mul_assoc]
    exact mul_le_mul_of_nonneg_right h.close.low hp
  · rw [zpow_add₀ (by norm_num), ← mul_assoc, ← mul_assoc]
    exact mul_le_mul_of_nonneg_right h.close.high hp

theorem Scales.eq_zero {amount : ℚ} {e : ℤ} (h : Scales amount 0 e) : amount = 0 := by
  obtain ⟨-, hl, hh⟩ := h
  rw [Nat.cast_zero, zero_mul] at hl hh
  linarith

theorem scales_zero : Scales 0 0 0 :=
  ⟨by decide, by simp, by simp⟩

theorem fractionAmount_append (front : List UInt8) {left : List UInt8}
    (hl : ∀ b ∈ left, isDigit b = true) :
    digitsAmount front / 10 ^ front.length ≤ fractionAmount (point :: (front ++ left)) ∧
      fractionAmount (point :: (front ++ left)) ≤
        (digitsAmount front + 1) / 10 ^ front.length := by
  have hlt : (digitsAmount left : ℚ) ≤ 10 ^ left.length := mod_cast (digitsAmount_lt hl).le
  have hn : (0 : ℚ) ≤ digitsAmount left := Nat.cast_nonneg _
  have hp : (0 : ℚ) < 10 ^ front.length := by positivity
  have hpm : (0 : ℚ) < 10 ^ (front ++ left).length := by positivity
  rw [fractionAmount, div_le_div_iff₀ hp hpm, div_le_div_iff₀ hpm hp, List.length_append, pow_add,
    digitsAmount_append]
  push_cast
  constructor <;> nlinarith

section

variable {significand s taken : Nat} {digits left : List UInt8}

theorem close_kept (hd : ∀ b ∈ digits, isDigit b = true)
    (h : Absorbs significand digits s taken left) :
    Close (s * 10 ^ (-taken : ℤ)) (significand + fractionAmount (point :: digits)) := by
  have hleft := h.digits_left hd
  have hf := full_of_absorbs h
  obtain ⟨front, rfl, rfl, hs⟩ := h.front
  obtain ⟨hlow, hhigh⟩ := fractionAmount_append front hleft
  have hv : (s : ℚ) = significand * 10 ^ front.length + digitsAmount front := mod_cast hs
  have hq : (s : ℚ) * 10 ^ (-front.length : ℤ) =
      significand + digitsAmount front / 10 ^ front.length := by
    rw [hv, zpow_neg, zpow_natCast]
    field_simp
  have hq' : ((s : ℚ) + 1) * 10 ^ (-front.length : ℤ) =
      significand + (digitsAmount front + 1) / 10 ^ front.length := by
    rw [hv, zpow_neg, zpow_natCast]
    field_simp
    ring
  have hu : (0 : ℚ) ≤ 10 ^ (-front.length : ℤ) := zpow_nonneg (by norm_num) _
  rcases hf with hnil | hfull
  · have hφ : fractionAmount (point :: (front ++ left)) =
        digitsAmount front / 10 ^ front.length := by
      rw [List.eq_nil_of_length_eq_zero hnil, List.append_nil]
      rfl
    rw [hq, hφ]
    exact close_self (by positivity)
  · have hn : (10 ^ 18 : ℚ) ≤ s := mod_cast hfull
    refine close_of_between hu hn ⟨le_rfl, mul_le_mul_of_nonneg_right (by simp) hu⟩ ?_
    rw [hq, hq']
    exact ⟨add_le_add_right hlow _, add_le_add_right hhigh _⟩

/-- Where digits were dropped from a whole number, those after the point that are taken change
less than the last place that is kept. -/
theorem close_dropped {whole dropped : Nat} (hk : Keeps whole significand dropped)
    (hfull : 10 ^ 18 ≤ significand) (hd : ∀ b ∈ digits, isDigit b = true)
    (h : Absorbs significand digits s taken left) :
    Close (s * 10 ^ (dropped - taken : ℤ)) (whole + fractionAmount (point :: digits)) := by
  have hleft := h.digits_left hd
  obtain ⟨front, rfl, rfl, hs⟩ := h.front
  obtain ⟨hlow, hhigh⟩ := fractionAmount_append front hleft
  have hn : (10 ^ 18 : ℚ) ≤ significand := mod_cast hfull
  have hx : (s * 10 ^ (dropped - front.length : ℤ) : ℚ) =
      significand * 10 ^ dropped + digitsAmount front / 10 ^ front.length * 10 ^ dropped := by
    rw [hs, zpow_sub₀ (by norm_num), zpow_natCast, zpow_natCast]
    push_cast
    field_simp
  have hfr : ∀ b ∈ front, isDigit b = true := fun b hb => hd b (List.mem_append_left left hb)
  have hlt : ((digitsAmount front : ℚ) + 1) / 10 ^ front.length ≤ 1 :=
    (div_le_one (by positivity)).mpr (mod_cast Nat.succ_le_of_lt (digitsAmount_lt hfr))
  have hu : (0 : ℚ) ≤ 10 ^ dropped := by positivity
  have hq : (0 : ℚ) ≤ digitsAmount front / 10 ^ front.length := by positivity
  have hqu : (digitsAmount front : ℚ) / 10 ^ front.length * 10 ^ dropped ≤ 10 ^ dropped :=
    mul_le_of_le_one_left hu (hlow.trans (hhigh.trans hlt))
  have hl : (significand * 10 ^ dropped : ℚ) ≤ whole := mod_cast hk.low
  have hh : (whole + 1 : ℚ) ≤ (significand + 1) * 10 ^ dropped :=
    mod_cast Nat.succ_le_of_lt hk.high
  rw [hx]
  refine close_of_between hu hn ⟨?_, ?_⟩ ⟨?_, ?_⟩
  · exact le_add_of_nonneg_right (mul_nonneg hq hu)
  · rw [add_mul, one_mul]
    exact add_le_add_right hqu _
  · exact hl.trans (le_add_of_nonneg_right (hq.trans hlow))
  · exact (add_le_add_right (hhigh.trans hlt) _).trans hh

theorem scales_fraction {whole dropped : Nat} (hk : Keeps whole significand dropped)
    (hd : ∀ b ∈ digits, isDigit b = true) (h : Absorbs significand digits s taken left) :
    Scales (whole + fractionAmount (point :: digits)) s (dropped - taken) := by
  refine ⟨h.lt hk.lt, ?_⟩
  rcases hk.full with rfl | hfull
  · have hw := hk.eq_of_dropped_zero
    subst hw
    simpa using close_kept hd h
  · exact close_dropped hk hfull hd h

end

end PhraseSql.Json

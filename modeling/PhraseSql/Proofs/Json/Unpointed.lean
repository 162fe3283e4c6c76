import PhraseSql.Proofs.Json.Significand
import PhraseSql.Proofs.Json.Range

namespace PhraseSql.Json

inductive Unpointed : List UInt8 → Nat → ℤ → Prop where
  | parts {sign whole fraction exponent : List UInt8} (hs : sign ∈ [[], [minus]])
      (hw : WholePart whole) (hf : Fraction fraction) (he : Exponent exponent) :
      Unpointed (sign ++ (whole ++ (fraction ++ exponent))) (digitsAmount (whole ++ fraction.tail))
        (exponentAmount exponent - fraction.tail.length)

theorem append_eq_append_of_noDigit {digits digits' rest rest' : List UInt8}
    (hd : ∀ b ∈ digits, isDigit b = true) (hd' : ∀ b ∈ digits', isDigit b = true)
    (hr : NoDigit rest) (hr' : NoDigit rest') (h : digits ++ rest = digits' ++ rest') :
    digits = digits' ∧ rest = rest' := by
  have hc := countDigits_append hd hr 0
  rw [h, countDigits_append hd' hr' 0, Prod.mk.injEq] at hc
  obtain ⟨-, rfl⟩ := hc
  exact ⟨List.append_cancel_right h, rfl⟩

theorem noDigit_exponent {exponent : List UInt8} (h : Exponent exponent) : NoDigit exponent := by
  have hn := noDigit_parts .absent h endsNumber_nil
  rwa [List.nil_append, List.append_nil] at hn

theorem point_ne_exponent {exponent : List UInt8} (h : Exponent exponent) (bytes : List UInt8) :
    point :: bytes ≠ exponent := by
  rintro rfl
  cases h with
  | present hm hs hd => exact ne_point_of_mark hm rfl

theorem fraction_append_inj {fraction fraction' exponent exponent' : List UInt8}
    (hf : Fraction fraction) (hf' : Fraction fraction') (he : Exponent exponent)
    (he' : Exponent exponent') (h : fraction ++ exponent = fraction' ++ exponent') :
    fraction = fraction' ∧ exponent = exponent' := by
  cases hf with
  | absent =>
    cases hf' with
    | absent => exact ⟨rfl, h⟩
    | present hd => exact absurd h.symm (point_ne_exponent he _)
  | present hd =>
    cases hf' with
    | absent => exact absurd h (point_ne_exponent he' _)
    | present hd' =>
      rw [List.cons_append, List.cons_append, List.cons.injEq] at h
      obtain ⟨rfl, rfl⟩ := append_eq_append_of_noDigit hd.isDigit hd'.isDigit (noDigit_exponent he)
        (noDigit_exponent he') h.2
      exact ⟨rfl, rfl⟩

theorem isDigit_of_wholePart {whole : List UInt8} (h : WholePart whole) :
    ∀ b ∈ whole, isDigit b = true := by
  cases h with
  | zero =>
    intro b hb
    rw [List.mem_singleton.mp hb]
    rfl
  | positive hz hd => exact hd.isDigit

theorem sign_append_inj {sign sign' whole whole' rest rest' : List UInt8}
    (hs : sign ∈ [[], [minus]]) (hs' : sign' ∈ [[], [minus]]) (hw : WholePart whole)
    (hw' : WholePart whole') (h : sign ++ (whole ++ rest) = sign' ++ (whole' ++ rest')) :
    whole ++ rest = whole' ++ rest' := by
  have hne {bytes tail tail' : List UInt8} (hb : WholePart bytes) :
      bytes ++ tail ≠ minus :: tail' := by
    intro he
    cases bytes with
    | nil => cases hb
    | cons b bytes => exact ne_minus_of_wholePart hb (List.cons.inj he).1
  simp only [List.mem_cons, List.not_mem_nil, or_false] at hs hs'
  rcases hs with rfl | rfl <;> rcases hs' with rfl | rfl
  · exact h
  · exact (hne hw h).elim
  · exact (hne hw' h.symm).elim
  · exact List.append_cancel_left h

theorem Unpointed.unique {token : List UInt8} {significand significand' : Nat} {power power' : ℤ}
    (h : Unpointed token significand power) (h' : Unpointed token significand' power') :
    significand = significand' ∧ power = power' := by
  obtain @⟨sign, whole, fraction, exponent, hs, hw, hf, he⟩ := h
  generalize ht : sign ++ (whole ++ (fraction ++ exponent)) = token at h'
  obtain ⟨hs', hw', hf', he'⟩ := h'
  have hn := noDigit_parts hf he endsNumber_nil
  have hn' := noDigit_parts hf' he' endsNumber_nil
  rw [List.append_nil] at hn hn'
  obtain ⟨rfl, hr⟩ := append_eq_append_of_noDigit (isDigit_of_wholePart hw)
    (isDigit_of_wholePart hw') hn hn' (sign_append_inj hs hs' hw hw' ht)
  obtain ⟨rfl, rfl⟩ := fraction_append_inj hf hf' he he' hr
  exact ⟨rfl, rfl⟩

def Fits (significand : Nat) : Prop := significand + 9 < significandLimit

theorem Absorbs.eq_of_fits {significand s taken : Nat} {digits left : List UInt8}
    (h : Absorbs significand digits s taken left)
    (hl : Fits (significand * 10 ^ digits.length + digitsAmount digits)) :
    left = [] ∧ taken = digits.length ∧
      s = significand * 10 ^ digits.length + digitsAmount digits := by
  have hf := h.full
  obtain ⟨front, rfl, rfl, rfl⟩ := h.front
  cases left with
  | nil => simp
  | cons b left =>
    exfalso
    have hf := hf.resolve_left (by simp)
    have hp : 10 ^ 1 ≤ 10 ^ (b :: left).length := Nat.pow_le_pow_right (by decide) (by simp)
    have hm := Nat.mul_le_mul_left (significand * 10 ^ front.length + digitsAmount front) hp
    rw [Fits, List.length_append, Nat.pow_add, digitsAmount_append, ← Nat.add_assoc,
      ← Nat.mul_assoc, ← Nat.add_mul] at hl
    omega

section

variable {significand : Nat}

theorem readExponent_present (significand : Nat) {sign digits : List UInt8} (mark : UInt8)
    (hs : sign ∈ [[], [plus], [minus]]) (hd : Digits digits)
    (hl : (exponentAmount (mark :: (sign ++ digits))).natAbs < exponentLimit) (negative : Bool)
    (e : ℤ) : readExponent negative significand e (sign ++ digits) =
      finish negative significand (e + exponentAmount (mark :: (sign ++ digits))) none [] := by
  rw [exponentAmount_cons mark hs hd] at hl ⊢
  have hv := readExponentDigits_append hd.isDigit 0
  rw [Nat.zero_mul, Nat.zero_add] at hv
  have hlt : ¬ exponentLimit ≤ digitsAmount digits := by
    split at hl <;> omega
  have hv := (hv.resolve_right fun h => hlt h.1) [] endsNumber_nil.noDigit
  have hsp := splitSign_append hs hd []
  have hn := needDigit_append hd []
  rw [List.append_nil] at hv hsp hn
  simp only [readExponent, bind, Except.bind, hsp, hn, hv, decide_eq_true_eq]
  split <;> rfl

theorem readFraction_parts {digits exponent : List UInt8} (hd : Digits digits)
    (he : Exponent exponent)
    (hl : Fits (significand * 10 ^ digits.length + digitsAmount digits))
    (hx : (exponentAmount exponent).natAbs < exponentLimit) (negative : Bool) :
    readFraction negative significand 0 (digits ++ exponent) =
      finish negative (significand * 10 ^ digits.length + digitsAmount digits)
        (exponentAmount exponent - digits.length) none [] := by
  obtain ⟨s, t, left, hk, hmark, hend⟩ := readFraction_append hd negative significand 0
  obtain ⟨rfl, rfl, rfl⟩ := hk.eq_of_fits hl
  cases he with
  | absent =>
    rw [hend [] endsNumber_nil.noDigit (by simp)]
    simp [exponentAmount]
  | @present mark sign ds hm hs hds =>
    rw [hmark mark _ (isExponentMark_iff.mpr hm), readExponent_present _ mark hs hds hx]
    congr 1
    ring

theorem readTail_parts {fraction exponent : List UInt8} (hf : Fraction fraction)
    (he : Exponent exponent)
    (hl : Fits (significand * 10 ^ fraction.tail.length + digitsAmount fraction.tail))
    (hx : (exponentAmount exponent).natAbs < exponentLimit) (negative : Bool) :
    ∃ whole?, readTail negative significand 0 (fraction ++ exponent) =
      finish negative (significand * 10 ^ fraction.tail.length + digitsAmount fraction.tail)
        (exponentAmount exponent - fraction.tail.length) whole? [] := by
  cases hf with
  | present hd => exact ⟨none, by simpa [readTail] using readFraction_parts hd he hl hx negative⟩
  | absent =>
    cases he with
    | absent =>
      exact ⟨whole? negative significand 0, by simp [readTail, digitsAmount, exponentAmount]⟩
    | @present mark sign ds hm hs hds =>
      have hp := ne_point_of_mark hm
      refine ⟨none, ?_⟩
      have h := readExponent_present significand mark hs hds hx negative 0
      simpa [readTail, hp, isExponentMark_iff.mpr hm, digitsAmount] using h

theorem readUnsigned_parts {whole fraction exponent : List UInt8} (hw : WholePart whole)
    (hf : Fraction fraction) (he : Exponent exponent)
    (hl : Fits (digitsAmount (whole ++ fraction.tail)))
    (hx : (exponentAmount exponent).natAbs < exponentLimit) (negative : Bool) :
    ∃ whole?, readUnsigned negative (whole ++ (fraction ++ exponent)) =
      finish negative (digitsAmount (whole ++ fraction.tail))
        (exponentAmount exponent - fraction.tail.length) whole? [] := by
  have hn := noDigit_parts hf he endsNumber_nil
  rw [List.append_nil] at hn
  rw [digitsAmount_append] at hl ⊢
  cases hw with
  | zero =>
    rw [List.singleton_append, readUnsigned_zero hn]
    exact readTail_parts hf he hl hx negative
  | @positive b digits hz hd =>
    have hds : ∀ x ∈ digits, isDigit x = true := fun x hx => hd.isDigit x (List.mem_cons_of_mem _ hx)
    obtain ⟨s, t, left, hk, ha⟩ := absorb_append hds (digitValue b) 0
    have hfit : Fits (digitsAmount (b :: digits)) := by
      have hp : 0 < 10 ^ fraction.tail.length := Nat.pow_pos (by decide)
      have hle := Nat.le_mul_of_pos_right (digitsAmount (b :: digits)) hp
      rw [Fits] at hl ⊢
      omega
    rw [digitsAmount_cons] at hl hfit ⊢
    obtain ⟨rfl, rfl, rfl⟩ := hk.eq_of_fits hfit
    have hc := @countDigits_append [] _ (by simp) hn 0
    rw [List.nil_append] at hc
    simp only [List.cons_append, readUnsigned, if_neg hz, hd.isDigit b List.mem_cons_self, if_pos,
      ha _ hn, List.nil_append, hc, List.length_nil, Nat.add_zero]
    exact readTail_parts hf he hl hx negative

theorem readNumeral_parts {sign whole fraction exponent : List UInt8} (hs : sign ∈ [[], [minus]])
    (hw : WholePart whole) (hf : Fraction fraction) (he : Exponent exponent)
    (hl : Fits (digitsAmount (whole ++ fraction.tail)))
    (hx : (exponentAmount exponent).natAbs < exponentLimit) :
    ∃ whole?, readNumeral (sign ++ (whole ++ (fraction ++ exponent))) =
      finish (sign = [minus]) (digitsAmount (whole ++ fraction.tail))
        (exponentAmount exponent - fraction.tail.length) whole? [] := by
  simp only [List.mem_cons, List.not_mem_nil, or_false] at hs
  rcases hs with rfl | rfl
  · cases whole with
    | nil => cases hw
    | cons b digits =>
      simpa [readNumeral, ne_minus_of_wholePart hw] using readUnsigned_parts hw hf he hl hx false
  · simpa [readNumeral] using readUnsigned_parts hw hf he hl hx true

end

end PhraseSql.Json

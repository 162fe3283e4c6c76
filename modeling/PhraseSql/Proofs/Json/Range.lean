import PhraseSql.Proofs.Json.Significand

namespace PhraseSql.Json

open Number (leastFactor greatestFactor)

/-- What a reader of a literal comes to, whatever follows. An exponent that does not fit takes the
number to zero or out of range. -/
inductive Settles (exponent : ℤ) (amount : ℚ) (read : List UInt8 → Read (Numeral × List UInt8))
    (ends : List UInt8 → Prop) : Prop where
  | scaled (negative : Bool) (whole? : Option ℤ) {s : Nat} {e : ℤ} (h : Scales amount s e)
      (hr : ∀ rest, ends rest → read rest = finish negative s e whole? rest) :
      Settles exponent amount read ends
  | vanishing (negative : Bool) (h : exponent ≤ -exponentLimit)
      (hr : ∀ rest, ends rest → read rest = finish negative 0 0 none rest) :
      Settles exponent amount read ends
  | exceeding (h : exponentLimit ≤ exponent)
      (hr : ∀ rest, ends rest → ∃ left, read rest = .error ⟨.numberOutOfRange, left⟩) :
      Settles exponent amount read ends

theorem Settles.congr {exponent : ℤ} {amount : ℚ}
    {read read' : List UInt8 → Read (Numeral × List UInt8)} {ends ends' : List UInt8 → Prop}
    (h : Settles exponent amount read ends)
    (he : ∀ rest, ends' rest → ends rest ∧ read' rest = read rest) :
    Settles exponent amount read' ends' := by
  cases h with
  | scaled negative whole? h hr =>
    refine .scaled negative whole? h ?_
    intro rest hrest
    rw [(he rest hrest).2, hr rest (he rest hrest).1]
  | vanishing negative h hr =>
    refine .vanishing negative h ?_
    intro rest hrest
    rw [(he rest hrest).2, hr rest (he rest hrest).1]
  | exceeding h hr =>
    refine .exceeding h ?_
    intro rest hrest
    rw [(he rest hrest).2]
    exact hr rest (he rest hrest).1

theorem exponentAmount_cons {sign digits : List UInt8} (mark : UInt8)
    (hs : sign ∈ [[], [plus], [minus]]) (hd : Digits digits) :
    exponentAmount (mark :: (sign ++ digits)) =
      if sign = [minus] then -(digitsAmount digits : ℤ) else digitsAmount digits := by
  simp only [List.mem_cons, List.not_mem_nil, or_false] at hs
  rcases hs with rfl | rfl | rfl
  · obtain ⟨hm, hp⟩ := hd.head?_ne
    rw [List.nil_append, exponentAmount, if_neg hm, if_neg hp, if_neg (by decide)]
  · rfl
  · rfl

theorem settles_readExponent {amount : ℚ} {s : Nat} {e : ℤ} (h : Scales amount s e)
    (negative : Bool) {sign digits : List UInt8} (mark : UInt8) (hs : sign ∈ [[], [plus], [minus]])
    (hd : Digits digits) :
    Settles (exponentAmount (mark :: (sign ++ digits)))
      (amount * 10 ^ exponentAmount (mark :: (sign ++ digits)))
      (fun rest => readExponent negative s e (sign ++ (digits ++ rest))) NoDigit := by
  rw [exponentAmount_cons mark hs hd]
  rcases readExponentDigits_append hd.isDigit 0 with hv | ⟨hlim, left, hl, hv⟩
  · rw [Nat.zero_mul, Nat.zero_add] at hv
    refine .scaled negative none (h.shift _) ?_
    intro rest hr
    simp only [readExponent, bind, Except.bind, splitSign_append hs hd, needDigit_append hd,
      hv rest hr, decide_eq_true_eq]
    congr 1
    split <;> rfl
  · -- an exponent that is not counted to its end makes a number too small or too large
    rw [Nat.zero_mul, Nat.zero_add] at hlim
    have hread (rest : List UInt8) (hr : NoDigit rest) (hz : sign = [minus] ∨ s = 0) :
        readExponent negative s e (sign ++ (digits ++ rest)) = finish negative 0 0 none rest := by
      simp only [readExponent, bind, Except.bind, splitSign_append hs hd, needDigit_append hd,
        hv rest hr, decide_eq_true_eq, if_pos hz, countDigits_append hl hr]
    by_cases hm : sign = [minus]
    · rw [if_pos hm]
      exact .vanishing negative (by omega) fun rest hr => hread rest hr (.inl hm)
    · rw [if_neg hm]
      by_cases hz : s = 0
      · have ha : amount = 0 := Scales.eq_zero (hz ▸ h)
        rw [ha, zero_mul]
        exact .scaled negative none scales_zero fun rest hr => hread rest hr (.inr hz)
      · refine .exceeding (by omega) ?_
        intro rest hr
        refine ⟨left ++ rest, ?_⟩
        have hn : ¬ (sign = [minus] ∨ s = 0) := by simp [hm, hz]
        simp only [readExponent, bind, Except.bind, splitSign_append hs hd, needDigit_append hd,
          hv rest hr, decide_eq_true_eq, if_neg hn]

section

variable {whole significand dropped : Nat} (hk : Keeps whole significand dropped) (negative : Bool)
include hk

theorem settles_readFraction {digits tail : List UInt8} (hd : Digits digits) (he : Exponent tail) :
    Settles (exponentAmount tail)
      ((whole + fractionAmount (point :: digits)) * 10 ^ exponentAmount tail)
      (fun rest => readFraction negative significand dropped (digits ++ (tail ++ rest)))
      EndsNumber := by
  obtain ⟨s, t, left, ha, hmark, hend⟩ := readFraction_append hd negative significand dropped
  have hs := scales_fraction hk hd.isDigit ha
  cases he with
  | absent =>
    rw [exponentAmount, zpow_zero, mul_one]
    refine .scaled negative none hs ?_
    intro rest hr
    exact hend rest hr.noDigit fun b hb => (hr b hb).2.2
  | @present mark sign digits' hm hsg hd' =>
    refine (settles_readExponent hs negative mark hsg hd').congr ?_
    intro rest hr
    refine ⟨hr.noDigit, ?_⟩
    simp only [List.cons_append, hmark _ _ (isExponentMark_iff.mpr hm), List.append_assoc]

theorem settles_readTail {fraction tail : List UInt8} (hf : Fraction fraction)
    (he : Exponent tail) :
    Settles (exponentAmount tail) ((whole + fractionAmount fraction) * 10 ^ exponentAmount tail)
      (fun rest => readTail negative significand dropped (fraction ++ (tail ++ rest)))
      EndsNumber := by
  cases hf with
  | present hd =>
    refine (settles_readFraction hk negative hd he).congr ?_
    intro rest hr
    refine ⟨hr, ?_⟩
    simp only [List.cons_append, readTail, if_pos]
  | absent =>
    rw [fractionAmount, add_zero]
    have hs := scales_of_keeps hk
    cases he with
    | absent =>
      rw [exponentAmount, zpow_zero, mul_one]
      exact .scaled negative _ hs fun rest hr => readTail_of_endsNumber hr negative significand dropped
    | @present mark sign digits hm hsg hd =>
      have hp := ne_point_of_mark hm
      refine (settles_readExponent hs negative mark hsg hd).congr ?_
      intro rest hr
      refine ⟨hr.noDigit, ?_⟩
      simp only [List.nil_append, List.cons_append, List.append_assoc, readTail, if_neg hp,
        isExponentMark_iff.mpr hm, if_pos]

end

theorem settles_readUnsigned (negative : Bool) {whole fraction tail : List UInt8}
    (hw : WholePart whole) (hf : Fraction fraction) (he : Exponent tail) :
    Settles (exponentAmount tail)
      ((digitsAmount whole + fractionAmount fraction) * 10 ^ exponentAmount tail)
      (fun rest => readUnsigned negative (whole ++ (fraction ++ (tail ++ rest)))) EndsNumber := by
  cases hw with
  | zero =>
    refine (settles_readTail keeps_zero negative hf he).congr ?_
    intro rest hr
    exact ⟨hr, readUnsigned_zero (noDigit_parts hf he hr) negative⟩
  | @positive b digits hz hd =>
    have hds : ∀ x ∈ digits, isDigit x = true := fun x hx => hd.isDigit x (List.mem_cons_of_mem _ hx)
    obtain ⟨s, t, left, hk, ha⟩ := absorb_append hds (digitValue b) 0
    refine (settles_readTail (keeps_of_absorbs hd.isDigit hk) negative hf he).congr ?_
    intro rest hr
    refine ⟨hr, ?_⟩
    have hn := noDigit_parts hf he hr
    simp only [List.cons_append, readUnsigned, if_neg hz, hd.isDigit b List.mem_cons_self, if_pos,
      ha _ hn, countDigits_append (hk.digits_left hds) hn, Nat.zero_add]

theorem settles_readNumeral {token : List UInt8} {exponent : ℤ} {amount : ℚ}
    (h : Amount token exponent amount) :
    Settles exponent amount (fun rest => readNumeral (token ++ rest)) EndsNumber := by
  obtain ⟨hs, hw, hf, he⟩ := h
  simp only [List.mem_cons, List.not_mem_nil, or_false] at hs
  rcases hs with rfl | rfl
  · rename_i whole fraction tail
    refine (settles_readUnsigned false hw hf he).congr ?_
    intro rest hr
    refine ⟨hr, ?_⟩
    cases whole with
    | nil => cases hw
    | cons b digits => simp [readNumeral, ne_minus_of_wholePart hw]
  · refine (settles_readUnsigned true hw hf he).congr ?_
    intro rest hr
    refine ⟨hr, ?_⟩
    simp [readNumeral]

theorem read_or_outOfRange {token : List UInt8} (h : NumberLiteral token) :
    (∃ n, readNumeral token = .ok (n, [])) ∨ ∀ rest, EndsNumber rest →
      ∃ left, readNumeral (token ++ rest) = .error ⟨.numberOutOfRange, left⟩ := by
  obtain ⟨exponent, amount, ha⟩ := exists_amount h
  have finishes {negative : Bool} {s : Nat} {e : ℤ} {whole? : Option ℤ}
      (hr : ∀ rest, EndsNumber rest →
        readNumeral (token ++ rest) = finish negative s e whole? rest) :
      (∃ n, readNumeral token = .ok (n, [])) ∨ ∀ rest, EndsNumber rest →
        ∃ left, readNumeral (token ++ rest) = .error ⟨.numberOutOfRange, left⟩ := by
    unfold finish at hr
    cases hs : Binary64.ofScaled? negative s e with
    | some value =>
      refine .inl ⟨⟨value, whole?⟩, ?_⟩
      have hn := hr [] endsNumber_nil
      rwa [List.append_nil, hs] at hn
    | none =>
      refine .inr ?_
      intro rest hrest
      refine ⟨rest, ?_⟩
      rw [hr rest hrest, hs]
  cases settles_readNumeral ha with
  | scaled negative whole? _ hr => exact finishes hr
  | vanishing negative _ hr => exact finishes hr
  | exceeding _ hr => exact .inr hr

section

variable {token : List UInt8} {exponent : ℤ} {amount : ℚ}

theorem two_pow_1024 : (2 : ℚ) ^ 1024 = 2 ^ 51 * 2 ^ 973 := by
  rw [← pow_add]

theorem Scales.lt_two_pow {s : Nat} {e : ℤ} (h : Scales amount s e)
    (ha : amount ≤ 2 ^ 1024 - 2 ^ 973) : greatestFactor ^ 3 * (s * 10 ^ e) < 2 ^ 1024 := by
  rw [two_pow_1024] at ha ⊢
  have hP : (0 : ℚ) < 2 ^ 973 := by positivity
  generalize (2 : ℚ) ^ 973 = P at *
  have hc : greatestFactor ^ 3 * (1 + 1 / 10 ^ 18) * (2 ^ 51 - 1) < 2 ^ 51 := by
    norm_num [greatestFactor]
  have hg : 0 ≤ greatestFactor ^ 3 := by norm_num [greatestFactor]
  have ha' : amount ≤ (2 ^ 51 - 1) * P := by linarith
  calc greatestFactor ^ 3 * (s * 10 ^ e)
      ≤ greatestFactor ^ 3 * ((1 + 1 / 10 ^ 18) * ((2 ^ 51 - 1) * P)) :=
        mul_le_mul_of_nonneg_left
          (h.close.high.trans (mul_le_mul_of_nonneg_left ha' (by norm_num))) hg
    _ = greatestFactor ^ 3 * (1 + 1 / 10 ^ 18) * (2 ^ 51 - 1) * P := by ring
    _ < 2 ^ 51 * P := mul_lt_mul_of_pos_right hc hP

theorem Scales.two_pow_le {s : Nat} {e : ℤ} (h : Scales amount s e)
    (ha : 2 ^ 1024 + 2 ^ 973 ≤ amount) : 2 ^ 1024 ≤ leastFactor ^ 3 * (s * 10 ^ e) := by
  rw [two_pow_1024] at ha ⊢
  have hP : (0 : ℚ) < 2 ^ 973 := by positivity
  generalize (2 : ℚ) ^ 973 = P at *
  have hc : 2 ^ 51 ≤ leastFactor ^ 3 * (1 - 1 / 10 ^ 18) * (2 ^ 51 + 1) := by
    norm_num [leastFactor]
  have hg : 0 ≤ leastFactor ^ 3 := by norm_num [leastFactor]
  have ha' : (2 ^ 51 + 1) * P ≤ amount := by linarith
  calc 2 ^ 51 * P
      ≤ leastFactor ^ 3 * (1 - 1 / 10 ^ 18) * (2 ^ 51 + 1) * P :=
        mul_le_mul_of_nonneg_right hc hP.le
    _ = leastFactor ^ 3 * ((1 - 1 / 10 ^ 18) * ((2 ^ 51 + 1) * P)) := by ring
    _ ≤ leastFactor ^ 3 * (s * 10 ^ e) :=
        mul_le_mul_of_nonneg_left
          ((mul_le_mul_of_nonneg_left ha' (by norm_num)).trans h.close.low) hg

theorem exists_read_of_le (h : Amount token exponent amount) (he : exponent < exponentLimit)
    (ha : amount ≤ 2 ^ 1024 - 2 ^ 973) : ∃ n, readNumeral token = .ok (n, []) := by
  rw [← List.append_nil token]
  cases settles_readNumeral h with
  | scaled negative whole? hs hr =>
    obtain ⟨value, hv⟩ := Binary64.exists_ofScaled? hs.lt (hs.lt_two_pow ha)
    exact ⟨_, by rw [hr [] endsNumber_nil, finish, hv]⟩
  | vanishing negative _ hr =>
    obtain ⟨value, hv⟩ := Binary64.exists_ofScaled? scales_zero.lt (scales_zero.lt_two_pow
      (sub_nonneg.mpr (pow_le_pow_right₀ (by norm_num) (by norm_num))))
    exact ⟨_, by rw [hr [] endsNumber_nil, finish, hv]⟩
  | exceeding hl _ => exact absurd he (not_lt.mpr hl)

theorem readNumeral_of_le (h : Amount token exponent amount) (he : -exponentLimit < exponent)
    (ha : 2 ^ 1024 + 2 ^ 973 ≤ amount) :
    ∃ left, readNumeral token = .error ⟨.numberOutOfRange, left⟩ := by
  rw [← List.append_nil token]
  cases settles_readNumeral h with
  | scaled negative whole? hs hr =>
    have hv := @Binary64.ofScaled?_eq_none negative _ _ hs.lt (hs.two_pow_le ha)
    exact ⟨_, by rw [hr [] endsNumber_nil, finish, hv]⟩
  | vanishing _ hl _ => exact absurd he (not_lt.mpr hl)
  | exceeding _ hr => exact hr [] endsNumber_nil

end

end PhraseSql.Json

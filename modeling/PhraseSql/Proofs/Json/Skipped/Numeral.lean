import PhraseSql.Proofs.Json.Digits

namespace PhraseSql.Json

theorem digits_of_skipExponent {bytes rest : List UInt8} (h : skipExponent bytes = .ok rest) :
    ∃ sign digits, sign ∈ [[], [plus], [minus]] ∧ Digits digits ∧
      bytes = sign ++ (digits ++ rest) := by
  obtain ⟨sign, hs, hb⟩ := exists_sign bytes
  unfold skipExponent at h
  split at h
  · cases h
  · rename_i b tail hr
    split at h
    · rename_i hd
      obtain ⟨digits, rest', hds, hn, rfl⟩ := exists_digits tail
      rw [countDigits_append hds hn] at h
      cases h
      exact ⟨sign, b :: digits, hs, digits_cons hd hds, by rw [hb, hr]; rfl⟩
    · cases h

theorem skipExponent_append {sign digits rest : List UInt8} (hs : sign ∈ [[], [plus], [minus]])
    (hd : Digits digits) (hr : NoDigit rest) :
    skipExponent (sign ++ (digits ++ rest)) = .ok rest := by
  simp only [skipExponent, splitSign_append hs hd]
  obtain ⟨hne, hd⟩ := digits_iff.mp hd
  cases digits with
  | nil => exact absurd rfl hne
  | cons b digits =>
    simp [hd b List.mem_cons_self, countDigits_append (fun x hx => hd x (List.mem_cons_of_mem _ hx)) hr]

theorem digits_of_skipFraction {bytes rest : List UInt8} (h : skipFraction bytes = .ok rest) :
    ∃ digits exponent, Digits digits ∧ Exponent exponent ∧ bytes = digits ++ (exponent ++ rest) := by
  unfold skipFraction at h
  split at h
  · cases h
  · rename_i b tail
    split at h
    · rename_i hd
      obtain ⟨digits, rest', hds, hn, rfl⟩ := exists_digits tail
      have hb := digits_cons hd hds
      rw [countDigits_append hds hn] at h
      cases rest' with
      | nil =>
        cases h
        exact ⟨b :: digits, [], hb, .absent, rfl⟩
      | cons c rest' =>
        dsimp only at h
        split at h
        · rename_i hm
          obtain ⟨sign, digits', hs, hd', rfl⟩ := digits_of_skipExponent h
          exact ⟨b :: digits, c :: (sign ++ digits'), hb, .present (isExponentMark_iff.mp hm) hs hd', by simp⟩
        · cases h
          exact ⟨b :: digits, [], hb, .absent, rfl⟩
    · cases h

theorem skipFraction_append {digits exponent rest : List UInt8} (hd : Digits digits)
    (he : Exponent exponent) (hr : EndsNumber rest) :
    skipFraction (digits ++ (exponent ++ rest)) = .ok rest := by
  obtain ⟨hne, hd⟩ := digits_iff.mp hd
  cases digits with
  | nil => exact absurd rfl hne
  | cons b digits =>
    have hds : ∀ x ∈ digits, isDigit x = true := fun x hx => hd x (List.mem_cons_of_mem _ hx)
    simp only [List.cons_append, skipFraction, hd b List.mem_cons_self, if_true]
    cases he with
    | absent =>
      rw [List.nil_append, countDigits_append hds hr.noDigit]
      cases rest with
      | nil => rfl
      | cons c rest => simp [(hr c rfl).2.2]
    | @present mark sign digits' hm hs hd' =>
      rw [← isExponentMark_iff] at hm
      rw [List.cons_append, countDigits_append hds (noDigit_cons (isDigit_of_isExponentMark hm) _)]
      simpa [hm] using skipExponent_append hs hd' hr.noDigit

theorem parts_of_skipTail {bytes rest : List UInt8} (h : skipTail bytes = .ok rest) :
    ∃ fraction exponent, Fraction fraction ∧ Exponent exponent ∧
      bytes = fraction ++ (exponent ++ rest) := by
  unfold skipTail at h
  split at h
  · rename_i b tail
    split at h
    · rename_i hb
      obtain ⟨digits, exponent, hd, he, rfl⟩ := digits_of_skipFraction h
      exact ⟨point :: digits, exponent, .present hd, he, by rw [hb]; rfl⟩
    · split at h
      · rename_i hm
        obtain ⟨sign, digits, hs, hd, rfl⟩ := digits_of_skipExponent h
        exact ⟨[], b :: (sign ++ digits), .absent, .present (isExponentMark_iff.mp hm) hs hd, by simp⟩
      · cases h
        exact ⟨[], [], .absent, .absent, rfl⟩
  · cases h
    exact ⟨[], [], .absent, .absent, rfl⟩

theorem skipTail_append {fraction exponent rest : List UInt8} (hf : Fraction fraction)
    (he : Exponent exponent) (hr : EndsNumber rest) :
    skipTail (fraction ++ (exponent ++ rest)) = .ok rest := by
  cases hf with
  | present hd => exact skipFraction_append hd he hr
  | absent =>
    cases he with
    | absent =>
      cases rest with
      | nil => rfl
      | cons b rest =>
        obtain ⟨-, hp, hm⟩ := hr b rfl
        simp [skipTail, hp, hm]
    | @present mark sign digits hm hs hd =>
      have hp := ne_point_of_mark hm
      simpa [skipTail, hp, isExponentMark_iff.mpr hm] using skipExponent_append hs hd hr.noDigit

theorem parts_of_skipUnsigned {bytes rest : List UInt8} (h : skipUnsigned bytes = .ok rest) :
    ∃ whole fraction exponent, WholePart whole ∧ Fraction fraction ∧ Exponent exponent ∧
      bytes = whole ++ (fraction ++ (exponent ++ rest)) := by
  unfold skipUnsigned at h
  split at h
  · cases h
  · rename_i b tail
    split at h
    · rename_i hz
      rw [hz]
      split at h
      · split at h
        · cases h
        · obtain ⟨fraction, exponent, hf, he, hb⟩ := parts_of_skipTail h
          exact ⟨[zero], fraction, exponent, .zero, hf, he, by rw [hb]; rfl⟩
      · cases h
        exact ⟨[zero], [], [], .zero, .absent, .absent, rfl⟩
    · rename_i hz
      split at h
      · rename_i hd
        obtain ⟨digits, rest', hds, hn, rfl⟩ := exists_digits tail
        rw [countDigits_append hds hn] at h
        obtain ⟨fraction, exponent, hf, he, rfl⟩ := parts_of_skipTail h
        exact ⟨b :: digits, fraction, exponent, .positive hz (digits_cons hd hds), hf, he, rfl⟩
      · cases h

theorem skipUnsigned_append {whole fraction exponent rest : List UInt8} (hw : WholePart whole)
    (hf : Fraction fraction) (he : Exponent exponent) (hr : EndsNumber rest) :
    skipUnsigned (whole ++ (fraction ++ (exponent ++ rest))) = .ok rest := by
  have hn := noDigit_parts hf he hr
  have ht := skipTail_append hf he hr
  generalize fraction ++ (exponent ++ rest) = tail at hn ht
  cases hw with
  | zero =>
    cases tail with
    | nil => exact ht
    | cons b tail => simpa [skipUnsigned, hn b rfl] using ht
  | @positive b digits hz hd =>
    have hds : ∀ x ∈ digits, isDigit x = true := fun x hx => hd.isDigit x (List.mem_cons_of_mem _ hx)
    simpa [skipUnsigned, hz, hd.isDigit b List.mem_cons_self, countDigits_append hds hn] using ht

theorem numberLiteral_of_skipNumeral {bytes rest : List UInt8} (h : skipNumeral bytes = .ok rest) :
    ∃ token, NumberLiteral token ∧ bytes = token ++ rest := by
  unfold skipNumeral at h
  split at h
  · split at h
    · rename_i hb
      obtain ⟨whole, fraction, exponent, hw, hf, he, rfl⟩ := parts_of_skipUnsigned h
      exact ⟨[minus] ++ (whole ++ (fraction ++ exponent)), .parts (by simp) hw hf he, by simp [hb]⟩
    · obtain ⟨whole, fraction, exponent, hw, hf, he, hb⟩ := parts_of_skipUnsigned h
      exact ⟨[] ++ (whole ++ (fraction ++ exponent)), .parts (by simp) hw hf he, by simp [hb]⟩
  · cases h

theorem skipNumeral_append {token rest : List UInt8} (h : NumberLiteral token)
    (hr : EndsNumber rest) : skipNumeral (token ++ rest) = .ok rest := by
  obtain ⟨hs, hw, hf, he⟩ := h
  have hu := skipUnsigned_append hw hf he hr
  simp only [List.mem_cons, List.not_mem_nil, or_false] at hs
  rcases hs with rfl | rfl
  · rename_i whole fraction exponent
    cases whole with
    | nil => cases hw
    | cons b tail => simpa [skipNumeral, ne_minus_of_wholePart hw] using hu
  · simpa [skipNumeral] using hu

end PhraseSql.Json

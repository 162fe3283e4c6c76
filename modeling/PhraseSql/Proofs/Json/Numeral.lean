import Mathlib.Tactic.Ring
import PhraseSql.Proofs.Json.Amount
import PhraseSql.Proofs.Json.Digits

namespace PhraseSql.Json

structure Absorbs (significand : Nat) (digits : List UInt8) (s taken : Nat) (left : List UInt8) :
    Prop where
  front : ∃ front, digits = front ++ left ∧ front.length = taken ∧
    s = significand * 10 ^ taken + digitsAmount front
  lt : significand < significandLimit → s < significandLimit
  full : left = [] ∨ significandLimit ≤ s * 10 + 9

theorem Absorbs.digits_left {significand s taken : Nat} {digits left : List UInt8}
    (h : Absorbs significand digits s taken left) (hd : ∀ b ∈ digits, isDigit b = true) :
    ∀ b ∈ left, isDigit b = true := by
  obtain ⟨front, rfl, -, -⟩ := h.front
  exact fun b hb => hd b (List.mem_append_right front hb)

theorem absorb_append {digits : List UInt8} (hd : ∀ b ∈ digits, isDigit b = true)
    (significand taken : Nat) : ∃ s t left, Absorbs significand digits s t left ∧
      ∀ rest, NoDigit rest →
        absorb significand taken (digits ++ rest) = (s, taken + t, left ++ rest) := by
  induction digits generalizing significand taken with
  | nil =>
    refine ⟨significand, 0, [], ⟨⟨[], rfl, rfl, by simp [digitsAmount]⟩, id, .inl rfl⟩, ?_⟩
    intro rest hr
    cases rest with
    | nil => rfl
    | cons b rest => simp [absorb, hr b rfl]
  | cons b digits ih =>
    have hds : ∀ x ∈ digits, isDigit x = true := fun x hx => hd x (List.mem_cons_of_mem _ hx)
    by_cases hlt : significand * 10 + digitValue b < significandLimit
    · obtain ⟨s, t, left, ⟨⟨front, rfl, rfl, hs⟩, hl, hf⟩, ha⟩ :=
        ih hds (significand * 10 + digitValue b) (taken + 1)
      refine ⟨s, front.length + 1, left, ⟨⟨b :: front, rfl, rfl, ?_⟩, fun _ => hl hlt, hf⟩, ?_⟩
      · rw [hs, digitsAmount_cons]
        ring
      · intro rest hr
        simp only [List.cons_append, absorb, hd b List.mem_cons_self, hlt, and_self, if_true]
        rw [ha rest hr, Nat.add_assoc, Nat.add_comm 1]
    · have hv := digitValue_lt (hd b List.mem_cons_self)
      refine ⟨significand, 0, b :: digits, ⟨⟨[], rfl, rfl, by simp [digitsAmount]⟩, id, ?_⟩, ?_⟩
      · exact .inr (by omega)
      · intro rest hr
        simp [absorb, hlt]

theorem readExponentDigits_append {digits : List UInt8} (hd : ∀ b ∈ digits, isDigit b = true)
    (value : Nat) :
    (∀ rest, NoDigit rest → readExponentDigits value (digits ++ rest) =
      .ok (value * 10 ^ digits.length + digitsAmount digits, rest)) ∨
    exponentLimit ≤ value * 10 ^ digits.length + digitsAmount digits ∧
      ∃ left, (∀ b ∈ left, isDigit b = true) ∧
        ∀ rest, NoDigit rest → readExponentDigits value (digits ++ rest) = .error (left ++ rest) := by
  induction digits generalizing value with
  | nil =>
    refine .inl ?_
    intro rest hr
    cases rest with
    | nil => simp [readExponentDigits, digitsAmount]
    | cons b rest => simp [readExponentDigits, hr b rfl, digitsAmount]
  | cons b digits ih =>
    have hds : ∀ x ∈ digits, isDigit x = true := fun x hx => hd x (List.mem_cons_of_mem _ hx)
    have hv : value * 10 ^ (b :: digits).length + digitsAmount (b :: digits) =
        (value * 10 + digitValue b) * 10 ^ digits.length + digitsAmount digits := by
      rw [digitsAmount_cons, List.length_cons]
      ring
    rw [hv]
    by_cases hlt : value * 10 + digitValue b < exponentLimit
    · simpa only [List.cons_append, readExponentDigits, hd b List.mem_cons_self, hlt, if_true]
        using ih hds _
    · refine .inr ⟨?_, digits, hds, ?_⟩
      · have hp : 0 < 10 ^ digits.length := Nat.pow_pos (by decide)
        exact (Nat.not_lt.mp hlt).trans
          ((Nat.le_mul_of_pos_right _ hp).trans (Nat.le_add_right _ _))
      · intro rest hr
        simp [readExponentDigits, hd b List.mem_cons_self, hlt]

theorem finish_append {negative : Bool} {significand : Nat} {exponent : Int} {whole? : Option Int}
    {rest rest' : List UInt8} {n : Numeral}
    (h : finish negative significand exponent whole? rest = .ok (n, rest')) :
    rest = rest' ∧ ∀ r, finish negative significand exponent whole? r = .ok (n, r) := by
  unfold finish at h ⊢
  split at h
  · cases h
    simp
  · cases h

theorem needDigit_append {digits : List UInt8} (h : Digits digits) (rest : List UInt8) :
    needDigit (digits ++ rest) = .ok (digits ++ rest) := by
  obtain ⟨hne, hd⟩ := digits_iff.mp h
  cases digits with
  | nil => exact absurd rfl hne
  | cons b digits => simp [needDigit, hd b List.mem_cons_self]

theorem exists_digits_of_needDigit {bytes digits : List UInt8} (h : needDigit bytes = .ok digits) :
    ∃ ds rest, Digits ds ∧ NoDigit rest ∧ bytes = ds ++ rest := by
  obtain ⟨ds, rest, hd, hr, rfl⟩ := exists_digits bytes
  refine ⟨ds, rest, digits_iff.mpr ⟨?_, hd⟩, hr, rfl⟩
  rintro rfl
  cases rest with
  | nil => cases h
  | cons b rest => simp [needDigit, hr b rfl] at h

theorem digits_of_readExponent {negative : Bool} {significand : Nat} {exponent : Int}
    {bytes rest : List UInt8} {n : Numeral}
    (h : readExponent negative significand exponent bytes = .ok (n, rest)) :
    ∃ sign digits, sign ∈ [[], [plus], [minus]] ∧ Digits digits ∧ bytes = sign ++ (digits ++ rest) ∧
      ∀ r, NoDigit r →
        readExponent negative significand exponent (sign ++ (digits ++ r)) = .ok (n, r) := by
  obtain ⟨sign, hs, hb⟩ := exists_sign bytes
  cases hn : needDigit (splitSign bytes).2 with
  | error f => simp [readExponent, hn, bind, Except.bind] at h
  | ok digits =>
    obtain ⟨ds, tail, hd, ht, hds⟩ := exists_digits_of_needDigit hn
    rw [hds] at hb
    subst hb
    simp only [readExponent, bind, Except.bind, splitSign_append hs hd, needDigit_append hd] at h
    refine ⟨sign, ds, hs, hd, ?_⟩
    simp only [readExponent, bind, Except.bind, splitSign_append hs hd, needDigit_append hd]
    rcases readExponentDigits_append hd.isDigit 0 with hv | ⟨-, left, hl, hv⟩
    · rw [hv tail ht] at h
      obtain ⟨rfl, hf⟩ := finish_append h
      refine ⟨rfl, ?_⟩
      intro r hr
      rw [hv r hr]
      exact hf r
    · rw [hv tail ht] at h
      dsimp only at h
      split at h
      · rename_i hz
        rw [countDigits_append hl ht] at h
        obtain ⟨rfl, hf⟩ := finish_append h
        refine ⟨rfl, ?_⟩
        intro r hr
        rw [hv r hr]
        dsimp only
        rw [if_pos hz, countDigits_append hl hr]
        exact hf r
      · cases h

theorem readFraction_append {digits : List UInt8} (hd : Digits digits) (negative : Bool)
    (significand : Nat) (exponent : Int) : ∃ s t left, Absorbs significand digits s t left ∧
      (∀ b r, isExponentMark b = true →
        readFraction negative significand exponent (digits ++ b :: r) =
          readExponent negative s (exponent - t) r) ∧
      ∀ r, NoDigit r → (∀ b ∈ r.head?, isExponentMark b = false) →
        readFraction negative significand exponent (digits ++ r) =
          finish negative s (exponent - t) none r := by
  obtain ⟨s, t, left, hk, ha⟩ := absorb_append hd.isDigit significand 0
  have hl := hk.digits_left hd.isDigit
  rw [Nat.zero_add] at ha
  refine ⟨s, t, left, hk, ?_, ?_⟩
  · intro b r hm
    have hr := noDigit_cons (isDigit_of_isExponentMark hm) r
    simp only [readFraction, bind, Except.bind, needDigit_append hd, ha _ hr,
      countDigits_append hl hr, hm, if_true]
  · intro r hr hm
    have ha := ha r hr
    have hc := countDigits_append hl hr 0
    cases r with
    | nil => simp only [readFraction, bind, Except.bind, needDigit_append hd, ha, hc]
    | cons b r =>
      simp only [readFraction, bind, Except.bind, needDigit_append hd, ha, hc, hm b rfl,
        Bool.false_eq_true, if_false]

theorem digits_of_readFraction {negative : Bool} {significand : Nat} {exponent : Int}
    {bytes rest : List UInt8} {n : Numeral}
    (h : readFraction negative significand exponent bytes = .ok (n, rest)) :
    ∃ digits tail, Digits digits ∧ Exponent tail ∧ bytes = digits ++ (tail ++ rest) ∧
      ∀ r, EndsNumber r →
        readFraction negative significand exponent (digits ++ (tail ++ r)) = .ok (n, r) := by
  cases hn : needDigit bytes with
  | error f => simp [readFraction, hn, bind, Except.bind] at h
  | ok digits =>
    obtain ⟨ds, tail, hd, ht, rfl⟩ := exists_digits_of_needDigit hn
    obtain ⟨s, t, left, -, hmark, hend⟩ := readFraction_append hd negative significand exponent
    by_cases hm : ∀ b ∈ tail.head?, isExponentMark b = false
    · rw [hend tail ht hm] at h
      obtain ⟨rfl, hf⟩ := finish_append h
      refine ⟨ds, [], hd, .absent, rfl, ?_⟩
      intro r hr
      rw [List.nil_append, hend r hr.noDigit fun b hb => (hr b hb).2.2]
      exact hf r
    · cases tail with
      | nil => simp at hm
      | cons b tail =>
        have hb : isExponentMark b = true := by simpa using hm
        rw [hmark b tail hb] at h
        obtain ⟨sign, ds', hs, hd', rfl, he⟩ := digits_of_readExponent h
        refine ⟨ds, b :: (sign ++ ds'), hd, .present (isExponentMark_iff.mp hb) hs hd', by simp, ?_⟩
        intro r hr
        rw [List.cons_append, hmark b _ hb, List.append_assoc]
        exact he r hr.noDigit

theorem readTail_of_endsNumber {rest : List UInt8} (hr : EndsNumber rest) (negative : Bool)
    (significand dropped : Nat) : readTail negative significand dropped rest =
      finish negative significand dropped (whole? negative significand dropped) rest := by
  cases rest with
  | nil => rfl
  | cons b rest =>
    obtain ⟨-, hp, hm⟩ := hr b rfl
    simp [readTail, hp, hm]

theorem parts_of_readTail {negative : Bool} {significand dropped : Nat} {bytes rest : List UInt8}
    {n : Numeral} (h : readTail negative significand dropped bytes = .ok (n, rest)) :
    ∃ fraction exponent, Fraction fraction ∧ Exponent exponent ∧
      bytes = fraction ++ (exponent ++ rest) ∧
      ∀ r, EndsNumber r →
        readTail negative significand dropped (fraction ++ (exponent ++ r)) = .ok (n, r) := by
  unfold readTail at h
  split at h
  · rename_i b tail
    split at h
    · rename_i hb
      obtain ⟨digits, exponent, hd, he, rfl, hf⟩ := digits_of_readFraction h
      exact ⟨point :: digits, exponent, .present hd, he, by rw [hb]; rfl, hf⟩
    · rename_i hb
      split at h
      · rename_i hm
        obtain ⟨sign, digits, hs, hd, rfl, he⟩ := digits_of_readExponent h
        refine ⟨[], b :: (sign ++ digits), .absent, .present (isExponentMark_iff.mp hm) hs hd, by simp, ?_⟩
        intro r hr
        simpa [readTail, hb, hm] using he r hr.noDigit
      · obtain ⟨rfl, hf⟩ := finish_append h
        exact ⟨[], [], .absent, .absent, rfl, fun r hr => (readTail_of_endsNumber hr _ _ _).trans (hf r)⟩
  · obtain ⟨rfl, hf⟩ := finish_append h
    exact ⟨[], [], .absent, .absent, rfl, fun r hr => (readTail_of_endsNumber hr _ _ _).trans (hf r)⟩

theorem readUnsigned_zero {tail : List UInt8} (ht : NoDigit tail) (negative : Bool) :
    readUnsigned negative (zero :: tail) = readTail negative 0 0 tail := by
  cases tail with
  | nil => simp [readUnsigned]
  | cons c tail => simp [readUnsigned, ht c rfl]

theorem parts_of_readUnsigned {negative : Bool} {bytes rest : List UInt8} {n : Numeral}
    (h : readUnsigned negative bytes = .ok (n, rest)) :
    ∃ whole fraction exponent, WholePart whole ∧ Fraction fraction ∧ Exponent exponent ∧
      bytes = whole ++ (fraction ++ (exponent ++ rest)) ∧
      ∀ r, EndsNumber r →
        readUnsigned negative (whole ++ (fraction ++ (exponent ++ r))) = .ok (n, r) := by
  unfold readUnsigned at h
  split at h
  · cases h
  · rename_i b tail
    split at h
    · rename_i hz
      have ht : readTail negative 0 0 tail = .ok (n, rest) := by
        split at h
        · split at h
          · cases h
          · exact h
        · exact h
      obtain ⟨fraction, exponent, hf, he, rfl, hr⟩ := parts_of_readTail ht
      refine ⟨[zero], fraction, exponent, .zero, hf, he, by rw [hz]; rfl, ?_⟩
      intro r hr'
      rw [List.singleton_append, readUnsigned_zero (noDigit_parts hf he hr')]
      exact hr r hr'
    · rename_i hz
      split at h
      · rename_i hd
        obtain ⟨digits, tail', hds, hn, rfl⟩ := exists_digits tail
        obtain ⟨s, t, left, hk, ha⟩ := absorb_append hds (digitValue b) 0
        have hl := hk.digits_left hds
        rw [ha tail' hn] at h
        dsimp only at h
        rw [countDigits_append hl hn] at h
        obtain ⟨fraction, exponent, hf, he, rfl, hr⟩ := parts_of_readTail h
        refine ⟨b :: digits, fraction, exponent, .positive hz (digits_cons hd hds), hf, he, rfl, ?_⟩
        intro r hr'
        have hn' := noDigit_parts hf he hr'
        simpa [readUnsigned, hz, hd, ha _ hn', countDigits_append hl hn'] using hr r hr'
      · cases h

theorem numberLiteral_of_readNumeral {bytes rest : List UInt8} {n : Numeral}
    (h : readNumeral bytes = .ok (n, rest)) :
    ∃ token, NumberLiteral token ∧ bytes = token ++ rest ∧
      ∀ r, EndsNumber r → readNumeral (token ++ r) = .ok (n, r) := by
  unfold readNumeral at h
  split at h
  · split at h
    · rename_i hb
      obtain ⟨whole, fraction, exponent, hw, hf, he, rfl, hr⟩ := parts_of_readUnsigned h
      refine ⟨[minus] ++ (whole ++ (fraction ++ exponent)), .parts (by simp) hw hf he,
        by simp [hb], ?_⟩
      intro r hr'
      simpa [readNumeral] using hr r hr'
    · obtain ⟨whole, fraction, exponent, hw, hf, he, hb, hr⟩ := parts_of_readUnsigned h
      refine ⟨[] ++ (whole ++ (fraction ++ exponent)), .parts (by simp) hw hf he, by simp [hb], ?_⟩
      intro r hr'
      cases whole with
      | nil => cases hw
      | cons b tail => simpa [readNumeral, ne_minus_of_wholePart hw] using hr r hr'
  · cases h

theorem readNumeral_append {token rest : List UInt8} {n : Numeral}
    (h : readNumeral token = .ok (n, [])) (hr : EndsNumber rest) :
    readNumeral (token ++ rest) = .ok (n, rest) := by
  obtain ⟨token', -, ht, hn⟩ := numberLiteral_of_readNumeral h
  rw [List.append_nil] at ht
  rw [ht]
  exact hn rest hr

end PhraseSql.Json

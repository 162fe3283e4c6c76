import PhraseSql.Proofs.Json.Literal
import PhraseSql.Proofs.Json.Unpointed
import PhraseSql.Proofs.Number.Reread

namespace PhraseSql.Json

open Number

def bytes (text : List Char) : List UInt8 := text.flatMap String.utf8EncodeChar

theorem bytes_append (front back : List Char) : bytes (front ++ back) = bytes front ++ bytes back :=
  List.flatMap_append

theorem bytes_cons (c : Char) (text : List Char) :
    bytes (c :: text) = String.utf8EncodeChar c ++ bytes text :=
  List.flatMap_cons

theorem bytes_cons_of_isDigit {c : Char} (h : c.isDigit = true) (digits : List Char) :
    bytes (c :: digits) = UInt8.ofNat c.toNat :: bytes digits := by
  have hb := toNat_of_isDigit h
  rw [bytes_cons, utf8EncodeChar_of_ascii (by omega), List.singleton_append]

theorem toNat_octet {c : Char} (h : c.isDigit = true) : (UInt8.ofNat c.toNat).toNat = c.toNat := by
  have hb := toNat_of_isDigit h
  rw [UInt8.toNat_ofNat']
  omega

theorem isDigit_octet {c : Char} (h : c.isDigit = true) : isDigit (UInt8.ofNat c.toNat) = true := by
  have hb := toNat_of_isDigit h
  simp only [isDigit, Bool.and_eq_true, decide_eq_true_eq, UInt8.le_iff_toNat_le, toNat_octet h]
  exact hb

section

variable {digits : List Char} (h : ∀ c ∈ digits, c.isDigit = true)
include h

theorem isDigit_of_mem_bytes : ∀ b ∈ bytes digits, isDigit b = true := by
  induction digits with
  | nil =>
    intro b hb
    cases hb
  | cons c digits ih =>
    rw [bytes_cons_of_isDigit (h c List.mem_cons_self)]
    intro b hb
    rcases List.mem_cons.mp hb with rfl | hb
    · exact isDigit_octet (h c List.mem_cons_self)
    · exact ih (fun x hx => h x (List.mem_cons_of_mem _ hx)) b hb

theorem length_bytes : (bytes digits).length = digits.length := by
  induction digits with
  | nil => rfl
  | cons c digits ih =>
    rw [bytes_cons_of_isDigit (h c List.mem_cons_self), List.length_cons, List.length_cons,
      ih fun x hx => h x (List.mem_cons_of_mem _ hx)]

theorem digitsAmount_bytes : digitsAmount (bytes digits) = Nat.ofDigitChars 10 digits 0 := by
  induction digits with
  | nil => rfl
  | cons c digits ih =>
    have hc := h c List.mem_cons_self
    have hd : ∀ x ∈ digits, x.isDigit = true := fun x hx => h x (List.mem_cons_of_mem _ hx)
    rw [bytes_cons_of_isDigit hc, digitsAmount_cons, length_bytes hd, ih hd, ofDigitChars_cons,
      digitValue, toNat_octet hc]

theorem digits_bytes (hne : digits ≠ []) : Digits (bytes digits) := by
  refine digits_iff.mpr ⟨?_, isDigit_of_mem_bytes h⟩
  intro he
  apply hne
  rw [← List.length_eq_zero_iff, ← length_bytes h, he]
  rfl

end

theorem wholePart_bytes {c : Char} {rest : List Char} (h : ∀ x ∈ c :: rest, x.isDigit = true)
    (hc : c ≠ '0') : WholePart (bytes (c :: rest)) := by
  have hd := digits_bytes h (List.cons_ne_nil c rest)
  have hb := h c List.mem_cons_self
  rw [bytes_cons_of_isDigit hb] at hd ⊢
  refine .positive ?_ hd
  intro he
  apply hc
  have he := congrArg UInt8.toNat he
  rw [toNat_octet hb] at he
  exact Char.toNat_inj.mp he

inductive Literal (d : Decimal) : List UInt8 → Prop where
  | parts {whole fraction exponent : List UInt8} (hw : WholePart whole) (hf : Fraction fraction)
      (he : Exponent exponent)
      (hs : digitsAmount (whole ++ fraction.tail) = Layout.document.significand d)
      (hp : exponentAmount exponent - fraction.tail.length = Layout.document.power d)
      (hx : exponentAmount exponent = 0 ∨ exponentAmount exponent = d.exponent) :
      Literal d (whole ++ (fraction ++ exponent))

def exponentText (exponent : Int) : List Char :=
  'e' :: ((if exponent < 0 then ['-'] else ['+']) ++ Nat.toDigits 10 exponent.natAbs)

theorem exponent_bytes (exponent : Int) : Exponent (bytes (exponentText exponent)) ∧
    exponentAmount (bytes (exponentText exponent)) = exponent := by
  have hd : ∀ c ∈ Nat.toDigits 10 exponent.natAbs, c.isDigit = true :=
    fun c hc => Nat.isDigit_of_mem_toDigits (by decide) (by decide) hc
  have hds := digits_bytes hd Nat.toDigits_ne_nil
  have ha := digitsAmount_bytes hd
  rw [Nat.ofDigitChars_toDigits (by decide) (by decide)] at ha
  have he : bytes (exponentText exponent) = 0x65 ::
      ((if exponent < 0 then [minus] else [plus]) ++ bytes (Nat.toDigits 10 exponent.natAbs)) := by
    rw [exponentText, bytes_cons, bytes_append]
    split <;> rfl
  rw [he]
  split
  · refine ⟨.present (by decide) (by decide) hds, ?_⟩
    rw [exponentAmount_cons _ (by decide) hds, if_pos rfl, ha]
    omega
  · refine ⟨.present (by decide) (by decide) hds, ?_⟩
    rw [exponentAmount_cons _ (by decide) hds, if_neg (by decide), ha]
    omega

section

variable {d : Decimal}

theorem Literal.point {whole rest : List Char} {exponent : List UInt8}
    (hw : WholePart (bytes whole)) (hd : ∀ c ∈ whole ++ rest, c.isDigit = true) (hne : rest ≠ [])
    (he : Exponent exponent)
    (hs : Nat.ofDigitChars 10 (whole ++ rest) 0 = Layout.document.significand d)
    (hp : exponentAmount exponent - rest.length = Layout.document.power d)
    (hx : exponentAmount exponent = 0 ∨ exponentAmount exponent = d.exponent) :
    Literal d (bytes (whole ++ '.' :: rest) ++ exponent) := by
  have hr : ∀ c ∈ rest, c.isDigit = true := fun c hc => hd c (List.mem_append_right whole hc)
  have h := Literal.parts (d := d) hw (.present (digits_bytes hr hne)) he
  rw [List.tail_cons, length_bytes hr, ← bytes_append, digitsAmount_bytes hd] at h
  rw [bytes_append, List.append_assoc]
  exact h hs hp hx

theorem literal_scientific (hd : d.IsPlain) (hz : Layout.document.zeros d = 0) :
    Literal d (bytes (scientific .document d.digits d.exponent)) := by
  obtain ⟨c, rest, hc, hne⟩ := hd.first
  have hdig := hd.isDigit
  obtain ⟨he, hx⟩ := exponent_bytes d.exponent
  have hs : Nat.ofDigitChars 10 d.digits 0 = Layout.document.significand d := by
    rw [Layout.significand, hz, Nat.pow_zero, Nat.mul_one]
  have hp : Layout.document.power d = d.exponent + 1 - d.digits.length := by
    rw [Layout.power, hz]
    omega
  rw [hc] at hdig hs hp ⊢
  have hfirst : ∀ x ∈ [c], x.isDigit = true := by simpa using hdig c List.mem_cons_self
  have hw := wholePart_bytes hfirst hne
  cases rest with
  | nil =>
    rw [← digitsAmount_bytes hdig] at hs
    show Literal d (bytes ([c] ++ exponentText d.exponent))
    rw [bytes_append]
    have h := Literal.parts (d := d) hw .absent he
    rw [List.tail_nil, List.append_nil, hx, hp] at h
    exact h hs (by simp) (.inr rfl)
  | cons second rest =>
    show Literal d (bytes (([c] ++ '.' :: second :: rest) ++ exponentText d.exponent))
    rw [bytes_append]
    refine .point hw hdig (List.cons_ne_nil second rest) he hs ?_ (.inr hx)
    simp only [hx, hp, List.length_cons]
    omega

theorem ofDigitChars_zeros_append (zeros : Nat) (digits : List Char) :
    Nat.ofDigitChars 10 (List.replicate zeros '0' ++ digits) 0 = Nat.ofDigitChars 10 digits 0 := by
  rw [Nat.ofDigitChars_append, Nat.ofDigitChars_replicate_zero, Nat.mul_zero]

theorem ofDigitChars_append_zeros (digits : List Char) (zeros : Nat) :
    Nat.ofDigitChars 10 (digits ++ List.replicate zeros '0') 0 =
      Nat.ofDigitChars 10 digits 0 * 10 ^ zeros := by
  rw [Nat.ofDigitChars_append, Nat.ofDigitChars_replicate_zero, Nat.mul_comm]

theorem isDigit_of_mem_replicate {n : Nat} : ∀ c ∈ List.replicate n '0', c.isDigit = true := by
  intro c hc
  rw [List.eq_of_mem_replicate hc]
  rfl

theorem literal_negSucc {digits : List Char} {n : Nat} (hd : Decimal.IsPlain ⟨digits, .negSucc n⟩)
    (hz : Layout.document.zeros ⟨digits, .negSucc n⟩ = 0) :
    Literal ⟨digits, .negSucc n⟩ (bytes (positional digits (.negSucc n))) := by
  obtain ⟨c, rest, rfl, -⟩ := hd.first
  have hdig : ∀ x ∈ List.replicate (n + 1) '0' ++ c :: rest, x.isDigit = true := by
    intro x hx
    rcases List.mem_append.mp hx with hx | hx
    · exact isDigit_of_mem_replicate x hx
    · exact hd.isDigit x hx
  have h := @Literal.point ⟨c :: rest, .negSucc n⟩ ['0'] (List.replicate n '0' ++ c :: rest) [] .zero
    hdig (by simp) .absent
  rw [List.append_nil] at h
  apply h
  · rw [Layout.significand, hz, Nat.pow_zero, Nat.mul_one]
    exact ofDigitChars_zeros_append (n + 1) (c :: rest)
  · rw [Layout.power, hz, exponentAmount, List.length_append, List.length_replicate]
    dsimp only
    omega
  · exact .inl rfl

theorem positional_ofNat (digits : List Char) (n : Nat) :
    ∃ whole rest, positional digits (.ofNat n) = whole ++ '.' :: rest ∧
      whole ++ rest = digits ++ List.replicate (n + 2 - digits.length) '0' ∧
      whole.length = n + 1 ∧ rest ≠ [] := by
  by_cases hm : digits.length ≤ n + 1
  · refine ⟨digits ++ List.replicate (n + 1 - digits.length) '0', ['0'], ?_, ?_, ?_, by simp⟩
    · simp only [positional, List.take_of_length_le hm, List.drop_of_length_le hm, if_true]
    · rw [List.append_assoc, ← List.replicate_succ', ← Nat.sub_add_comm hm]
    · rw [List.length_append, List.length_replicate]
      omega
  · have hr : digits.drop (n + 1) ≠ [] := by
      rw [ne_eq, List.drop_eq_nil_iff]
      exact hm
    have hl : (digits.take (n + 1)).length = n + 1 := by
      rw [List.length_take]
      omega
    refine ⟨digits.take (n + 1), digits.drop (n + 1), ?_, ?_, hl, hr⟩
    · simp [positional, hl, hr]
    · rw [List.take_append_drop, Nat.sub_eq_zero_of_le (by omega), List.replicate_zero,
        List.append_nil]

theorem literal_ofNat {digits : List Char} {n : Nat} (hd : Decimal.IsPlain ⟨digits, .ofNat n⟩)
    (hz : Layout.document.zeros ⟨digits, .ofNat n⟩ = n + 2 - digits.length) :
    Literal ⟨digits, .ofNat n⟩ (bytes (positional digits (.ofNat n))) := by
  obtain ⟨whole, rest, hp, ha, hl, hne⟩ := positional_ofNat digits n
  have hdig : ∀ x ∈ whole ++ rest, x.isDigit = true := by
    rw [ha]
    intro x hx
    rcases List.mem_append.mp hx with hx | hx
    · exact hd.isDigit x hx
    · exact isDigit_of_mem_replicate x hx
  have hw : WholePart (bytes whole) := by
    obtain ⟨c, tail, rfl, hc⟩ := hd.first
    cases whole with
    | nil => cases hl
    | cons b whole =>
      rw [List.cons_append, List.cons_append, List.cons.injEq] at ha
      exact wholePart_bytes (fun x hx => hdig x (List.mem_append_left rest hx)) (ha.1 ▸ hc)
  have h := @Literal.point ⟨digits, .ofNat n⟩ whole rest [] hw hdig hne .absent
  rw [List.append_nil, ← hp] at h
  apply h
  · rw [ha, ofDigitChars_append_zeros, Layout.significand, hz]
  · have hlen := congrArg List.length ha
    rw [List.length_append, List.length_append, List.length_replicate] at hlen
    rw [Layout.power, hz, exponentAmount]
    simp only [Int.ofNat_eq_natCast]
    omega
  · exact .inl rfl

theorem literal_decimal (hd : d.IsPlain) : Literal d (bytes (Layout.document.decimal d)) := by
  obtain ⟨digits, exponent⟩ := d
  by_cases hr : Layout.document.leastWritten ≤ exponent ∧ exponent ≤ Layout.document.greatestWritten
  · rw [Layout.decimal, if_pos hr]
    have hz : Layout.document.zeros ⟨digits, exponent⟩ = (exponent + 2 - digits.length).toNat :=
      if_pos hr
    cases exponent with
    | negSucc n =>
      obtain ⟨c, rest, rfl, -⟩ := hd.first
      apply literal_negSucc hd
      rw [hz, List.length_cons]
      omega
    | ofNat n =>
      apply literal_ofNat hd
      rw [hz, Int.ofNat_eq_natCast]
      omega
  · rw [Layout.decimal, if_neg hr]
    exact literal_scientific hd (if_neg hr)

end

theorem literal_zero : Literal .zero (bytes (Layout.document.decimal .zero)) :=
  @Literal.parts .zero [zero] [point, zero] [] .zero
    (.present (digits_cons rfl (List.forall_mem_nil _))) .absent (by decide) (by decide) (.inl rfl)

theorem literal_shortest {units : Nat} (hg : OnGrid units) :
    Literal (.shortest .even units) (bytes (Layout.document.decimal (.shortest .even units))) := by
  rcases Nat.eq_zero_or_pos units with rfl | hu
  · exact literal_zero
  · exact literal_decimal (shortest_spec .even hg hu).1

end PhraseSql.Json

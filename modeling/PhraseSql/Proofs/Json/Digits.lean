import PhraseSql.Proofs.Json.Token

namespace PhraseSql.Json

theorem isDigit_iff {b : UInt8} : isDigit b = true ↔ 0x30 ≤ b ∧ b ≤ 0x39 := by
  rw [isDigit, Bool.and_eq_true, decide_eq_true_eq, decide_eq_true_eq]

theorem isExponentMark_iff {b : UInt8} : isExponentMark b = true ↔ b = 0x65 ∨ b = 0x45 := by
  rw [isExponentMark, Bool.or_eq_true, decide_eq_true_eq, decide_eq_true_eq]

theorem digits_iff {bytes : List UInt8} :
    Digits bytes ↔ bytes ≠ [] ∧ ∀ b ∈ bytes, isDigit b = true := by
  simp only [Digits, isDigit_iff]

theorem Digits.isDigit {bytes : List UInt8} (h : Digits bytes) : ∀ b ∈ bytes, isDigit b = true :=
  (digits_iff.mp h).2

theorem digits_cons {b : UInt8} {digits : List UInt8} (hb : isDigit b = true)
    (hd : ∀ x ∈ digits, isDigit x = true) : Digits (b :: digits) :=
  digits_iff.mpr ⟨List.cons_ne_nil b digits, List.forall_mem_cons.mpr ⟨hb, hd⟩⟩

theorem ne_point_of_mark {b : UInt8} (h : b = 0x65 ∨ b = 0x45) : b ≠ point := by
  rcases h with rfl | rfl <;> decide

def NoDigit (rest : List UInt8) : Prop := ∀ b ∈ rest.head?, isDigit b = false

def EndsNumber (rest : List UInt8) : Prop :=
  ∀ b ∈ rest.head?, isDigit b = false ∧ b ≠ point ∧ isExponentMark b = false

theorem EndsNumber.noDigit {rest : List UInt8} (h : EndsNumber rest) : NoDigit rest :=
  fun b hb => (h b hb).1

theorem endsNumber_nil : EndsNumber [] := by
  intro b hb
  cases hb

theorem noDigit_cons {b : UInt8} (h : isDigit b = false) (rest : List UInt8) :
    NoDigit (b :: rest) := by
  intro b' hb'
  cases hb'
  exact h

theorem endsNumber_cons {b : UInt8} (hd : isDigit b = false) (hp : b ≠ point)
    (hm : isExponentMark b = false) (rest : List UInt8) : EndsNumber (b :: rest) := by
  intro b' hb'
  cases hb'
  exact ⟨hd, hp, hm⟩

theorem endsNumber_of_isBlank {b : UInt8} (h : isBlank b = true) (rest : List UInt8) :
    EndsNumber (b :: rest) := by
  rcases isBlank_iff.mp h with rfl | rfl | rfl | rfl <;>
    exact endsNumber_cons rfl (by decide) rfl rest

theorem endsNumber_blanks_append {blanks rest : List UInt8} (h : Blanks blanks)
    (hr : EndsNumber rest) : EndsNumber (blanks ++ rest) := by
  cases blanks with
  | nil => exact hr
  | cons b blanks => exact endsNumber_of_isBlank (h.isBlank b List.mem_cons_self) _

theorem isDigit_of_isExponentMark {b : UInt8} (h : isExponentMark b = true) :
    isDigit b = false := by
  rcases isExponentMark_iff.mp h with rfl | rfl <;> rfl

theorem exists_digits (bytes : List UInt8) : ∃ digits rest,
    (∀ b ∈ digits, isDigit b = true) ∧ NoDigit rest ∧ bytes = digits ++ rest := by
  induction bytes with
  | nil => exact ⟨[], [], by simp, by simp [NoDigit], rfl⟩
  | cons b bytes ih =>
    cases hb : isDigit b with
    | false => exact ⟨[], b :: bytes, by simp, noDigit_cons hb bytes, rfl⟩
    | true =>
      obtain ⟨digits, rest, hd, hr, rfl⟩ := ih
      exact ⟨b :: digits, rest, by simpa [hb] using hd, hr, rfl⟩

theorem countDigits_append {digits rest : List UInt8} (hd : ∀ b ∈ digits, isDigit b = true)
    (hr : NoDigit rest) (count : Nat) :
    countDigits count (digits ++ rest) = (count + digits.length, rest) := by
  induction digits generalizing count with
  | nil =>
    cases rest with
    | nil => rfl
    | cons b rest => simp [countDigits, hr b rfl]
  | cons b digits ih =>
    simp only [List.cons_append, countDigits, hd b List.mem_cons_self, if_true,
      ih fun x hx => hd x (List.mem_cons_of_mem _ hx), List.length_cons]
    congr 1
    omega

theorem exists_sign (bytes : List UInt8) :
    ∃ sign ∈ [[], [plus], [minus]], bytes = sign ++ (splitSign bytes).2 := by
  unfold splitSign
  split
  · exact ⟨[], by simp, rfl⟩
  · split
    · rename_i h
      exact ⟨[minus], by simp, by rw [h]; rfl⟩
    · split
      · rename_i h
        exact ⟨[plus], by simp, by rw [h]; rfl⟩
      · exact ⟨[], by simp, rfl⟩

theorem Digits.head?_ne {digits : List UInt8} (h : Digits digits) :
    digits.head? ≠ some minus ∧ digits.head? ≠ some plus := by
  obtain ⟨hne, hd⟩ := digits_iff.mp h
  cases digits with
  | nil => exact absurd rfl hne
  | cons b digits =>
    have hb := hd b List.mem_cons_self
    constructor
    · rintro ⟨⟩
      cases hb
    · rintro ⟨⟩
      cases hb

theorem splitSign_append {sign digits : List UInt8} (hs : sign ∈ [[], [plus], [minus]])
    (hd : Digits digits) (rest : List UInt8) :
    splitSign (sign ++ (digits ++ rest)) = (decide (sign = [minus]), digits ++ rest) := by
  simp only [List.mem_cons, List.not_mem_nil, or_false] at hs
  rcases hs with rfl | rfl | rfl
  · obtain ⟨hm, hp⟩ := hd.head?_ne
    cases digits with
    | nil => exact absurd rfl hd.1
    | cons b digits =>
      simp only [List.head?_cons, ne_eq, Option.some.injEq] at hm hp
      simp [splitSign, hm, hp]
  · rfl
  · rfl

theorem noDigit_parts {fraction exponent rest : List UInt8} (hf : Fraction fraction)
    (he : Exponent exponent) (hr : EndsNumber rest) : NoDigit (fraction ++ (exponent ++ rest)) := by
  cases hf with
  | present hd => exact noDigit_cons (by decide) _
  | absent =>
    cases he with
    | absent => exact hr.noDigit
    | present hm hs hd => exact noDigit_cons (isDigit_of_isExponentMark (isExponentMark_iff.mpr hm)) _

theorem ne_minus_of_wholePart {b : UInt8} {tail : List UInt8} (h : WholePart (b :: tail)) :
    b ≠ minus := by
  rintro rfl
  cases h with
  | positive hz hd => cases hd.isDigit minus List.mem_cons_self

theorem startsNumeral_of_numberLiteral {token : List UInt8} (h : NumberLiteral token) :
    ∃ b tail, token = b :: tail ∧ startsNumeral b = true := by
  obtain ⟨hs, hw, -, -⟩ := h
  simp only [List.mem_cons, List.not_mem_nil, or_false] at hs
  rcases hs with rfl | rfl
  · cases hw with
    | zero => exact ⟨zero, _, rfl, rfl⟩
    | @positive b digits hz hd =>
      exact ⟨b, _, rfl, by simp [startsNumeral, hd.isDigit b List.mem_cons_self]⟩
  · exact ⟨minus, _, rfl, rfl⟩

end PhraseSql.Json

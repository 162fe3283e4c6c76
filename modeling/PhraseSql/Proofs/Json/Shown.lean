import PhraseSql.Proofs.Json.Elements
import PhraseSql.Proofs.Json.Range

namespace PhraseSql.Json

inductive KnownValue : List UInt8 → Prop where
  | word {token : List UInt8} (h : token ∈ words) : KnownValue token
  | number {token : List UInt8} (h : NumberLiteral token) : KnownValue token
  | text {token : List UInt8} {s : String} (h : TextLiteral token s) : KnownValue token
  | nested {bracket : Bracket} {rest : List UInt8} (h : SkippedValue (bracket.opening :: rest)) :
      KnownValue (bracket.opening :: rest)

def OutOfRange (token : List UInt8) : Prop :=
  NumberLiteral token ∧ ∃ f, readNumeral token = .error f

def Numeral.found (n : Numeral) : Found :=
  match n.whole? with
  | some whole => .integer whole
  | none => .number n.value

def Bracket.found : Bracket → Found
  | .list => .list
  | .object => .object

inductive Shows : List UInt8 → Found → Prop where
  | word {b : UInt8} {word : List UInt8} {found : Found} (h : word? b = some (word, found)) :
      Shows (b :: word) found
  | number {token : List UInt8} {n : Numeral} (h : readNumeral token = .ok (n, [])) :
      Shows token n.found
  | text {token : List UInt8} {s : String} (h : TextLiteral token s) : Shows token (.text s)
  | nested {bracket : Bracket} {rest : List UInt8} (h : SkippedValue (bracket.opening :: rest)) :
      Shows (bracket.opening :: rest) bracket.found

def Found.kind? : Found → Option Kind
  | .text _ => some .text
  | .integer _ => some .number
  | .number _ => some .number
  | _ => none

def Kind.expected : Kind → Expected
  | .text => .text
  | .number => .number

theorem shows_or_outOfRange {token : List UInt8} (h : KnownValue token) :
    (∃ found, Shows token found) ∨ OutOfRange token := by
  cases h with
  | word h =>
    obtain ⟨b, word, found, rfl, hw⟩ := exists_word?_of_mem_words h
    exact .inl ⟨found, .word hw⟩
  | number h =>
    rcases read_or_outOfRange h with ⟨n, hn⟩ | hn
    · exact .inl ⟨n.found, .number hn⟩
    · obtain ⟨left, hn⟩ := hn [] endsNumber_nil
      rw [List.append_nil] at hn
      exact .inr ⟨h, _, hn⟩
  | text h => exact .inl ⟨_, .text h⟩
  | nested h => exact .inl ⟨_, .nested h⟩

theorem readNumeral_of_outOfRange {token rest : List UInt8} (h : OutOfRange token)
    (hr : EndsNumber rest) :
    ∃ left, readNumeral (token ++ rest) = .error ⟨.numberOutOfRange, left⟩ := by
  obtain ⟨ht, f, hf⟩ := h
  rcases read_or_outOfRange ht with ⟨n, hn⟩ | hn
  · rw [hf] at hn
    cases hn
  · exact hn rest hr

theorem not_outOfRange_of_le {token : List UInt8} {exponent : ℤ} {amount : ℚ}
    (h : Amount token exponent amount) (he : exponent < 2 ^ 31) (ha : amount ≤ 2 ^ 1024 - 2 ^ 973) :
    ¬ OutOfRange token := by
  rintro ⟨-, f, hf⟩
  obtain ⟨n, hn⟩ := exists_read_of_le h he ha
  rw [hf] at hn
  cases hn

theorem outOfRange_of_le {token : List UInt8} {exponent : ℤ} {amount : ℚ}
    (h : Amount token exponent amount) (he : -2 ^ 31 < exponent) (ha : 2 ^ 1024 + 2 ^ 973 ≤ amount) :
    OutOfRange token := by
  obtain ⟨left, hn⟩ := readNumeral_of_le h he ha
  exact ⟨h.numberLiteral, _, hn⟩

theorem kind?_found (n : Numeral) : n.found.kind? = some .number := by
  unfold Numeral.found
  split <;> rfl

theorem kind?_of_word? {b : UInt8} {word : List UInt8} {found : Found}
    (h : word? b = some (word, found)) : found.kind? = none := by
  unfold word? at h
  split at h
  · cases h
    rfl
  · split at h
    · cases h
      rfl
    · split at h
      · cases h
        rfl
      · cases h

theorem kind?_nested (bracket : Bracket) : bracket.found.kind? = none := by
  cases bracket <;> rfl

theorem denotes_of_shows {kind : Kind} {token : List UInt8} {found : Found} (h : Shows token found)
    (hk : found.kind? = some kind) : ∃ x, kind.Denotes token x := by
  cases h with
  | word h =>
    rw [kind?_of_word? h] at hk
    cases hk
  | @number _ n h =>
    rw [kind?_found] at hk
    cases hk
    exact ⟨n.value, n.whole?, h⟩
  | @text _ s h =>
    cases hk
    exact ⟨s, h⟩
  | nested h =>
    rw [kind?_nested] at hk
    cases hk

theorem readFound_numeral {b : UInt8} {tail : List UInt8} (hb : startsNumeral b = true) :
    readFound b tail = (readNumeral (b :: tail)).map fun r => (r.1.found, r.2) := by
  simp only [readFound, word?_of_startsNumeral hb, hb, if_pos, bind, Except.bind]
  cases readNumeral (b :: tail) with
  | error f => rfl
  | ok r =>
    obtain ⟨⟨value, whole?⟩, rest⟩ := r
    cases whole? <;> rfl

theorem readFound_append {token rest : List UInt8} {found : Found} (h : Shows token found)
    (hr : EndsNumber rest) : ∃ b tail left, token = b :: tail ∧ isBlank b = false ∧
      readFound b (tail ++ rest) = .ok (found, left) ∧
      (b = quote ↔ found.kind? = some .text) ∧
      (startsNumeral b = true ↔ found.kind? = some .number) := by
  cases h with
  | @word b word found h =>
    have hw : readWord word (word ++ rest) = .ok rest := readWord_iff.mpr rfl
    have hk := kind?_of_word? h
    refine ⟨b, word, rest, rfl, ?_, ?_, ?_, ?_⟩
    · rcases first_of_word? h with rfl | rfl | rfl <;> rfl
    · simp only [readFound, h, hw, bind, Except.bind]
    · rw [hk]
      rcases first_of_word? h with rfl | rfl | rfl <;> decide
    · rw [hk]
      rcases first_of_word? h with rfl | rfl | rfl <;> decide
  | @number _ n h =>
    obtain ⟨token', ht, he, -⟩ := numberLiteral_of_readNumeral h
    rw [List.append_nil] at he
    subst he
    have hn := readNumeral_append h hr
    obtain ⟨b, tail, rfl, hb⟩ := startsNumeral_of_numberLiteral ht
    rw [List.cons_append] at hn
    refine ⟨b, tail, rest, rfl, isBlank_of_startsNumeral hb, ?_, ?_, ?_⟩
    · rw [readFound_numeral hb, hn]
      rfl
    · rw [kind?_found]
      constructor
      · rintro rfl
        cases hb
      · intro hk
        cases hk
    · rw [kind?_found, hb]
      simp
  | @text _ s h =>
    obtain ⟨content, rfl, hc⟩ := h
    have ht : readText (content ++ [quote] ++ rest) = .ok (s, rest) :=
      readText_iff.mpr ⟨content, hc, by simp⟩
    have hw : word? quote = none := rfl
    have hn : startsNumeral quote = false := rfl
    refine ⟨quote, content ++ [quote], rest, rfl, rfl, ?_, ?_, ?_⟩
    · simp only [readFound, hw, hn, Bool.false_eq_true, if_false, if_pos, ht, bind, Except.bind]
    · simp [Found.kind?]
    · simp [Found.kind?, hn]
  | @nested bracket tail h =>
    refine ⟨bracket.opening, tail, bracket.opening :: (tail ++ rest), rfl, isBlank_opening bracket,
      ?_, ?_, ?_⟩
    · cases bracket <;> rfl
    · rw [kind?_nested]
      cases bracket <;> decide
    · rw [kind?_nested]
      cases bracket <;> decide

theorem shows_unique {token : List UInt8} {found found' : Found} (h : Shows token found)
    (h' : Shows token found') : found = found' := by
  obtain ⟨b, tail, left, rfl, -, hf, -⟩ := readFound_append h endsNumber_nil
  obtain ⟨b', tail', left', he, -, hf', -⟩ := readFound_append h' endsNumber_nil
  obtain ⟨rfl, rfl⟩ := List.cons.inj he
  rw [hf] at hf'
  cases hf'
  rfl

theorem not_outOfRange_of_shows {token : List UInt8} {found : Found} (h : Shows token found) :
    ¬ OutOfRange token := by
  intro ho
  obtain ⟨b, tail, rfl, hb⟩ := startsNumeral_of_numberLiteral ho.1
  obtain ⟨b', tail', left, he, -, hf, -⟩ := readFound_append h endsNumber_nil
  obtain ⟨rfl, rfl⟩ := List.cons.inj he
  obtain ⟨f, hn⟩ := ho.2
  rw [List.append_nil, readFound_numeral hb, hn] at hf
  cases hf

section

variable {kind : Kind} {blanks token rest : List UInt8}

theorem denotes_unique {x y : kind.Value} (h : kind.Denotes token x) (h' : kind.Denotes token y) :
    x = y := by
  have hx := read_append .nil h endsNumber_nil
  rw [read_append .nil h' endsNumber_nil] at hx
  cases hx
  rfl

theorem read_mismatch {found : Found} (h : Shows token found) (hk : found.kind? ≠ some kind)
    (hb : Blanks blanks) (hr : EndsNumber rest) :
    ∃ left, kind.read (blanks ++ (token ++ rest)) =
      .error ⟨.invalidType found kind.expected, left⟩ := by
  obtain ⟨b, tail, left, rfl, hbl, hf, hq, hn⟩ := readFound_append h hr
  have hs := skipBlanks_append_cons hb hbl (tail ++ rest)
  cases kind with
  | text =>
    simp only [Kind.read, List.cons_append, hs, if_neg (mt hq.mp hk), mismatch, hf]
    exact ⟨left, rfl⟩
  | number =>
    simp only [Kind.read, List.cons_append, hs, if_neg (mt hn.mp hk), mismatch, hf]
    exact ⟨left, rfl⟩

theorem read_outOfRange (kind : Kind) (h : OutOfRange token) (hb : Blanks blanks)
    (hr : EndsNumber rest) :
    ∃ left, kind.read (blanks ++ (token ++ rest)) = .error ⟨.numberOutOfRange, left⟩ := by
  obtain ⟨left, hn⟩ := readNumeral_of_outOfRange h hr
  obtain ⟨b, tail, rfl, hst⟩ := startsNumeral_of_numberLiteral h.1
  have hs := skipBlanks_append_cons hb (isBlank_of_startsNumeral hst) (tail ++ rest)
  rw [List.cons_append] at hn
  cases kind with
  | text =>
    have hq : b ≠ quote := by
      rintro rfl
      cases hst
    simp only [Kind.read, List.cons_append, hs, if_neg hq, mismatch, readFound_numeral hst, hn]
    exact ⟨left, rfl⟩
  | number =>
    simp only [Kind.read, List.cons_append, hs, hst, if_pos, hn, bind, Except.bind]
    exact ⟨left, rfl⟩

end

end PhraseSql.Json

import PhraseSql.Proofs.Json.Skipped.Numeral
import PhraseSql.Proofs.Json.Skipped.Text

namespace PhraseSql.Json

theorem opening?_iff {b : UInt8} {bracket : Bracket} :
    Bracket.opening? b = some bracket ↔ b = bracket.opening := by
  unfold Bracket.opening?
  cases bracket <;> grind [Bracket.opening, openBracket, openBrace]

theorem isBlank_closing (bracket : Bracket) : isBlank bracket.closing = false := by
  cases bracket <;> rfl

theorem isBlank_opening (bracket : Bracket) : isBlank bracket.opening = false := by
  cases bracket <;> rfl

theorem ItemHead.append {bracket : Bracket} {head blanks : List UInt8} (h : ItemHead bracket head)
    (hb : Blanks blanks) : ItemHead bracket (head ++ blanks) := by
  cases h with
  | element h => exact .element (h.append hb)
  | member hb' hn ha h => simpa using ItemHead.member hb' hn ha (h.append hb)

theorem ItemHead.prepend {bracket : Bracket} {head blanks : List UInt8} (hb : Blanks blanks)
    (h : ItemHead bracket head) : ItemHead bracket (blanks ++ head) := by
  cases h with
  | element h => exact .element (hb.append h)
  | member hb' hn ha h => simpa using ItemHead.member (hb.append hb') hn ha h

theorem itemHead_of_skipToItem {bracket : Bracket} {bytes rest : List UInt8}
    (h : skipToItem bracket bytes = .ok rest) :
    ∃ head, ItemHead bracket head ∧ bytes = head ++ rest := by
  cases bracket with
  | list =>
    cases h
    exact ⟨[], .element .nil, rfl⟩
  | object =>
    simp only [skipToItem, skipName] at h
    split at h
    · cases h
    · rename_i b tail hs
      obtain ⟨before, hb, rfl⟩ := exists_blanks_of_skipBlanks hs
      split at h
      · rename_i hq
        rw [bind_eq_ok_iff] at h
        obtain ⟨tail', ht, h⟩ := h
        obtain ⟨content, hc, rfl⟩ := skipText_iff.mp ht
        obtain ⟨after, ha, rfl⟩ := readColon_iff.mp h
        exact ⟨_, .member hb ⟨content, rfl, hc⟩ ha .nil, by simp [hq]⟩
      · cases h

theorem skipToItem_append {bracket : Bracket} {head : List UInt8} (h : ItemHead bracket head)
    (rest : List UInt8) :
    ∃ blanks, Blanks blanks ∧ skipToItem bracket (head ++ rest) = .ok (blanks ++ rest) := by
  cases h with
  | element h => exact ⟨head, h, rfl⟩
  | @member before name after blanks hb hn ha h =>
    obtain ⟨content, rfl, hc⟩ := hn
    have ht : skipText (content ++ quote :: (after ++ colon :: (blanks ++ rest))) =
        .ok (after ++ colon :: (blanks ++ rest)) := skipText_iff.mpr ⟨content, hc, rfl⟩
    have hr : readColon (after ++ colon :: (blanks ++ rest)) = .ok (blanks ++ rest) :=
      readColon_iff.mpr ⟨after, ha, rfl⟩
    refine ⟨blanks, h, ?_⟩
    simp [skipToItem, skipName, skipBlanks_append_cons hb (b := quote) (by decide), ht, hr, bind,
      Except.bind]

theorem isBlank_of_startsNumeral {b : UInt8} (h : startsNumeral b = true) : isBlank b = false := by
  cases hb : isBlank b with
  | false => rfl
  | true =>
    simp only [isBlank, Bool.or_eq_true, decide_eq_true_eq] at hb
    rcases hb with ((rfl | rfl) | rfl) | rfl <;> cases h

theorem opening?_of_startsNumeral {b : UInt8} (h : startsNumeral b = true) :
    Bracket.opening? b = none := by
  cases ho : Bracket.opening? b with
  | none => rfl
  | some bracket =>
    rw [opening?_iff.mp ho] at h
    cases bracket <;> cases h

theorem ne_closing_of_startsNumeral {b : UInt8} (h : startsNumeral b = true) (bracket : Bracket) :
    b ≠ bracket.closing := by
  rintro rfl
  cases bracket <;> cases h

theorem first_of_word? {b : UInt8} {w : List UInt8 × Found} (h : word? b = some w) :
    b = 0x6E ∨ b = 0x74 ∨ b = 0x66 := by
  unfold word? at h
  split at h
  · rename_i hb
    exact .inl hb
  · split at h
    · rename_i hb
      exact .inr (.inl hb)
    · split at h
      · rename_i hb
        exact .inr (.inr hb)
      · cases h

theorem word?_of_startsNumeral {b : UInt8} (h : startsNumeral b = true) : word? b = none := by
  cases hw : word? b with
  | none => rfl
  | some w => rcases first_of_word? hw with rfl | rfl | rfl <;> cases h

theorem head_of_derives {value : List UInt8} (h : Derives .value value) :
    ∃ b tail, value = b :: tail ∧ isBlank b = false ∧ ∀ bracket : Bracket, b ≠ bracket.closing := by
  cases h with
  | word h =>
    obtain ⟨b, word, found, rfl, hw⟩ := exists_word?_of_mem_words h
    refine ⟨b, word, rfl, ?_, ?_⟩
    · rcases first_of_word? hw with rfl | rfl | rfl <;> rfl
    · rintro (_ | _) <;> rcases first_of_word? hw with rfl | rfl | rfl <;> decide
  | number h =>
    obtain ⟨b, tail, rfl, hb⟩ := startsNumeral_of_numberLiteral h
    exact ⟨b, tail, rfl, isBlank_of_startsNumeral hb, ne_closing_of_startsNumeral hb⟩
  | text h =>
    obtain ⟨content, rfl, -⟩ := h
    exact ⟨quote, _, rfl, rfl, by rintro (_ | _) <;> decide⟩
  | @empty bracket blanks h =>
    exact ⟨bracket.opening, _, rfl, isBlank_opening bracket,
      by cases bracket <;> rintro (_ | _) <;> decide⟩
  | @items bracket head value rest hh hv hr =>
    exact ⟨bracket.opening, _, rfl, isBlank_opening bracket,
      by cases bracket <;> rintro (_ | _) <;> decide⟩

theorem endsNumber_of_derives {bracket : Bracket} {text : List UInt8}
    (h : Derives (.rest bracket) text) (more : List UInt8) : EndsNumber (text ++ more) := by
  cases h with
  | close h =>
    rw [List.append_assoc]
    refine endsNumber_blanks_append h ?_
    cases bracket <;> exact endsNumber_cons rfl (by decide) rfl _
  | next h hh hv hr =>
    rw [List.append_assoc]
    exact endsNumber_blanks_append h (endsNumber_cons rfl (by decide) rfl _)

theorem skipToItem_skipBlanks {bracket : Bracket} {head : List UInt8} {b : UInt8}
    (h : ItemHead bracket head) (hb : isBlank b = false) (hc : b ≠ bracket.closing)
    (rest : List UInt8) :
    ∃ c tail blanks, skipBlanks (head ++ b :: rest) = c :: tail ∧ c ≠ bracket.closing ∧
      Blanks blanks ∧ skipToItem bracket (c :: tail) = .ok (blanks ++ b :: rest) := by
  cases h with
  | element h => exact ⟨b, rest, [], skipBlanks_append_cons h hb rest, hc, .nil, rfl⟩
  | @member before name after blanks hb' hn ha h =>
    have hm : ItemHead .object (name ++ (after ++ colon :: blanks)) := .member .nil hn ha h
    obtain ⟨blanks', hb'', hs⟩ := skipToItem_append hm (b :: rest)
    obtain ⟨content, rfl, hc⟩ := hn
    refine ⟨quote, _, blanks', ?_, by decide, hb'', hs⟩
    rw [List.append_assoc]
    exact skipBlanks_append_cons hb' (by decide) _

end PhraseSql.Json

import PhraseSql.Json.Record.Reader
import PhraseSql.Proofs.Json.Literal
import PhraseSql.Proofs.Json.Numeral
import PhraseSql.Proofs.Json.Skipped.Value

namespace PhraseSql.Json

theorem readText_token_iff {bytes rest : List UInt8} {text : String} :
    readText bytes = .ok (text, rest) ↔
      ∃ token, TextLiteral token text ∧ quote :: bytes = token ++ rest := by
  rw [readText_iff]
  constructor
  · rintro ⟨content, hc, rfl⟩
    exact ⟨quote :: (content ++ [quote]), ⟨content, rfl, hc⟩, by simp⟩
  · rintro ⟨token, ⟨content, rfl, hc⟩, hb⟩
    exact ⟨content, hc, by simpa using hb⟩

theorem head_of_denotes {kind : Kind} {token : List UInt8} {x : kind.Value}
    (h : kind.Denotes token x) :
    ∃ b tail, token = b :: tail ∧ isBlank b = false ∧ b ≠ closeBracket := by
  cases kind with
  | text =>
    obtain ⟨content, rfl, -⟩ := h
    exact ⟨quote, _, rfl, rfl, by decide⟩
  | number =>
    obtain ⟨whole?, h⟩ := h
    obtain ⟨token', ht, he, -⟩ := numberLiteral_of_readNumeral h
    rw [List.append_nil] at he
    subst he
    obtain ⟨b, tail, rfl, hb⟩ := startsNumeral_of_numberLiteral ht
    exact ⟨b, tail, rfl, isBlank_of_startsNumeral hb, ne_closing_of_startsNumeral hb .list⟩

theorem denotes_of_read {kind : Kind} {bytes rest : List UInt8} {x : kind.Value}
    (h : kind.read bytes = .ok (x, rest)) :
    ∃ blanks token, Blanks blanks ∧ kind.Denotes token x ∧ bytes = blanks ++ (token ++ rest) := by
  cases kind with
  | text =>
    simp only [Kind.read] at h
    split at h
    · cases h
    · rename_i b tail hs
      obtain ⟨blanks, hb, rfl⟩ := exists_blanks_of_skipBlanks hs
      split at h
      · rename_i hq
        obtain ⟨token, ht, he⟩ := readText_token_iff.mp h
        exact ⟨blanks, token, hb, ht, by rw [hq, he]⟩
      · cases h
  | number =>
    simp only [Kind.read] at h
    split at h
    · cases h
    · rename_i b tail hs
      obtain ⟨blanks, hb, rfl⟩ := exists_blanks_of_skipBlanks hs
      split at h
      · rw [bind_eq_ok_iff] at h
        obtain ⟨r, hr, h⟩ := h
        cases h
        obtain ⟨token, -, he, ht⟩ := numberLiteral_of_readNumeral hr
        refine ⟨blanks, token, hb, ⟨r.1.whole?, ?_⟩, by rw [he]⟩
        simpa using ht [] endsNumber_nil
      · cases h

theorem read_append {kind : Kind} {blanks token rest : List UInt8} {x : kind.Value}
    (hb : Blanks blanks) (h : kind.Denotes token x) (hr : EndsNumber rest) :
    kind.read (blanks ++ (token ++ rest)) = .ok (x, rest) := by
  cases kind with
  | text =>
    have ht : ∃ content, token = quote :: (content ++ [quote]) ∧ Spells content x.toList := h
    obtain ⟨content, rfl, hc⟩ := ht
    have hs := skipBlanks_append_cons hb (b := quote) rfl (content ++ [quote] ++ rest)
    simp only [Kind.read, List.cons_append, hs, if_pos]
    exact readText_iff.mpr ⟨content, hc, by simp⟩
  | number =>
    obtain ⟨whole?, h⟩ := h
    obtain ⟨token', ht, he, -⟩ := numberLiteral_of_readNumeral h
    rw [List.append_nil] at he
    subst he
    have hn := readNumeral_append h hr
    obtain ⟨b, tail, rfl, hb'⟩ := startsNumeral_of_numberLiteral ht
    have hs := skipBlanks_append_cons hb (isBlank_of_startsNumeral hb') (tail ++ rest)
    rw [List.cons_append] at hn
    simp only [Kind.read, List.cons_append, hs, hb', if_pos, hn, bind, Except.bind]

theorem lead_of_toElement {first : Bool} {bytes rest : List UInt8}
    (h : toElement first bytes = .ok (.ok rest)) :
    ∃ lead, Lead first lead ∧ bytes = lead ++ rest := by
  unfold toElement at h
  split at h
  · cases h
  · rename_i b tail hs
    obtain ⟨before, hb, rfl⟩ := exists_blanks_of_skipBlanks hs
    split at h
    · cases h
    · split at h
      · rename_i hf
        cases h
        subst hf
        exact ⟨before, .first hb, rfl⟩
      · rename_i hf
        rw [Bool.not_eq_true] at hf
        subst hf
        split at h
        · rename_i hc
          subst hc
          split at h
          · cases h
          · rename_i c tail' hs'
            obtain ⟨after, ha, rfl⟩ := exists_blanks_of_skipBlanks hs'
            split at h
            · cases h
            · cases h
              exact ⟨before ++ comma :: after, .later hb ha, by simp⟩
        · cases h

theorem Lead.append {first : Bool} {lead blanks : List UInt8} (h : Lead first lead)
    (hb : Blanks blanks) : Lead first (lead ++ blanks) := by
  cases h with
  | first h => exact .first (h.append hb)
  | later hb' ha => simpa using Lead.later hb' (ha.append hb)

theorem toElement_append {first : Bool} {lead : List UInt8} {b : UInt8} (h : Lead first lead)
    (hb : isBlank b = false) (hc : b ≠ closeBracket) (rest : List UInt8) :
    toElement first (lead ++ b :: rest) = .ok (.ok (b :: rest)) := by
  cases h with
  | first h => simp only [toElement, skipBlanks_append_cons h hb, if_neg hc, if_pos]
  | @later before after hb' ha =>
    have hs := skipBlanks_append_cons hb' (b := comma) rfl (after ++ b :: rest)
    have hn : comma ≠ closeBracket := by decide
    simp only [toElement, List.append_assoc, List.cons_append, hs, if_neg hn, Bool.false_eq_true,
      if_false, if_pos, skipBlanks_append_cons ha hb, if_neg hc]

theorem closeList_iff {bytes rest : List UInt8} :
    closeList bytes = .ok rest ↔
      ∃ blanks, Blanks blanks ∧ bytes = blanks ++ closeBracket :: rest := by
  constructor
  · intro h
    unfold closeList at h
    split at h
    · cases h
    · rename_i b tail hs
      split at h
      · rename_i hb
        cases h
        subst hb
        exact exists_blanks_of_skipBlanks hs
      · split at h
        · split at h <;> cases h
        · cases h
  · rintro ⟨blanks, hb, rfl⟩
    simp only [closeList, skipBlanks_append_cons hb (b := closeBracket) rfl, if_pos]

theorem endsNumber_of_elementsText {fields : List Field} {row : Row fields} {text : List UInt8}
    (h : ElementsText false fields row text) (more : List UInt8) : EndsNumber (text ++ more) := by
  cases fields with
  | nil =>
    obtain ⟨blanks, hb, rfl⟩ := h
    rw [List.append_assoc]
    exact endsNumber_blanks_append hb (endsNumber_cons rfl (by decide) rfl _)
  | cons f fs =>
    obtain ⟨lead, token, rest, ⟨⟩ | ⟨hb, ha⟩, -, -, rfl⟩ := h
    simp only [List.append_assoc, List.cons_append]
    exact endsNumber_blanks_append hb (endsNumber_cons rfl (by decide) rfl _)

theorem readElements_iff {shape : Shape} {fields : List Field} {index : Nat}
    {bytes rest : List UInt8} {row : Row fields} :
    readElements shape index fields bytes = .ok (row, rest) ↔
      ∃ text, ElementsText (index = 0) fields row text ∧ bytes = text ++ rest := by
  induction fields generalizing index bytes with
  | nil =>
    simp only [readElements, bind_eq_ok_iff, ElementsText]
    constructor
    · rintro ⟨rest', hc, ⟨⟩⟩
      obtain ⟨blanks, hb, rfl⟩ := closeList_iff.mp hc
      exact ⟨blanks ++ [closeBracket], ⟨blanks, hb, rfl⟩, by simp⟩
    · rintro ⟨_, ⟨blanks, hb, rfl⟩, rfl⟩
      exact ⟨rest, closeList_iff.mpr ⟨blanks, hb, by simp⟩, rfl⟩
  | cons f fs ih =>
    obtain ⟨x, row⟩ := row
    rw [readElements, bind_eq_ok_iff]
    constructor
    · rintro ⟨e, he, h⟩
      split at h
      · cases h
      · simp only [bind_eq_ok_iff] at h
        obtain ⟨⟨y, rest₁⟩, hk, ⟨row', rest₂⟩, hr, ⟨⟩⟩ := h
        obtain ⟨lead, hl, rfl⟩ := lead_of_toElement he
        obtain ⟨blanks, token, hb, ht, rfl⟩ := denotes_of_read hk
        obtain ⟨text, hx, rfl⟩ := ih.mp hr
        exact ⟨lead ++ blanks ++ (token ++ text),
          ⟨lead ++ blanks, token, text, hl.append hb, ht, by simpa using hx, rfl⟩, by simp⟩
    · rintro ⟨_, ⟨lead, token, text, hl, ht, hx, rfl⟩, rfl⟩
      have hr : readElements shape (index + 1) fs (text ++ rest) = .ok (row, rest) :=
        ih.mpr ⟨text, by simpa using hx, rfl⟩
      have hk : f.kind.read ([] ++ (token ++ (text ++ rest))) = .ok (x, text ++ rest) :=
        read_append .nil ht (endsNumber_of_elementsText hx rest)
      obtain ⟨b, tail, rfl, hb, hc⟩ := head_of_denotes ht
      have he := toElement_append hl hb hc (tail ++ (text ++ rest))
      simp only [List.append_assoc, List.cons_append, List.nil_append] at hk ⊢
      refine ⟨_, he, ?_⟩
      simp only [hk, hr, bind, Except.bind]

end PhraseSql.Json

import PhraseSql.Proofs.Json.Flaw
import PhraseSql.Proofs.Json.Manner
import PhraseSql.Proofs.Payload

namespace PhraseSql

open Json

def questionFront : List UInt8 :=
  openBrace :: (Text.octets "\"query\"" ++ [colon])

def questionSpelled (s : List UInt8) : List UInt8 :=
  questionFront ++ quote :: (s ++ [quote, closeBrace])

def questionListed (s : List UInt8) : List UInt8 :=
  openBracket :: quote :: (s ++ [quote, closeBracket])

theorem question_decode_spelled {s : List UInt8} {text : List Char} (h : Spells s text) :
    Question.decode (questionSpelled s) = .ok ⟨String.ofList text⟩ := by
  have hl : TextLiteral (quote :: (s ++ [quote])) (String.ofList text) :=
    ⟨s, rfl, by rwa [String.toList_ofList]⟩
  have hs : questionSpelled s = openBrace :: (Text.octets "\"query\"" ++
      colon :: ([] ++ (quote :: (s ++ [quote]) ++ [closeBrace]))) := by
    simp [questionSpelled, questionFront]
  rw [hs]
  exact question_decode_iff.mpr (document_question .nil hl)

theorem question_decode_front {bytes : List UInt8} {f : Failure}
    (h : Kind.read .text bytes = .error f) :
    Question.decode (questionFront ++ bytes) = .error f := by
  have hn : readName true ([] ++ (Text.octets "\"query\"" ++ colon :: bytes)) =
      .ok (some "query", colon :: bytes) :=
    readName_append (.first .nil) (textLiteral_octets "query") _
  have hc : readColon (colon :: bytes) = .ok bytes := readColon_iff.mpr ⟨[], .nil, rfl⟩
  have hm : Slots.readMember "query" (Slots.empty Question.shape.fields) (colon :: bytes) =
      .error f := by
    simp only [Question.shape, Slots.empty, Slots.readMember, if_pos, hc, h, bind, Except.bind]
  have hr : readMembers (Slots.empty Question.shape.fields) true
      (Text.octets "\"query\"" ++ colon :: bytes) = .error f := by
    rw [readMembers, ← List.nil_append (Text.octets "\"query\"" ++ colon :: bytes), hn]
    dsimp only
    rw [hm]
  have hf : questionFront ++ bytes = openBrace :: (Text.octets "\"query\"" ++ colon :: bytes) := by
    simp [questionFront]
  have hs := skipBlanks_cons (b := openBrace) rfl (Text.octets "\"query\"" ++ colon :: bytes)
  have ho : Bracket.opening? openBrace = some .object := rfl
  have hd : Question.shape.decode (questionFront ++ bytes) = .error f := by
    rw [hf]
    simp only [Shape.decode, Shape.read, hs, ho, hr, bind, Except.bind]
  rw [Question.decode, hd]
  rfl

theorem append_quote_bracket_inj {s content blanks after : List UInt8} (hb : Blanks blanks)
    (ha : Blanks after)
    (h : s ++ [quote, closeBracket] = content ++ quote :: (blanks ++ closeBracket :: after)) :
    s = content := by
  -- the last byte is no blank, and neither is the one before it
  rcases List.eq_nil_or_concat after with rfl | ⟨after, b, rfl⟩
  · have hl : (s ++ [quote]) ++ [closeBracket] =
        (content ++ quote :: blanks) ++ [closeBracket] := by simpa using h
    have hq := List.append_cancel_right hl
    rcases List.eq_nil_or_concat blanks with rfl | ⟨blanks, b, rfl⟩
    · exact List.append_cancel_right hq
    · have hl : s ++ [quote] = (content ++ quote :: blanks) ++ [b] := by simpa using hq
      obtain rfl := List.singleton_inj.mp (List.append_inj' hl rfl).2
      cases hb.isBlank quote (by simp)
  · have hl : (s ++ [quote]) ++ [closeBracket] =
        (content ++ quote :: (blanks ++ closeBracket :: after)) ++ [b] := by simpa using h
    obtain rfl := List.singleton_inj.mp (List.append_inj' hl rfl).2
    cases ha.isBlank closeBracket (by simp)

theorem blanks_eq_nil {blanks x y : List UInt8} {b : UInt8} (h : Blanks blanks)
    (hb : isBlank b = false) (he : b :: x = blanks ++ y) : blanks = [] := by
  cases blanks with
  | nil => rfl
  | cons a blanks =>
    rw [(List.cons.inj he).1, h.isBlank a List.mem_cons_self] at hb
    cases hb

theorem question_decode_listed_iff {s : List UInt8} {q : Question} :
    Question.decode (questionListed s) = .ok q ↔ Spells s q.query.toList := by
  rw [question_decode_iff]
  constructor
  · rintro ⟨before, body, after, hb, hx, ha, he⟩
    obtain rfl := blanks_eq_nil hb rfl he
    cases hx with
    | list hx =>
      obtain ⟨lead, token, rest, hl, ⟨content, rfl, hc⟩, ⟨blanks, hbl, rfl⟩, rfl⟩ := hx
      cases hl with
      | first hl =>
        simp only [questionListed, List.nil_append, List.cons_append, List.append_assoc,
          List.cons.injEq, true_and] at he
        obtain rfl := blanks_eq_nil hl rfl he
        rw [append_quote_bracket_inj hbl ha (List.cons.inj he).2]
        exact hc
    | object => cases (List.cons.inj he).1
  · intro h
    have hl : TextLiteral (quote :: (s ++ [quote])) q.query := ⟨s, rfl, h⟩
    have hx : ElementsText true Question.shape.fields q.toRow
        ([] ++ (quote :: (s ++ [quote]) ++ ([] ++ [closeBracket]))) :=
      ⟨[], _, _, .first .nil, hl, ⟨[], .nil, rfl⟩, rfl⟩
    refine ⟨[], _, [], .nil, .list hx, .nil, ?_⟩
    simp [questionListed]

/-- A text is read if what stands between its quotes splits into units whose runs of bytes are
characters, and the units tell it. How each character is written does not matter, and nothing makes
good a control character, half a pair of surrogates or bytes that are no character. -/
theorem literal_read_exactly :
    (∀ s rest text, Kind.read .text (quote :: (s ++ quote :: rest)) = .ok (text, rest) ↔
      Denoted s text) ∧
    (∀ s, (∃ text, Denoted s text) ↔ ∃ units, SplitsInto s units) ∧
    (∀ s q, Question.decode (questionListed s) = .ok q ↔ Denoted s q.query) ∧
    (∀ marked s, writeAll? marked = some s →
      Question.decode (questionSpelled s) = .ok ⟨String.ofList (marked.map Prod.fst)⟩) ∧
    ∀ front units bytes, SplitsInto front units → Flaw bytes →
      ∃ f, Kind.read .text (quote :: (front ++ bytes)) = .error f ∧
        Question.decode (questionFront ++ quote :: (front ++ bytes)) = .error f := by
  refine ⟨?_, ?_, ?_, ?_, ?_⟩
  · intro s rest text
    exact read_literal_iff
  · intro s
    exact exists_denoted_iff
  · intro s q
    rw [question_decode_listed_iff, denoted_iff]
  · intro marked s h
    exact question_decode_spelled (spells_writeAll? h)
  · intro front units bytes hs h
    obtain ⟨f, hf⟩ := readText_flaw hs h
    have hk : Kind.read .text (quote :: (front ++ bytes)) = .error f := by
      simp only [Kind.read, skipBlanks_cons (b := quote) rfl, if_pos, hf]
    exact ⟨f, hk, question_decode_front hk⟩

theorem literal_read_exactly_mixed :
    Question.decode (questionSpelled (Text.octets "\\u006Ab\\/é\\uD83d\\uDe00")) =
        .ok ⟨"jb/é😀"⟩ ∧
      ∃ f, Question.decode (questionFront ++
        quote :: (Text.octets "j" ++ Text.octets "\\udE00\"\x7d")) = .error f := by
  obtain ⟨-, -, -, hm, hf⟩ := literal_read_exactly
  constructor
  · exact hm [('j', .numbered fun i => i = 3), ('b', .plain), ('/', .short), ('é', .plain),
      ('😀', .numbered fun i => i % 2 = 0)] _ (by decide +kernel)
  · have hj : Spells (Text.octets "j") "j".toList :=
      .cons (.plain (c := 'j') (by decide) (by decide) (by decide)) .nil
    have hd : HexUnit [0x64, 0x45, 0x30, 0x30] 0xDE00 :=
      .digits (isHexDigit_hexByte false (by decide : 0xD < 16))
        (isHexDigit_hexByte true (by decide : 0xE < 16))
        (isHexDigit_hexByte false (by decide : 0 < 16))
        (isHexDigit_hexByte false (by decide : 0 < 16))
    have hl : Flaw (backslash :: letterU :: ([0x64, 0x45, 0x30, 0x30] ++ Text.octets "\"\x7d")) :=
      .low hd ⟨by decide, by decide⟩
    obtain ⟨units, hu⟩ := exists_denoted_iff.mp ⟨"j", denoted_iff.mpr hj⟩
    obtain ⟨f, -, he⟩ := hf _ units _ hu hl
    exact ⟨f, he⟩

end PhraseSql

import PhraseSql.Proofs.Json.Members

namespace PhraseSql.Json

theorem body_of_read {shape : Shape} {bytes rest : List UInt8} {row : Row shape.fields}
    (hd : (shape.fields.map Field.name).Nodup) (h : shape.read bytes = .ok (row, rest)) :
    ∃ before body, Blanks before ∧ shape.Body row body ∧ bytes = before ++ (body ++ rest) := by
  unfold Shape.read at h
  split at h
  · cases h
  · rename_i b tail hs
    obtain ⟨before, hb, rfl⟩ := exists_blanks_of_skipBlanks hs
    split at h
    · rename_i ho
      rw [opening?_iff.mp ho]
      obtain ⟨text, ht, rfl⟩ := readElements_iff.mp h
      exact ⟨before, openBracket :: text, hb, .list ht, rfl⟩
    · rename_i ho
      rw [opening?_iff.mp ho]
      obtain ⟨text, ms, ht, hc, hk, rfl⟩ := membersText_of_readMembers hd h
      exact ⟨before, openBrace :: text, hb, .object ht (completes_empty_iff.mp hc) hk, rfl⟩
    · cases h

theorem read_body {shape : Shape} {before body : List UInt8} {row : Row shape.fields}
    (hd : (shape.fields.map Field.name).Nodup) (hb : Blanks before) (h : shape.Body row body)
    (rest : List UInt8) : shape.read (before ++ (body ++ rest)) = .ok (row, rest) := by
  cases h with
  | @list text h =>
    have hs := skipBlanks_append_cons hb (b := openBracket) rfl (text ++ rest)
    have ho : Bracket.opening? openBracket = some .list := rfl
    simp only [Shape.read, List.cons_append, hs, ho]
    exact readElements_iff.mpr ⟨text, h, rfl⟩
  | @object text ms h hx hs =>
    have hs' := skipBlanks_append_cons hb (b := openBrace) rfl (text ++ rest)
    have ho : Bracket.opening? openBrace = some .object := rfl
    simp only [Shape.read, List.cons_append, hs', ho]
    exact readMembers_append hd h (completes_empty_iff.mpr hx) hs rest

theorem decode_eq_ok_iff {shape : Shape} {document : List UInt8} {row : Row shape.fields}
    (hd : (shape.fields.map Field.name).Nodup) :
    shape.decode document = .ok row ↔ shape.Document row document := by
  rw [Shape.decode, bind_eq_ok_iff]
  constructor
  · rintro ⟨⟨row', rest⟩, hr, h⟩
    dsimp only at h
    split at h
    · rename_i hs
      cases h
      obtain ⟨before, body, hb, hx, rfl⟩ := body_of_read hd hr
      exact ⟨before, body, rest, hb, hx, blanks_of_skipBlanks_nil hs, rfl⟩
    · cases h
  · rintro ⟨before, body, after, hb, hx, ha, rfl⟩
    have hs : skipBlanks after = [] := by
      rw [← List.append_nil after, skipBlanks_append ha, skipBlanks, List.dropWhile_nil]
    refine ⟨_, read_body hd hb hx after, ?_⟩
    simp only [hs]

end PhraseSql.Json

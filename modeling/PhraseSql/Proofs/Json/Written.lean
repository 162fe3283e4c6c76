import PhraseSql.Json.Record.Writer
import PhraseSql.Proofs.Json.Document

namespace PhraseSql

open Number

theorem ofScaled?_eq_some {significand : Nat} {exponent : Int} {x : Binary64}
    (h : scaled? significand exponent = some x.units) :
    Binary64.ofScaled? x.negative significand exponent = some x := by
  unfold Binary64.ofScaled?
  split
  · rename_i hn
    rw [h] at hn
    cases hn
  · rename_i units hs
    rw [h] at hs
    cases hs
    exact dif_pos x.lt_overflow

namespace Json

theorem utf8EncodeChar_digitChar :
    ∀ n < 16, String.utf8EncodeChar (Nat.digitChar n) = [(Nat.digitChar n).toUInt8] := by
  decide

theorem isHexDigit_digitChar {n : Nat} (h : n < 16) : IsHexDigit (Nat.digitChar n).toUInt8 n :=
  ⟨h, .inl rfl⟩

theorem escape_control {c : Char} (h : c.toNat < 0x20) :
    Escape ([backslash, letterU, 0x30, 0x30] ++ [(Nat.digitChar (c.toNat / 16)).toUInt8] ++
      [(Nat.digitChar (c.toNat % 16)).toUInt8]) c := by
  have hz : IsHexDigit 0x30 0 := isHexDigit_digitChar (by decide)
  have hu := HexUnit.digits hz hz (isHexDigit_digitChar (n := c.toNat / 16) (by omega))
    (isHexDigit_digitChar (n := c.toNat % 16) (by omega))
  have hn : ((0 * 16 + 0) * 16 + c.toNat / 16) * 16 + c.toNat % 16 = c.toNat := by omega
  rw [hn] at hu
  exact .unit hu

theorem escapeChar_short : ∀ p ∈ shortEscapes, p.2 ≠ '/' →
    (escapeChar p.2).flatMap String.utf8EncodeChar = [backslash, p.1] := by
  decide

theorem escapeChar_of_not_short {c : Char} (h : ∀ p ∈ shortEscapes, p.2 = c → c = '/') :
    c ≠ '"' ∧ c ≠ '\\' ∧ escapeChar c = if c.toNat < 0x20 then
      ['\\', 'u', '0', '0', Nat.digitChar (c.toNat / 16), Nat.digitChar (c.toNat % 16)]
    else [c] := by
  have hn : c ≠ '"' ∧ c ≠ '\\' ∧ c ≠ '\x08' ∧ c ≠ '\x0c' ∧ c ≠ '\n' ∧ c ≠ '\r' ∧ c ≠ '\t' := by
    refine ⟨?_, ?_, ?_, ?_, ?_, ?_, ?_⟩ <;> rintro rfl <;> revert h <;> decide
  obtain ⟨h1, h2, h3, h4, h5, h6, h7⟩ := hn
  refine ⟨h1, h2, ?_⟩
  simp only [escapeChar, if_neg h1, if_neg h2, if_neg h3, if_neg h4, if_neg h5, if_neg h6, if_neg h7]

theorem spelling_escapeChar (c : Char) :
    Spelling ((escapeChar c).flatMap String.utf8EncodeChar) c := by
  by_cases hs : ∀ p ∈ shortEscapes, p.2 = c → c = '/'
  · obtain ⟨hq, hb, he⟩ := escapeChar_of_not_short hs
    rw [he]
    by_cases hc : c.toNat < 0x20
    · have hd := utf8EncodeChar_digitChar (c.toNat / 16) (by omega)
      have hm := utf8EncodeChar_digitChar (c.toNat % 16) (by omega)
      simp only [if_pos hc, List.flatMap_cons, List.flatMap_nil, hd, hm]
      exact .escape (escape_control hc)
    · rw [if_neg hc, List.flatMap_singleton]
      exact .plain (by omega) hq hb
  · obtain ⟨⟨b, c'⟩, hp, rfl, hc⟩ : ∃ p ∈ shortEscapes, p.2 = c ∧ c ≠ '/' := by simpa using hs
    rw [escapeChar_short (b, c') hp hc]
    exact .escape (.short hp)

theorem spells_flatMap_escapeChar (text : List Char) :
    Spells ((text.flatMap escapeChar).flatMap String.utf8EncodeChar) text := by
  induction text with
  | nil => exact .nil
  | cons c text ih =>
    rw [List.flatMap_cons, List.flatMap_append]
    exact .cons (spelling_escapeChar c) ih

theorem textLiteral_denotes (text : String) :
    TextLiteral ((textLiteral text).flatMap String.utf8EncodeChar) text := by
  refine ⟨_, ?_, spells_flatMap_escapeChar text.toList⟩
  rw [textLiteral, List.flatMap_cons, List.flatMap_append]
  rfl

theorem textLiteral_octets (text : String) :
    TextLiteral (Text.octets (String.ofList (textLiteral text))) text := by
  rw [Text.octets_ofList]
  exact textLiteral_denotes text

def Kind.ReadsBack (kind : Kind) (x : kind.Value) : Prop :=
  kind.Denotes ((kind.write x).flatMap String.utf8EncodeChar) x

theorem readsBack_text (text : String) : Kind.ReadsBack .text text :=
  textLiteral_denotes text

theorem scaled?_half : scaled? 5 (-1) = some Binary64.half.units := by
  show some (shrink (ofWhole 5) 1) = some Binary64.half.units
  rw [shrink, if_pos (by decide)]
  decide +kernel

theorem write_half : Kind.write .number .half = ['0', '.', '5'] := by
  decide +kernel

theorem readsBack_half : Kind.ReadsBack .number .half := by
  have hr : readNumeral [0x30, 0x2E, 0x35] = .ok (⟨.half, none⟩, []) := by
    show finish Binary64.half.negative 5 (-1) none [] = .ok (⟨.half, none⟩, [])
    rw [finish, ofScaled?_eq_some scaled?_half]
  refine ⟨none, ?_⟩
  rw [write_half]
  exact hr

def Row.ReadsBack : (fields : List Field) → Row fields → Prop
  | [], _ => True
  | f :: fs, (x, row) => f.kind.ReadsBack x ∧ ReadsBack fs row

def Row.ReadsAs : (fields : List Field) → Row fields → Row fields → Prop
  | [], _, _ => True
  | f :: fs, (x, row), (y, row') =>
    f.kind.Denotes ((f.kind.write x).flatMap String.utf8EncodeChar) y ∧ ReadsAs fs row row'

theorem Row.ReadsBack.readsAs {fields : List Field} {row : Row fields}
    (h : Row.ReadsBack fields row) : Row.ReadsAs fields row row := by
  induction fields with
  | nil => exact trivial
  | cons f fs ih => exact ⟨h.1, ih h.2⟩

def Row.members : (fields : List Field) → Row fields → List Member
  | [], _ => []
  | f :: fs, (x, row) =>
    ⟨f.name, (f.kind.write x).flatMap String.utf8EncodeChar⟩ :: members fs row

theorem exists_field_of_mem_members {fields : List Field} {row : Row fields} {m : Member}
    (h : m ∈ Row.members fields row) : ∃ f ∈ fields, m.name = f.name := by
  induction fields with
  | nil => cases h
  | cons f fs ih =>
    rcases List.mem_cons.mp h with rfl | h
    · exact ⟨f, List.mem_cons_self, rfl⟩
    · obtain ⟨g, hg, he⟩ := ih h
      exact ⟨g, List.mem_cons_of_mem f hg, he⟩

theorem occurs_members {fields : List Field} {row row' : Row fields}
    (hd : (fields.map Field.name).Nodup) (h : Row.ReadsAs fields row row') :
    Row.Occurs (Row.members fields row) fields row' := by
  induction fields with
  | nil => exact trivial
  | cons f fs ih =>
    obtain ⟨x, row⟩ := row
    obtain ⟨y, row'⟩ := row'
    obtain ⟨hn, hd⟩ := List.nodup_cons.mp hd
    obtain ⟨hx, h⟩ := h
    have hf := name_ne_of_not_mem hn
    have hm : (Row.members fs row).filter (Member.hasName f.name) = [] := by
      refine List.filter_eq_nil_iff.mpr ?_
      intro m hm he
      obtain ⟨g, hg, hm⟩ := exists_field_of_mem_members hm
      rw [Member.hasName, decide_eq_true_eq, hm] at he
      exact hf g hg he
    have hc := completes_empty_iff.mpr (ih hd h)
    refine ⟨⟨_, ?_, hx⟩, completes_empty_iff.mp ((completes_cons_of_ne hf).mpr hc)⟩
    rw [Row.members, List.filter_cons_of_pos (by simp [Member.hasName]), hm]

theorem membersText_member {first : Bool} {lead : List UInt8} (hl : Lead first lead) (f : Field)
    (x : f.kind.Value) {rest : List UInt8} {ms : List Member} (h : MembersText false rest ms) :
    MembersText first
      (lead ++ ((textLiteral f.name ++ ':' :: f.kind.write x).flatMap String.utf8EncodeChar ++ rest))
      (⟨f.name, (f.kind.write x).flatMap String.utf8EncodeChar⟩ :: ms) := by
  have hm : MemberText _ ⟨f.name, (f.kind.write x).flatMap String.utf8EncodeChar⟩ :=
    .named (textLiteral_denotes f.name) .nil .nil
  rw [List.flatMap_append, List.flatMap_cons]
  exact .member hl hm h

theorem membersText_writeMore (fields : List Field) (row : Row fields) :
    MembersText false ((Row.writeMore fields row).flatMap String.utf8EncodeChar ++ [closeBrace])
      (Row.members fields row) := by
  induction fields with
  | nil => exact .close .nil
  | cons f fs ih =>
    have h := membersText_member (Lead.later .nil .nil) f row.1 (ih row.2)
    simpa [Row.writeMore, Row.members, comma, String.utf8EncodeChar] using h

theorem membersText_write (fields : List Field) (row : Row fields) :
    MembersText true ((Row.write fields row).flatMap String.utf8EncodeChar ++ [closeBrace])
      (Row.members fields row) := by
  cases fields with
  | nil => exact .close .nil
  | cons f fs =>
    have h := membersText_member (Lead.first .nil) f row.1 (membersText_writeMore fs row.2)
    simpa [Row.write, Row.writeMore, Row.members] using h

theorem octets_write (shape : Shape) (row : Row shape.fields) :
    Text.octets (shape.write row) =
      openBrace :: ((Row.write shape.fields row).flatMap String.utf8EncodeChar ++ [closeBrace]) := by
  rw [Shape.write, Text.octets_ofList, List.flatMap_cons, List.flatMap_append]
  simp [openBrace, closeBrace, String.utf8EncodeChar]

theorem document_write_of_readsAs {shape : Shape} {row row' : Row shape.fields}
    (hd : (shape.fields.map Field.name).Nodup) (h : Row.ReadsAs shape.fields row row') :
    shape.Document row' (Text.octets (shape.write row)) := by
  have hs : SkipsOthers shape.fields (Row.members shape.fields row) := by
    intro m hm hn
    obtain ⟨f, hf, he⟩ := exists_field_of_mem_members hm
    exact absurd he (hn f hf)
  refine ⟨[], _, [], .nil, .object (membersText_write shape.fields row) (occurs_members hd h) hs,
    .nil, ?_⟩
  rw [octets_write, List.nil_append, List.append_nil]

theorem document_write {shape : Shape} {row : Row shape.fields}
    (hd : (shape.fields.map Field.name).Nodup) (h : Row.ReadsBack shape.fields row) :
    shape.Document row (Text.octets (shape.write row)) :=
  document_write_of_readsAs hd h.readsAs

end Json

end PhraseSql

import PhraseSql.Proofs.Json.Escape

namespace PhraseSql.Json

inductive Assembles : List UInt8 → List UInt8 → Prop where
  | nil : Assembles [] []
  | plain {b : UInt8} {s t : List UInt8} (h : 0x20 ≤ b) (hq : b ≠ quote) (hb : b ≠ backslash)
      (hs : Assembles s t) : Assembles (b :: s) (b :: t)
  | escape {e s t : List UInt8} {c : Char} (h : Escape e c) (hs : Assembles s t) :
      Assembles (e ++ s) (String.utf8EncodeChar c ++ t)

theorem assembles_of_readContent {read content bytes rest : List UInt8}
    (h : readContent read bytes = .ok (content, rest)) :
    ∃ s t, Assembles s t ∧ bytes = s ++ quote :: rest ∧ content = read.reverse ++ t := by
  fun_induction readContent read bytes with
  | case1 => cases h
  | case2 =>
    cases h
    exact ⟨[], [], .nil, rfl, by simp⟩
  | case3 => cases h
  | case4 read tail c tail' he hq ih =>
    obtain ⟨e, hec, rfl⟩ := readEscape_iff.mp he
    obtain ⟨s, t, hs, rfl, rfl⟩ := ih h
    exact ⟨_, _, .escape hec hs, by simp, by simp⟩
  | case5 => cases h
  | case6 read b tail hq hb hlt ih =>
    obtain ⟨s, t, hs, rfl, rfl⟩ := ih h
    exact ⟨b :: s, b :: t, .plain (UInt8.not_lt.mp hlt) hq hb hs, rfl, by simp⟩

theorem exists_eq_cons_of_escape {e : List UInt8} {c : Char} (h : Escape e c) :
    ∃ e', e = backslash :: e' := by
  cases h <;> exact ⟨_, rfl⟩

theorem readContent_of_assembles {s t : List UInt8} (h : Assembles s t) (read rest : List UInt8) :
    readContent read (s ++ quote :: rest) = .ok (read.reverse ++ t, rest) := by
  induction h generalizing read with
  | nil => simp [readContent]
  | @plain b s t h hq hb hs ih =>
    rw [List.cons_append, readContent, if_neg hq, if_neg hb, if_neg (UInt8.not_lt.mpr h), ih]
    simp
  | @escape e s t c h hs ih =>
    obtain ⟨e', rfl⟩ := exists_eq_cons_of_escape h
    have he : readEscape (e' ++ (s ++ quote :: rest)) = .ok (c, s ++ quote :: rest) :=
      readEscape_iff.mpr ⟨e', h, rfl⟩
    rw [List.append_assoc, List.cons_append, readContent, if_neg (by decide), if_pos rfl]
    split
    · rename_i he'
      rw [he] at he'
      cases he'
    · rename_i he'
      rw [he] at he'
      cases he'
      rw [ih]
      simp

theorem utf8EncodeChar_eq_cons (c : Char) : ∃ b tail, String.utf8EncodeChar c = b :: tail ∧
    b.IsUTF8FirstByte ∧ ∀ x ∈ tail, ¬ x.IsUTF8FirstByte := by
  have hi : ∀ i (hi : i < (String.utf8EncodeChar c).length),
      (String.utf8EncodeChar c)[i].IsUTF8FirstByte ↔ i = 0 := fun i hi =>
    UInt8.isUTF8FirstByte_getElem_utf8EncodeChar
  have hp := c.utf8Size_pos
  rw [← String.length_utf8EncodeChar] at hp
  cases he : String.utf8EncodeChar c with
  | nil => simp [he] at hp
  | cons b tail =>
    simp only [he] at hi
    refine ⟨b, tail, rfl, (hi 0 (by simp)).mpr rfl, ?_⟩
    intro x hx
    obtain ⟨i, hlt, rfl⟩ := List.getElem_of_mem hx
    have := hi (i + 1) (by simpa using hlt)
    simpa using this

theorem assembles_split {s t tail : List UInt8} (ht : ∀ x ∈ tail, ¬ x.IsUTF8FirstByte)
    (h : Assembles s (tail ++ t)) : ∃ s', s = tail ++ s' ∧ Assembles s' t := by
  induction tail generalizing s with
  | nil => exact ⟨s, rfl, h⟩
  | cons x tail ih =>
    generalize hu : x :: tail ++ t = u at h
    cases h with
    | nil => cases hu
    | plain hx hq hb hs =>
      cases hu
      obtain ⟨s', rfl, hs'⟩ := ih (fun y hy => ht y (List.mem_cons_of_mem _ hy)) hs
      exact ⟨s', rfl, hs'⟩
    | @escape e s t' c he hs =>
      obtain ⟨b, bs, hc, hb, -⟩ := utf8EncodeChar_eq_cons c
      rw [hc] at hu
      obtain rfl : x = b := List.head_eq_of_cons_eq hu
      exact absurd hb (ht x List.mem_cons_self)

theorem utf8EncodeChar_of_ascii {c : Char} (h : c.toNat ≤ 0x7F) :
    String.utf8EncodeChar c = [UInt8.ofNat c.toNat] :=
  if_pos h

theorem plain_of_mem_utf8EncodeChar {c : Char} {b : UInt8} (h : 0x20 ≤ c.toNat) (hq : c ≠ '"')
    (hb : c ≠ '\\') (hm : b ∈ String.utf8EncodeChar c) :
    0x20 ≤ b ∧ b ≠ quote ∧ b ≠ backslash := by
  simp only [ne_eq, ← Char.toNat_inj] at hq hb
  by_cases hc : c.toNat ≤ 0x7F
  · rw [utf8EncodeChar_of_ascii hc, List.mem_singleton] at hm
    have hn : b.toNat = c.toNat := by rw [hm, UInt8.toNat_ofNat']; omega
    simp only [UInt8.le_iff_toNat_le, ne_eq, ← UInt8.toNat_inj, hn]
    exact ⟨h, hq, hb⟩
  · have := Text.le_of_mem_utf8EncodeChar (Nat.lt_of_not_le hc) hm
    simp only [UInt8.le_iff_toNat_le, ne_eq, ← UInt8.toNat_inj, quote, backslash,
      UInt8.reduceToNat] at this ⊢
    omega

theorem plain_of_utf8EncodeChar {c : Char} {b : UInt8} {tail : List UInt8}
    (hc : String.utf8EncodeChar c = b :: tail) (h : 0x20 ≤ b) (hq : b ≠ quote)
    (hb : b ≠ backslash) : 0x20 ≤ c.toNat ∧ c ≠ '"' ∧ c ≠ '\\' := by
  by_cases ha : c.toNat ≤ 0x7F
  · rw [utf8EncodeChar_of_ascii ha] at hc
    have hn : b.toNat = c.toNat := by
      rw [← List.head_eq_of_cons_eq hc, UInt8.toNat_ofNat']
      omega
    simp only [UInt8.le_iff_toNat_le, ne_eq, ← UInt8.toNat_inj, hn] at h hq hb
    simp only [ne_eq, ← Char.toNat_inj]
    exact ⟨h, hq, hb⟩
  · refine ⟨by omega, ?_, ?_⟩ <;> rintro rfl <;> exact ha (by decide)

theorem Assembles.plains {bytes s t : List UInt8}
    (h : ∀ b ∈ bytes, 0x20 ≤ b ∧ b ≠ quote ∧ b ≠ backslash) (hs : Assembles s t) :
    Assembles (bytes ++ s) (bytes ++ t) := by
  induction bytes with
  | nil => exact hs
  | cons b bytes ih =>
    obtain ⟨hb, hq, hs'⟩ := h b List.mem_cons_self
    exact .plain hb hq hs' (ih fun x hx => h x (List.mem_cons_of_mem _ hx))

theorem assembles_of_spells {s : List UInt8} {text : List Char} (h : Spells s text) :
    Assembles s (text.flatMap String.utf8EncodeChar) := by
  induction h with
  | nil => exact .nil
  | @cons s bytes c text hc hs ih =>
    rw [List.flatMap_cons]
    cases hc with
    | plain h hq hb => exact ih.plains fun b hm => plain_of_mem_utf8EncodeChar h hq hb hm
    | escape he => exact .escape he ih

theorem spells_of_assembles {s : List UInt8} {text : List Char}
    (h : Assembles s (text.flatMap String.utf8EncodeChar)) : Spells s text := by
  induction text generalizing s with
  | nil =>
    generalize ht : [].flatMap String.utf8EncodeChar = t at h
    cases h with
    | nil => exact .nil
    | plain => cases ht
    | escape =>
      simp only [List.flatMap_nil, List.nil_eq, List.append_eq_nil_iff] at ht
      exact absurd ht.1 String.utf8EncodeChar_ne_nil
  | cons c text ih =>
    rw [List.flatMap_cons] at h
    obtain ⟨b, tail, hc, -, ht⟩ := utf8EncodeChar_eq_cons c
    generalize hu : String.utf8EncodeChar c ++ text.flatMap String.utf8EncodeChar = u at h
    cases h with
    | nil => simp [hc] at hu
    | @plain b' s t hb hq hb' hs =>
      rw [hc, List.cons_append, List.cons.injEq] at hu
      obtain ⟨rfl, rfl⟩ := hu
      obtain ⟨s', rfl, hs'⟩ := assembles_split ht hs
      obtain ⟨hp, hpq, hpb⟩ := plain_of_utf8EncodeChar hc hb hq hb'
      rw [← List.cons_append, ← hc]
      exact .cons (.plain hp hpq hpb) (ih hs')
    | @escape e s t c' he hs =>
      have hn := Text.nextChar?_utf8EncodeChar_append c (text.flatMap String.utf8EncodeChar)
      rw [hu, Text.nextChar?_utf8EncodeChar_append] at hn
      cases hn
      exact .cons (.escape he) (ih hs)

theorem readText_iff {bytes rest : List UInt8} {text : String} :
    readText bytes = .ok (text, rest) ↔
      ∃ content, Spells content text.toList ∧ bytes = content ++ quote :: rest := by
  constructor
  · intro h
    rw [readText, bind_eq_ok_iff] at h
    obtain ⟨⟨content, tail⟩, hr, h⟩ := h
    obtain ⟨s, t, hs, rfl, ht⟩ := assembles_of_readContent hr
    dsimp only at h
    split at h
    · rename_i chars hd
      cases h
      have hc : t = chars.flatMap String.utf8EncodeChar := by
        simpa [ht] using Text.eq_append_of_decode hd
      rw [hc] at hs
      exact ⟨s, by simpa using spells_of_assembles hs, rfl⟩
    · cases h
  · rintro ⟨content, hs, rfl⟩
    have hr := readContent_of_assembles (assembles_of_spells hs) [] rest
    simp [readText, bind, Except.bind, hr, Text.decode_flatMap]

end PhraseSql.Json

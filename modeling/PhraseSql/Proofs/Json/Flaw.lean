import PhraseSql.Proofs.Json.Units

namespace PhraseSql.Json

inductive Flaw : List UInt8 → Prop where
  | control {b : UInt8} {back : List UInt8} (h : b < 0x20) : Flaw (b :: back)
  | low {digits back : List UInt8} {n : Nat} (h : HexUnit digits n)
      (hl : IsLowSurrogate n) : Flaw (backslash :: letterU :: (digits ++ back))
  | high {digits back : List UInt8} {n : Nat} (h : HexUnit digits n)
      (hh : IsHighSurrogate n)
      (hb : ∀ digits' low back', HexUnit digits' low → IsLowSurrogate low →
        back ≠ backslash :: letterU :: (digits' ++ back')) :
      Flaw (backslash :: letterU :: (digits ++ back))
  | bytes {bytes : List UInt8} (h : Text.IllFormed bytes) : Flaw bytes

variable {s t x y : List UInt8} {c d : Char}

theorem HexUnit.append_inj {m n : Nat} (hs : HexUnit s m) (ht : HexUnit t n)
    (h : s ++ x = t ++ y) : m = n ∧ x = y := by
  have hx : readUnit (s ++ x) = .ok (m, x) := readUnit_iff.mpr ⟨s, hs, rfl⟩
  rw [h, readUnit_iff.mpr ⟨t, ht, rfl⟩] at hx
  cases hx
  exact ⟨rfl, rfl⟩

theorem Escape.append_inj (hs : Escape s c) (ht : Escape t d) (h : s ++ x = t ++ y) :
    s = t ∧ x = y := by
  obtain ⟨s', rfl⟩ := exists_eq_cons_of_escape hs
  obtain ⟨t', rfl⟩ := exists_eq_cons_of_escape ht
  have hr : s' ++ x = t' ++ y := (List.cons.inj h).2
  have hx : readEscape (s' ++ x) = .ok (c, x) := readEscape_iff.mpr ⟨s', hs, rfl⟩
  rw [hr, readEscape_iff.mpr ⟨t', ht, rfl⟩] at hx
  cases hx
  exact ⟨List.append_cancel_right h, rfl⟩

theorem plain_ne_backslash (h : 0x20 ≤ c.toNat) (hq : c ≠ '"') (hb : c ≠ '\\') :
    String.utf8EncodeChar c ++ x ≠ backslash :: y := by
  intro he
  obtain ⟨b, tail, hc, -⟩ := utf8EncodeChar_eq_cons c
  have hm : b ∈ String.utf8EncodeChar c := by simp [hc]
  rw [hc] at he
  exact (plain_of_mem_utf8EncodeChar h hq hb hm).2.2 (List.cons.inj he).1

theorem Spelling.append_inj (hs : Spelling s c) (ht : Spelling t d) (h : s ++ x = t ++ y) :
    s = t ∧ x = y := by
  cases hs with
  | plain hp hq hb =>
    cases ht with
    | plain =>
      have hn := Text.nextChar?_utf8EncodeChar_append c x
      rw [h, Text.nextChar?_utf8EncodeChar_append] at hn
      cases hn
      exact ⟨rfl, rfl⟩
    | escape he =>
      obtain ⟨e, rfl⟩ := exists_eq_cons_of_escape he
      exact absurd h (plain_ne_backslash hp hq hb)
  | escape he =>
    cases ht with
    | plain hp hq hb =>
      obtain ⟨e, rfl⟩ := exists_eq_cons_of_escape he
      exact absurd h.symm (plain_ne_backslash hp hq hb)
    | escape he' => exact he.append_inj he' h

theorem Spelling.exists_cons (h : Spelling s c) :
    ∃ b tail, s = b :: tail ∧ 0x20 ≤ b ∧ b ≠ quote := by
  cases h with
  | plain h hq hb =>
    obtain ⟨b, tail, hc, -⟩ := utf8EncodeChar_eq_cons c
    obtain ⟨hl, hn, -⟩ := plain_of_mem_utf8EncodeChar h hq hb (hc ▸ List.mem_cons_self)
    exact ⟨b, tail, hc, hl, hn⟩
  | escape he =>
    obtain ⟨e, rfl⟩ := exists_eq_cons_of_escape he
    exact ⟨backslash, e, rfl, by decide, by decide⟩

theorem Spells.exists_rest {front content bytes rest : List UInt8} {text text' : List Char}
    (h : Spells front text) (h' : Spells content text')
    (he : front ++ bytes = content ++ quote :: rest) :
    ∃ content' text'', Spells content' text'' ∧ bytes = content' ++ quote :: rest := by
  induction h generalizing content text' with
  | nil => exact ⟨content, text', h', he⟩
  | cons hc hs ih =>
    rw [List.append_assoc] at he
    cases h' with
    | nil =>
      obtain ⟨b, tail, rfl, -, hq⟩ := hc.exists_cons
      exact absurd (List.cons.inj he).1 hq
    | cons hc' hs' =>
      rw [List.append_assoc] at he
      exact ih hs' (hc.append_inj hc' he).2

theorem Flaw.ne_spelling {bytes : List UInt8} (h : Flaw bytes) (hs : Spelling s c)
    (rest : List UInt8) : bytes ≠ s ++ rest := by
  intro he
  cases h with
  | control h =>
    obtain ⟨b, tail, rfl, hb, -⟩ := hs.exists_cons
    rw [(List.cons.inj he).1] at h
    exact UInt8.not_lt.mpr hb h
  | @low digits back n h hl =>
    cases hs with
    | plain hp hq hb => exact plain_ne_backslash hp hq hb he.symm
    | escape hs =>
      cases hs with
      | short hm =>
        obtain rfl := (List.cons.inj (List.cons.inj he).2).1
        simp [shortEscapes, letterU] at hm
      | unit h' =>
        obtain ⟨rfl, -⟩ := h.append_inj h' (List.cons.inj (List.cons.inj he).2).2
        exact (not_surrogate _).2 hl
      | pair h' _ hh =>
        simp only [List.cons_append, List.cons.injEq, true_and, List.append_assoc] at he
        obtain ⟨rfl, -⟩ := h.append_inj h' he
        exact not_low_of_high hh hl
  | @high digits back n h hh hb =>
    cases hs with
    | plain hp hq hb => exact plain_ne_backslash hp hq hb he.symm
    | escape hs =>
      cases hs with
      | short hm =>
        obtain rfl := (List.cons.inj (List.cons.inj he).2).1
        simp [shortEscapes, letterU] at hm
      | unit h' =>
        obtain ⟨rfl, -⟩ := h.append_inj h' (List.cons.inj (List.cons.inj he).2).2
        exact (not_surrogate _).1 hh
      | pair h' hs _ hl =>
        simp only [List.cons_append, List.cons.injEq, true_and, List.append_assoc] at he
        obtain ⟨-, rfl⟩ := h.append_inj h' he
        exact hb _ _ _ hs hl rfl
  | bytes h =>
    cases hs with
    | plain => exact h.ne_append c rest he
    | escape hs =>
      obtain ⟨b, tail, rfl, hb⟩ := h.exists_cons
      obtain ⟨e, rfl⟩ := exists_eq_cons_of_escape hs
      rw [(List.cons.inj he).1] at hb
      exact absurd hb (by decide)

theorem Flaw.ne_quote {bytes : List UInt8} (h : Flaw bytes) (rest : List UInt8) :
    bytes ≠ quote :: rest := by
  intro he
  cases h with
  | control h =>
    rw [(List.cons.inj he).1] at h
    exact absurd h (by decide)
  | low => exact absurd (List.cons.inj he).1 (by decide)
  | high => exact absurd (List.cons.inj he).1 (by decide)
  | bytes h =>
    obtain ⟨b, tail, rfl, hb⟩ := h.exists_cons
    rw [(List.cons.inj he).1] at hb
    exact absurd hb (by decide)

theorem Flaw.ne_spells {bytes content rest : List UInt8} {text : List Char} (h : Flaw bytes)
    (hs : Spells content text) : bytes ≠ content ++ quote :: rest := by
  cases hs with
  | nil => exact h.ne_quote rest
  | cons hc hs =>
    rw [List.append_assoc]
    exact h.ne_spelling hc _

theorem readText_flaw {front bytes : List UInt8} {units : List TextUnit}
    (hs : SplitsInto front units) (h : Flaw bytes) :
    ∃ f, readText (front ++ bytes) = .error f := by
  obtain ⟨text, ht⟩ := exists_denoted_iff.mpr ⟨units, hs⟩
  cases hr : readText (front ++ bytes) with
  | error f => exact ⟨f, rfl⟩
  | ok r =>
    obtain ⟨text', rest⟩ := r
    obtain ⟨content, hc, he⟩ := readText_iff.mp hr
    obtain ⟨content', text'', hc', rfl⟩ := (denoted_iff.mp ht).exists_rest hc he
    exact absurd rfl (h.ne_spells hc')

end PhraseSql.Json

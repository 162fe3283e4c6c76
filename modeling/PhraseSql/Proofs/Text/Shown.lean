import PhraseSql.Proofs.Text.Quoted

namespace PhraseSql.Text

theorem digitChar_inj : ∀ d < 16, ∀ e < 16, Nat.digitChar d = Nat.digitChar e → d = e := by
  decide

theorem toDigits_inj {b : Nat} (hb : 1 < b) (hm : b ≤ 16) {m n : Nat}
    (h : Nat.toDigits b m = Nat.toDigits b n) : m = n := by
  induction m using Nat.strongRecOn generalizing n with
  | ind m ih =>
    -- a number of one digit is its digit, and any other number has digits before the last
    have hs (k : Nat) (hk : k < b) : Nat.toDigits b k = [] ++ [Nat.digitChar k] := by
      rw [Nat.toDigits_eq_if hb, if_pos hk, List.nil_append]
    have hl (k : Nat) (hk : ¬ k < b) :
        Nat.toDigits b k = Nat.toDigits b (k / b) ++ [Nat.digitChar (k % b)] := by
      rw [Nat.toDigits_eq_if hb, if_neg hk]
    have hd (k l : Nat) (hk : k < b) (hl : l < b) (he : [Nat.digitChar k] = [Nat.digitChar l]) :
        k = l := by
      apply digitChar_inj k (by omega) l (by omega)
      exact List.singleton_inj.mp he
    by_cases hm : m < b
    · by_cases hn : n < b
      · rw [hs m hm, hs n hn] at h
        exact hd m n hm hn h
      · rw [hs m hm, hl n hn] at h
        have he := (List.append_inj' h rfl).1
        exact absurd he.symm Nat.toDigits_ne_nil
    · by_cases hn : n < b
      · rw [hl m hm, hs n hn] at h
        have he := (List.append_inj' h rfl).1
        exact absurd he Nat.toDigits_ne_nil
      · rw [hl m hm, hl n hn] at h
        obtain ⟨hq, hr⟩ := List.append_inj' h rfl
        have hq : m / b = n / b := ih (m / b) (Nat.div_lt_self (by omega) hb) hq
        have hr : m % b = n % b :=
          hd _ _ (Nat.mod_lt m (by omega)) (Nat.mod_lt n (by omega)) hr
        rw [← Nat.div_add_mod m b, ← Nat.div_add_mod n b, hq, hr]

theorem append_mark_inj {mark : Char} {s t x y : List Char} (hs : mark ∉ s) (ht : mark ∉ t)
    (h : s ++ mark :: x = t ++ mark :: y) : s = t ∧ x = y := by
  rcases List.append_eq_append_iff.mp h with ⟨z, rfl, hz⟩ | ⟨z, rfl, hz⟩
  · cases z with
    | nil => exact ⟨(List.append_nil s).symm, (List.cons.inj hz).2⟩
    | cons c z =>
      have hm : mark ∈ s ++ c :: z := by simp [(List.cons.inj hz).1]
      exact absurd hm ht
  · cases z with
    | nil => exact ⟨List.append_nil t, (List.cons.inj hz).2.symm⟩
    | cons c z =>
      have hm : mark ∈ t ++ c :: z := by simp [(List.cons.inj hz).1]
      exact absurd hm hs

def shortEscapes : List (Char × Char) :=
  [('"', '"'), ('\\', '\\'), ('0', '\x00'), ('t', '\t'), ('n', '\n'), ('r', '\r')]

inductive Shown : List Char → Char → Prop
  | plain {c : Char} (hq : c ≠ '"') (hb : c ≠ '\\') : Shown [c] c
  | short {e c : Char} (h : (e, c) ∈ shortEscapes) : Shown ['\\', e] c
  | long (c : Char) : Shown (codePoint c) c

theorem shown_quotedChar (c : Char) : Shown (quotedChar c) c := by
  unfold quotedChar
  iterate 2
    split
    · subst c
      exact .short (by decide)
  rename_i hq hb
  iterate 4
    split
    · subst c
      exact .short (by decide)
  split
  · exact .plain hq hb
  · exact .long c

theorem shortEscapes_inj :
    ∀ p ∈ shortEscapes, ∀ q ∈ shortEscapes, p.1 = q.1 → p.2 = q.2 := by
  decide

theorem codePoint_append_inj {c d : Char} {x y : List Char}
    (h : codePoint c ++ x = codePoint d ++ y) : c = d ∧ x = y := by
  have hn (c : Char) : '\x7d' ∉ Nat.toDigits 16 c.toNat := by
    intro hm
    obtain ⟨d, hd, he⟩ := exists_digit_of_mem_toDigits (by decide) _ _ hm
    have hb : ∀ d < 16, '\x7d' ≠ Nat.digitChar d := by decide
    exact hb d hd he
  simp only [codePoint, List.cons_append, List.append_assoc, List.nil_append, List.cons.injEq,
    true_and] at h
  obtain ⟨hd, hx⟩ := append_mark_inj (hn c) (hn d) h
  exact ⟨Char.toNat_inj.mp (toDigits_inj (by decide) (by decide) hd), hx⟩

theorem Shown.append_inj {s t x y : List Char} {c d : Char} (hs : Shown s c) (ht : Shown t d)
    (h : s ++ x = t ++ y) : c = d ∧ x = y := by
  cases hs with
  | plain _ hb =>
    cases ht with
    | plain => exact List.cons.inj h
    | short => exact absurd (List.cons.inj h).1 hb
    | long => exact absurd (List.cons.inj h).1 hb
  | short hc =>
    cases ht with
    | plain _ hb => exact absurd (List.cons.inj h).1.symm hb
    | short hd =>
      obtain ⟨he, hx⟩ := List.cons.inj (List.cons.inj h).2
      exact ⟨shortEscapes_inj _ hc _ hd he, hx⟩
    | long =>
      have hu : ∀ p ∈ shortEscapes, p.1 ≠ 'u' := by decide
      exact absurd (List.cons.inj (List.cons.inj h).2).1 (hu _ hc)
  | long =>
    cases ht with
    | plain _ hb => exact absurd (List.cons.inj h).1.symm hb
    | short hd =>
      have hu : ∀ p ∈ shortEscapes, p.1 ≠ 'u' := by decide
      exact absurd (List.cons.inj (List.cons.inj h).2).1.symm (hu _ hd)
    | long => exact codePoint_append_inj h

theorem Shown.append_ne_quote {s x y : List Char} {c : Char} (hs : Shown s c) :
    s ++ x ≠ '"' :: y := by
  intro h
  cases hs with
  | plain hq => exact hq (List.cons.inj h).1
  | short => cases (List.cons.inj h).1
  | long => cases (List.cons.inj h).1

theorem flatMap_quotedChar_inj {s t x y : List Char}
    (h : s.flatMap quotedChar ++ '"' :: x = t.flatMap quotedChar ++ '"' :: y) :
    s = t ∧ x = y := by
  induction s generalizing t with
  | nil =>
    cases t with
    | nil => exact ⟨rfl, (List.cons.inj h).2⟩
    | cons d t =>
      rw [List.flatMap_cons, List.append_assoc] at h
      exact absurd h.symm (shown_quotedChar d).append_ne_quote
  | cons c s ih =>
    cases t with
    | nil =>
      rw [List.flatMap_cons, List.append_assoc] at h
      exact absurd h (shown_quotedChar c).append_ne_quote
    | cons d t =>
      rw [List.flatMap_cons, List.flatMap_cons, List.append_assoc, List.append_assoc] at h
      obtain ⟨rfl, hr⟩ := (shown_quotedChar c).append_inj (shown_quotedChar d) h
      obtain ⟨rfl, rfl⟩ := ih hr
      exact ⟨rfl, rfl⟩

theorem quotedChars_append_inj {s t x y : List Char} :
    quotedChars s ++ x = quotedChars t ++ y ↔ s = t ∧ x = y := by
  constructor
  · intro h
    simp only [quotedChars, List.cons_append, List.append_assoc, List.nil_append] at h
    exact flatMap_quotedChar_inj (List.cons.inj h).2
  · rintro ⟨rfl, rfl⟩
    rfl

theorem quoted_append_inj {s t x y : String} : quoted s ++ x = quoted t ++ y ↔ s = t ∧ x = y := by
  rw [← String.toList_inj, String.toList_append, String.toList_append, quoted, quoted,
    String.toList_ofList, String.toList_ofList, quotedChars_append_inj, String.toList_inj,
    String.toList_inj]

theorem repr_append_inj {m n : Nat} {back x y : String} {mark : Char} {rest : List Char}
    (hb : back.toList = mark :: rest) (hm : mark.isDigit = false)
    (h : m.repr ++ (back ++ x) = n.repr ++ (back ++ y)) : m = n ∧ x = y := by
  have hn (k : Nat) : mark ∉ Nat.toDigits 10 k := by
    intro hk
    rw [Nat.isDigit_of_mem_toDigits (by decide) (by decide) hk] at hm
    cases hm
  have h := congrArg String.toList h
  simp only [String.toList_append, hb, Nat.toList_repr, List.cons_append] at h
  obtain ⟨hd, hx⟩ := append_mark_inj (hn m) (hn n) h
  exact ⟨toDigits_inj (by decide) (by decide) hd, String.toList_inj.mp (List.append_cancel_left hx)⟩

end PhraseSql.Text

import PhraseSql.Text.Quoted

namespace PhraseSql.Text

def IsControl (c : Char) : Prop := c.toNat < 0x20 ∨ (0x7F ≤ c.toNat ∧ c.toNat < 0xA0)

instance (c : Char) : Decidable (IsControl c) :=
  inferInstanceAs (Decidable (_ ∨ _))

def HasNoControls (text : List Char) : Prop := ∀ c ∈ text, ¬ IsControl c

instance (text : List Char) : Decidable (HasNoControls text) :=
  List.decidableBAll (fun c => ¬ IsControl c) text

theorem hasNoControls_append_iff {front rest : List Char} :
    HasNoControls (front ++ rest) ↔ HasNoControls front ∧ HasNoControls rest := by
  simp only [HasNoControls, List.forall_mem_append]

theorem not_isControl_of_isVisible {c : Char} (h : isVisible c = true) : ¬ IsControl c := by
  rintro (hc | ⟨hl, hu⟩)
  · rw [isVisible_eq_false_of_lt hc] at h
    cases h
  · rw [isVisible_eq_false_of_delete hl (Nat.le_of_lt hu)] at h
    cases h

theorem exists_digit_of_mem_toDigits {b : Nat} (hb : 1 < b) (n : Nat) :
    ∀ c ∈ Nat.toDigits b n, ∃ d < b, c = Nat.digitChar d := by
  induction n using Nat.strongRecOn with
  | ind n ih =>
    intro c hc
    rw [Nat.toDigits_eq_if hb] at hc
    split at hc
    · rename_i hn
      exact ⟨n, hn, List.mem_singleton.mp hc⟩
    · rename_i hn
      rcases List.mem_append.mp hc with hc | hc
      · exact ih (n / b) (Nat.div_lt_self (by omega) hb) c hc
      · exact ⟨n % b, Nat.mod_lt n (by omega), List.mem_singleton.mp hc⟩

theorem not_isControl_digitChar : ∀ d < 16, ¬ IsControl (Nat.digitChar d) := by
  decide

theorem hasNoControls_toDigits (b : Nat) (hb : 1 < b) (hm : b ≤ 16) (n : Nat) :
    HasNoControls (Nat.toDigits b n) := by
  intro c hc
  obtain ⟨d, hd, rfl⟩ := exists_digit_of_mem_toDigits hb n c hc
  exact not_isControl_digitChar d (Nat.lt_of_lt_of_le hd hm)

theorem hasNoControls_codePoint (c : Char) : HasNoControls (codePoint c) := by
  have hf : HasNoControls ['\\', 'u', '\x7b'] := by decide
  have hl : HasNoControls ['\x7d'] := by decide
  have hd := hasNoControls_toDigits 16 (by decide) (by decide) c.toNat
  exact hasNoControls_append_iff.mpr ⟨hf, hasNoControls_append_iff.mpr ⟨hd, hl⟩⟩

theorem hasNoControls_quotedChar (c : Char) : HasNoControls (quotedChar c) := by
  unfold quotedChar
  iterate 6
    split
    · decide
  split
  · rename_i hv
    intro x hx
    rw [List.mem_singleton.mp hx]
    exact not_isControl_of_isVisible hv
  · exact hasNoControls_codePoint c

theorem hasNoControls_quoted (text : String) : HasNoControls (quoted text).toList := by
  have hq : HasNoControls ['"'] := by decide
  have ht : HasNoControls (text.toList.flatMap quotedChar) := by
    intro x hx
    obtain ⟨c, -, hc⟩ := List.mem_flatMap.mp hx
    exact hasNoControls_quotedChar c x hc
  rw [quoted, String.toList_ofList]
  exact hasNoControls_append_iff.mpr ⟨hq, hasNoControls_append_iff.mpr ⟨ht, hq⟩⟩

end PhraseSql.Text

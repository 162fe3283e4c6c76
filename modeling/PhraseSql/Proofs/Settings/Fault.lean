import PhraseSql.Proofs.Settings.Port

namespace PhraseSql.Settings

inductive Spoils (value : Nat) (c : Char) : PortFault → Prop where
  | stray (h : c.isDigit = false) : Spoils value c .invalidDigit
  | beyond (h : c.isDigit = true) (hv : 65535 < value * 10 + digitValue c) : Spoils value c .tooLarge

def afterPlus : List Char → List Char
  | '+' :: rest => rest
  | text => text

inductive Faulty : List Char → PortFault → Prop where
  | empty : Faulty [] .empty
  | sign {c : Char} (h : c = '+' ∨ c = '-') : Faulty [c] .invalidDigit
  | spoiled {text front back : List Char} {c : Char} {fault : PortFault}
      (h : afterPlus text = front ++ c :: back) (hd : ∀ d ∈ front, d.isDigit = true)
      (hv : decimalValue front ≤ 65535) (hs : Spoils (decimalValue front) c fault) :
      Faulty text fault

theorem readDigits_eq_error_iff {value : Nat} {text : List Char} {fault : PortFault}
    (hv : value < UInt16.size) :
    readDigits value text = .error fault ↔
      ∃ front c back, text = front ++ c :: back ∧ (∀ d ∈ front, d.isDigit = true) ∧
        front.foldl (fun value c => value * 10 + digitValue c) value < UInt16.size ∧
        Spoils (front.foldl (fun value c => value * 10 + digitValue c) value) c fault := by
  constructor
  · intro h
    fun_induction readDigits value text with
    | case1 => cases h
    | case2 value c cs hd =>
      cases h
      exact ⟨[], c, cs, rfl, by simp, hv, .stray (by simpa using hd)⟩
    | case3 value c cs hd hlt ih =>
      obtain ⟨front, x, back, rfl, hf, hb, hs⟩ := ih hlt h
      exact ⟨c :: front, x, back, rfl, List.forall_mem_cons.mpr ⟨by simpa using hd, hf⟩, hb, hs⟩
    | case4 value c cs hd hlt =>
      cases h
      exact ⟨[], c, cs, rfl, by simp, hv, .beyond (by simpa using hd) (Nat.not_lt.mp hlt)⟩
  · rintro ⟨front, c, back, rfl, hf, hb, hs⟩
    induction front generalizing value with
    | nil =>
      cases hs with
      | stray h => simp [readDigits, h]
      | beyond h hv =>
        have hn : ¬ value * 10 + digitValue c < UInt16.size := Nat.not_lt.mpr hv
        simp only [List.nil_append, readDigits, h, Bool.not_true, Bool.false_eq_true, ↓reduceIte]
        rw [if_neg hn]
    | cons d front ih =>
      obtain ⟨hd, hf⟩ := List.forall_mem_cons.mp hf
      have hl : value * 10 + digitValue d < UInt16.size :=
        Nat.lt_of_le_of_lt (le_foldl_digits _ front) hb
      simp only [List.cons_append, readDigits, hd, Bool.not_true, Bool.false_eq_true, ↓reduceIte]
      rw [if_pos hl]
      exact ih hl hf hb hs

theorem readDigits_zero_eq_error_iff {digits : List Char} {fault : PortFault} :
    readDigits 0 digits = .error fault ↔
      ∃ front c back, digits = front ++ c :: back ∧ (∀ d ∈ front, d.isDigit = true) ∧
        decimalValue front ≤ 65535 ∧ Spoils (decimalValue front) c fault := by
  have hb (n : Nat) : n < UInt16.size ↔ n ≤ 65535 := Nat.lt_succ_iff
  simp only [readDigits_eq_error_iff (by decide : 0 < UInt16.size), decimalValue_eq_foldl, hb]

theorem readPort_eq_error_iff {text : List Char} {fault : PortFault} :
    readPort text = .error fault ↔ Faulty text fault := by
  -- A lone plus sign has no digits after it, and a lone minus sign is no digit itself.
  have hs : ¬ ∃ front c back, ([] : List Char) = front ++ c :: back := by simp
  unfold readPort
  split
  · constructor
    · intro h
      cases h
      exact .empty
    · intro h
      cases h with
      | empty => rfl
      | spoiled h => exact absurd ⟨_, _, _, h⟩ hs
  · constructor
    · intro h
      cases h
      exact .sign (.inl rfl)
    · intro h
      cases h with
      | sign => rfl
      | spoiled h => exact absurd ⟨_, _, _, h⟩ hs
  · rename_i digits hn
    rw [readDigits_zero_eq_error_iff]
    constructor
    · rintro ⟨front, c, back, h, hd, hv, hs⟩
      exact .spoiled h hd hv hs
    · intro h
      cases h with
      | sign h => exact absurd rfl hn
      | spoiled h hd hv hs => exact ⟨_, _, _, h, hd, hv, hs⟩
  · rename_i hn hl hp
    have ha : afterPlus text = text := by
      unfold afterPlus
      split
      · rename_i rest
        exact absurd rfl (hp rest)
      · rfl
    rw [readDigits_zero_eq_error_iff]
    constructor
    · rintro ⟨front, c, back, h, hd, hv, hs⟩
      exact .spoiled (ha.trans h) hd hv hs
    · intro h
      cases h with
      | empty => exact absurd rfl hn
      | sign h =>
        rcases h with rfl | rfl
        · exact absurd rfl hl
        · exact ⟨[], '-', [], rfl, by simp, by decide, .stray (by decide)⟩
      | spoiled h hd hv hs => exact ⟨_, _, _, ha.symm.trans h, hd, hv, hs⟩

theorem parsePort_eq_error_iff {raw : String} {e : PortError} :
    parsePort raw = .error e ↔
      e.raw = raw ∧ ∃ core, Text.IsCore Text.isBlank core raw.toList ∧ Faulty core e.fault := by
  simp only [← Text.trim_eq_iff, exists_eq_left', ← readPort_eq_error_iff]
  unfold parsePort
  cases readPort (Text.trim raw.toList) with
  | ok port => simp
  | error fault =>
    obtain ⟨r, f⟩ := e
    simp [eq_comm]

end PhraseSql.Settings

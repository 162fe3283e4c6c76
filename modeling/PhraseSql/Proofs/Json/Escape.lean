import PhraseSql.Proofs.Json.Token

namespace PhraseSql.Json

theorem shortEscape?_eq_some_iff {b : UInt8} {c : Char} :
    shortEscape? b = some c ↔ (b, c) ∈ shortEscapes := by
  simp only [shortEscapes, List.mem_cons, Prod.mk.injEq, List.not_mem_nil, or_false]
  constructor
  · intro h
    unfold shortEscape? at h
    repeat' split at h
    all_goals cases h
    all_goals subst_vars
    all_goals decide
  · rintro (h | h | h | h | h | h | h | h) <;> obtain ⟨rfl, rfl⟩ := h <;> rfl

theorem hexDigit?_ofNat : ∀ k < 256, ∀ n ∈ hexDigit? (UInt8.ofNat k),
    n < 16 ∧ (UInt8.ofNat k = (Nat.digitChar n).toUInt8 ∨
      UInt8.ofNat k = (Nat.digitChar n).toUpper.toUInt8) := by
  decide +kernel

theorem hexDigit?_digitChar : ∀ n < 16, hexDigit? (Nat.digitChar n).toUInt8 = some n ∧
    hexDigit? (Nat.digitChar n).toUpper.toUInt8 = some n := by
  decide

theorem hexDigit?_eq_some_iff {b : UInt8} {n : Nat} : hexDigit? b = some n ↔ IsHexDigit b n := by
  constructor
  · intro h
    have hb := hexDigit?_ofNat b.toNat b.toNat_lt n
    rw [UInt8.ofNat_toNat] at hb
    exact hb h
  · rintro ⟨hn, rfl | rfl⟩
    · exact (hexDigit?_digitChar n hn).1
    · exact (hexDigit?_digitChar n hn).2

theorem readUnit_iff {bytes rest : List UInt8} {n : Nat} :
    readUnit bytes = .ok (n, rest) ↔ ∃ digits, HexUnit digits n ∧ bytes = digits ++ rest := by
  constructor
  · intro h
    unfold readUnit at h
    split at h
    · rename_i a b c d tail
      split at h
      · rename_i w x y z ha hb hc hd
        cases h
        exact ⟨[a, b, c, d], .digits (hexDigit?_eq_some_iff.mp ha) (hexDigit?_eq_some_iff.mp hb)
          (hexDigit?_eq_some_iff.mp hc) (hexDigit?_eq_some_iff.mp hd), rfl⟩
      · cases h
    · cases h
  · rintro ⟨digits, ⟨ha, hb, hc, hd⟩, rfl⟩
    simp only [readUnit, List.cons_append, List.nil_append, hexDigit?_eq_some_iff.mpr ha,
      hexDigit?_eq_some_iff.mpr hb, hexDigit?_eq_some_iff.mpr hc, hexDigit?_eq_some_iff.mpr hd]

theorem readDue_iff {due : UInt8} {bytes rest : List UInt8} :
    readDue due bytes = .ok rest ↔ bytes = due :: rest := by
  cases bytes with
  | nil => simp [readDue]
  | cons b bytes => by_cases h : b = due <;> simp [readDue, h]

theorem isHighSurrogate_iff {n : Nat} : isHighSurrogate n = true ↔ IsHighSurrogate n := by
  simp only [isHighSurrogate, IsHighSurrogate, Bool.and_eq_true, decide_eq_true_eq]
  omega

theorem isLowSurrogate_iff {n : Nat} : isLowSurrogate n = true ↔ IsLowSurrogate n := by
  simp only [isLowSurrogate, IsLowSurrogate, Bool.and_eq_true, decide_eq_true_eq]
  omega

theorem not_surrogate (c : Char) : ¬ IsHighSurrogate c.toNat ∧ ¬ IsLowSurrogate c.toNat := by
  have hv : c.val.toNat = c.toNat := rfl
  unfold IsHighSurrogate IsLowSurrogate
  rcases c.valid with h | ⟨h, -⟩ <;> omega

theorem not_low_of_high {n : Nat} (h : IsHighSurrogate n) : ¬ IsLowSurrogate n := by
  unfold IsHighSurrogate at h
  unfold IsLowSurrogate
  omega

theorem isValidChar_of_not_surrogate {n : Nat} (hn : n < 0x10000) (hh : ¬ IsHighSurrogate n)
    (hl : ¬ IsLowSurrogate n) : n.isValidChar := by
  unfold IsHighSurrogate at hh
  unfold IsLowSurrogate at hl
  rcases Nat.lt_or_ge n 0xD800 with h | h
  · exact .inl h
  · exact .inr ⟨by omega, by omega⟩

theorem HexUnit.lt {digits : List UInt8} {n : Nat} (h : HexUnit digits n) : n < 0x10000 := by
  obtain ⟨⟨hw, -⟩, ⟨hx, -⟩, ⟨hy, -⟩, ⟨hz, -⟩⟩ := h
  omega

theorem toNat_ofNat {n : Nat} (h : n.isValidChar) : (Char.ofNat n).toNat = n := by
  rw [Char.ofNat, dif_pos h]
  rfl

theorem toNat_ofSurrogates {high low : Nat} (hh : IsHighSurrogate high) (hl : IsLowSurrogate low) :
    (ofSurrogates high low).toNat = 0x10000 + (high - 0xD800) * 0x400 + (low - 0xDC00) := by
  unfold IsHighSurrogate at hh
  unfold IsLowSurrogate at hl
  exact toNat_ofNat (.inr ⟨by omega, by omega⟩)

theorem escape_of_readCodePoint {bytes rest : List UInt8} {c : Char}
    (h : readCodePoint bytes = .ok (c, rest)) :
    ∃ e, Escape (backslash :: letterU :: e) c ∧ bytes = e ++ rest := by
  rw [readCodePoint, bind_eq_ok_iff] at h
  obtain ⟨⟨unit, tail⟩, hu, h⟩ := h
  obtain ⟨digits, hd, rfl⟩ := readUnit_iff.mp hu
  dsimp only at h
  split at h
  · cases h
  · rename_i hl
    split at h
    · rename_i hh
      simp only [bind_eq_ok_iff] at h
      obtain ⟨tail₁, h₁, tail₂, h₂, ⟨low, tail₃⟩, h₃, h⟩ := h
      rw [readDue_iff] at h₁ h₂
      obtain ⟨digits', hd', rfl⟩ := readUnit_iff.mp h₃
      dsimp only at h
      split at h
      · rename_i hl'
        simp only [Except.ok.injEq, Prod.mk.injEq] at h
        obtain ⟨rfl, rfl⟩ := h
        rw [isHighSurrogate_iff] at hh
        rw [isLowSurrogate_iff] at hl'
        refine ⟨_, .pair hd hd' hh hl' (toNat_ofSurrogates hh hl'), ?_⟩
        rw [h₁, h₂]
        simp
      · cases h
    · rename_i hh
      cases h
      rw [isHighSurrogate_iff] at hh
      rw [isLowSurrogate_iff] at hl
      refine ⟨digits, .unit ?_, rfl⟩
      rwa [toNat_ofNat (isValidChar_of_not_surrogate hd.lt hh hl)]

theorem readCodePoint_append {e : List UInt8} {c : Char} (h : Escape (backslash :: letterU :: e) c)
    (rest : List UInt8) : readCodePoint (e ++ rest) = .ok (c, rest) := by
  cases h with
  | short h => simp [shortEscapes, letterU] at h
  | unit hd =>
    have hu : readUnit (e ++ rest) = .ok (c.toNat, rest) := readUnit_iff.mpr ⟨e, hd, rfl⟩
    have hn := not_surrogate c
    rw [← isHighSurrogate_iff, ← isLowSurrogate_iff] at hn
    simp [readCodePoint, bind, Except.bind, hu, hn, Char.ofNat_toNat]
  | @pair first second high low _ h h' hh hl hc =>
    have hu : readUnit (first ++ backslash :: letterU :: (second ++ rest)) =
        .ok (high, backslash :: letterU :: (second ++ rest)) := readUnit_iff.mpr ⟨first, h, rfl⟩
    have hu' : readUnit (second ++ rest) = .ok (low, rest) := readUnit_iff.mpr ⟨second, h', rfl⟩
    have hh' : ¬ isLowSurrogate high = true := fun h => not_low_of_high hh (isLowSurrogate_iff.mp h)
    have he : ofSurrogates high low = c :=
      Char.toNat_inj.mp ((toNat_ofSurrogates hh hl).trans hc.symm)
    simp [readCodePoint, bind, Except.bind, hu, hu', isHighSurrogate_iff.mpr hh, hh',
      isLowSurrogate_iff.mpr hl, readDue, he]

theorem readEscape_iff {bytes rest : List UInt8} {c : Char} :
    readEscape bytes = .ok (c, rest) ↔ ∃ e, Escape (backslash :: e) c ∧ bytes = e ++ rest := by
  constructor
  · intro h
    unfold readEscape at h
    split at h
    · cases h
    · rename_i b tail
      split at h
      · rename_i hs
        cases h
        exact ⟨[b], .short (shortEscape?_eq_some_iff.mp hs), rfl⟩
      · split at h
        · rename_i hb
          obtain ⟨e, he, rfl⟩ := escape_of_readCodePoint h
          exact ⟨letterU :: e, he, by rw [hb]; rfl⟩
        · cases h
  · rintro ⟨e, he, rfl⟩
    cases he with
    | @short b c h => simp [readEscape, shortEscape?_eq_some_iff.mpr h]
    | unit hd => exact readCodePoint_append (.unit hd) rest
    | pair h h' hh hl hc => exact readCodePoint_append (.pair h h' hh hl hc) rest

end PhraseSql.Json

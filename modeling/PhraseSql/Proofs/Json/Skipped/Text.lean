import PhraseSql.Proofs.Json.Escape

namespace PhraseSql.Json

theorem skipEscape_iff {bytes rest : List UInt8} :
    skipEscape bytes = .ok rest ↔ ∃ e, SkippedUnit (backslash :: e) ∧ bytes = e ++ rest := by
  constructor
  · intro h
    unfold skipEscape at h
    split at h
    · cases h
    · rename_i b tail
      split at h
      · rename_i hs
        obtain ⟨c, hc⟩ := Option.isSome_iff_exists.mp hs
        cases h
        exact ⟨[b], .short (shortEscape?_eq_some_iff.mp hc), rfl⟩
      · split at h
        · rename_i hb
          cases hu : readUnit tail with
          | error f => simp [hu, Except.map] at h
          | ok r =>
            obtain ⟨n, tail'⟩ := r
            simp only [hu, Except.map, Except.ok.injEq] at h
            obtain ⟨digits, hd, rfl⟩ := readUnit_iff.mp hu
            exact ⟨letterU :: digits, .unit hd, by rw [hb, h]; rfl⟩
        · cases h
  · rintro ⟨e, he, rfl⟩
    cases he with
    | plain h hq hb => exact absurd rfl hb
    | short h => simp [skipEscape, shortEscape?_eq_some_iff.mpr h]
    | @unit digits n hd =>
      have hu : readUnit (digits ++ rest) = .ok (n, rest) := readUnit_iff.mpr ⟨digits, hd, rfl⟩
      have hs : (shortEscape? letterU).isSome = false := rfl
      simp [skipEscape, hs, hu, Except.map]

theorem skippedContent_of_skipText {bytes rest : List UInt8} (h : skipText bytes = .ok rest) :
    ∃ content, SkippedContent content ∧ bytes = content ++ quote :: rest := by
  fun_induction skipText bytes with
  | case1 => cases h
  | case2 =>
    cases h
    exact ⟨[], .nil, rfl⟩
  | case3 => cases h
  | case4 tail tail' he hq ih =>
    obtain ⟨e, hu, rfl⟩ := skipEscape_iff.mp he
    obtain ⟨content, hc, rfl⟩ := ih h
    exact ⟨_, .cons hu hc, by simp⟩
  | case5 => cases h
  | case6 b tail hq hb hlt ih =>
    obtain ⟨content, hc, rfl⟩ := ih h
    exact ⟨_, .cons (.plain (UInt8.not_lt.mp hlt) hq hb) hc, rfl⟩

theorem skipText_of_skippedContent {content : List UInt8} (h : SkippedContent content)
    (rest : List UInt8) : skipText (content ++ quote :: rest) = .ok rest := by
  induction h with
  | nil => simp [skipText]
  | @cons s bytes hu hs ih =>
    rw [List.append_assoc]
    have escaped {e : List UInt8} (he : SkippedUnit (backslash :: e)) :
        skipText (backslash :: e ++ (bytes ++ quote :: rest)) = .ok rest := by
      have hk : skipEscape (e ++ (bytes ++ quote :: rest)) = .ok (bytes ++ quote :: rest) :=
        skipEscape_iff.mpr ⟨e, he, rfl⟩
      rw [List.cons_append, skipText, if_neg (by decide), if_pos rfl]
      split
      · rename_i hk'
        rw [hk] at hk'
        cases hk'
      · rename_i hk'
        rw [hk] at hk'
        cases hk'
        exact ih
    cases hu with
    | plain h hq hb =>
      rw [List.singleton_append, skipText, if_neg hq, if_neg hb, if_neg (UInt8.not_lt.mpr h), ih]
    | short h => exact escaped (.short h)
    | unit hd => exact escaped (.unit hd)

theorem skipText_iff {bytes rest : List UInt8} : skipText bytes = .ok rest ↔
    ∃ content, SkippedContent content ∧ bytes = content ++ quote :: rest := by
  constructor
  · exact skippedContent_of_skipText
  · rintro ⟨content, hc, rfl⟩
    exact skipText_of_skippedContent hc rest

end PhraseSql.Json

import PhraseSql.Proofs.Json.Grammar

namespace PhraseSql.Json

theorem isBlank_iff {b : UInt8} :
    isBlank b = true ↔ b = 0x20 ∨ b = 0x09 ∨ b = 0x0A ∨ b = 0x0D := by
  simp only [Json.isBlank, Bool.or_eq_true, decide_eq_true_eq, or_assoc]
  exact Iff.rfl

theorem Blanks.isBlank {blanks : List UInt8} (h : Blanks blanks) : ∀ b ∈ blanks, isBlank b = true :=
  fun b hb => isBlank_iff.mpr (h b hb)

theorem Blanks.nil : Blanks [] := by
  intro b hb
  cases hb

theorem Blanks.space : Blanks [0x20] := by
  intro b hb
  exact .inl (List.mem_singleton.mp hb)

theorem Blanks.append {xs ys : List UInt8} (hx : Blanks xs) (hy : Blanks ys) :
    Blanks (xs ++ ys) := by
  intro b hb
  rcases List.mem_append.mp hb with h | h
  · exact hx b h
  · exact hy b h

theorem skipBlanks_append {blanks : List UInt8} (h : Blanks blanks) (bytes : List UInt8) :
    skipBlanks (blanks ++ bytes) = skipBlanks bytes :=
  List.dropWhile_append_of_pos h.isBlank

theorem skipBlanks_cons {b : UInt8} (h : isBlank b = false) (rest : List UInt8) :
    skipBlanks (b :: rest) = b :: rest :=
  List.dropWhile_cons_of_neg (by simp [h])

theorem skipBlanks_append_cons {blanks : List UInt8} {b : UInt8} (h : Blanks blanks)
    (hb : isBlank b = false) (rest : List UInt8) :
    skipBlanks (blanks ++ b :: rest) = b :: rest := by
  rw [skipBlanks_append h, skipBlanks_cons hb]

theorem exists_blanks_of_skipBlanks {bytes rest : List UInt8} (h : skipBlanks bytes = rest) :
    ∃ blanks, Blanks blanks ∧ bytes = blanks ++ rest := by
  refine ⟨bytes.takeWhile isBlank, ?_, ?_⟩
  · intro b hb
    exact isBlank_iff.mp (List.all_eq_true.mp List.all_takeWhile b hb)
  · rw [← h, skipBlanks, List.takeWhile_append_dropWhile]

theorem blanks_of_skipBlanks_nil {bytes : List UInt8} (h : skipBlanks bytes = []) :
    Blanks bytes := by
  obtain ⟨blanks, hb, rfl⟩ := exists_blanks_of_skipBlanks h
  rwa [List.append_nil]

theorem readColon_iff {bytes rest : List UInt8} :
    readColon bytes = .ok rest ↔ ∃ blanks, Blanks blanks ∧ bytes = blanks ++ colon :: rest := by
  constructor
  · intro h
    unfold readColon at h
    split at h
    · cases h
    · rename_i b tail hs
      split at h
      · rename_i hb
        cases h
        subst hb
        exact exists_blanks_of_skipBlanks hs
      · cases h
  · rintro ⟨blanks, hb, rfl⟩
    simp only [readColon, skipBlanks_append_cons hb (b := colon) (by decide), if_pos]

theorem readWord_iff {word bytes rest : List UInt8} :
    readWord word bytes = .ok rest ↔ bytes = word ++ rest := by
  fun_induction readWord word bytes with
  | case1 bytes => simp
  | case2 => simp
  | case3 w word rest ih => simpa using ih
  | case4 w word b rest' hb =>
    simp only [reduceCtorEq, List.cons_append, List.cons.injEq, false_iff, not_and]
    exact fun h => absurd h hb

theorem mem_words_of_word? {b : UInt8} {word : List UInt8} {found : Found}
    (h : word? b = some (word, found)) : b :: word ∈ words := by
  unfold word? at h
  split at h
  · rename_i hb
    cases h
    rw [hb]
    decide
  · split at h
    · rename_i hb
      cases h
      rw [hb]
      decide
    · split at h
      · rename_i hb
        cases h
        rw [hb]
        decide
      · cases h

theorem exists_word?_of_mem_words {token : List UInt8} (h : token ∈ words) :
    ∃ b word found, token = b :: word ∧ word? b = some (word, found) := by
  simp only [words, List.mem_cons, List.not_mem_nil, or_false] at h
  rcases h with rfl | rfl | rfl
  · exact ⟨0x6E, [0x75, 0x6C, 0x6C], .null, by decide, rfl⟩
  · exact ⟨0x74, [0x72, 0x75, 0x65], .boolean true, by decide, rfl⟩
  · exact ⟨0x66, [0x61, 0x6C, 0x73, 0x65], .boolean false, by decide, rfl⟩

end PhraseSql.Json

import PhraseSql.Proofs.Json.Elements
import PhraseSql.Proofs.Json.Slots

namespace PhraseSql.Json

theorem readName_none_iff {first : Bool} {bytes rest : List UInt8} :
    readName first bytes = .ok (none, rest) ↔
      ∃ blanks, Blanks blanks ∧ bytes = blanks ++ closeBrace :: rest := by
  constructor
  · intro h
    simp only [readName, bind, Except.bind] at h
    split at h
    · cases h
    · rename_i b tail hs
      split at h
      · rename_i hb
        cases h
        subst hb
        exact exists_blanks_of_skipBlanks hs
      · repeat' split at h
        all_goals cases h
  · rintro ⟨blanks, hb, rfl⟩
    simp only [readName, skipBlanks_append_cons hb (b := closeBrace) rfl, if_pos]

theorem lead_of_readName {first : Bool} {bytes rest : List UInt8} {name : String}
    (h : readName first bytes = .ok (some name, rest)) :
    ∃ lead token, Lead first lead ∧ TextLiteral token name ∧ bytes = lead ++ (token ++ rest) := by
  unfold readName at h
  split at h
  · cases h
  · rename_i b tail hs
    obtain ⟨before, hb, rfl⟩ := exists_blanks_of_skipBlanks hs
    split at h
    · cases h
    · split at h
      · rename_i hf
        subst hf
        split at h
        · rename_i hq
          rw [bind_eq_ok_iff] at h
          obtain ⟨r, hr, h⟩ := h
          cases h
          obtain ⟨token, ht, he⟩ := readText_token_iff.mp hr
          exact ⟨before, token, .first hb, ht, by rw [hq, he]⟩
        · cases h
      · rename_i hf
        rw [Bool.not_eq_true] at hf
        subst hf
        split at h
        · rename_i hc
          subst hc
          split at h
          · cases h
          · rename_i c tail' hs'
            obtain ⟨after, ha, rfl⟩ := exists_blanks_of_skipBlanks hs'
            split at h
            · rename_i hq
              rw [bind_eq_ok_iff] at h
              obtain ⟨r, hr, h⟩ := h
              cases h
              obtain ⟨token, ht, he⟩ := readText_token_iff.mp hr
              exact ⟨before ++ comma :: after, token, .later hb ha, ht, by simp [hq, he]⟩
            · cases h
        · cases h

theorem readName_append {first : Bool} {lead token : List UInt8} {name : String}
    (hl : Lead first lead) (ht : TextLiteral token name) (rest : List UInt8) :
    readName first (lead ++ (token ++ rest)) = .ok (some name, rest) := by
  obtain ⟨content, rfl, hc⟩ := ht
  have hr : readText (content ++ [quote] ++ rest) = .ok (name, rest) :=
    readText_iff.mpr ⟨content, hc, by simp⟩
  have hn : quote ≠ closeBrace := by decide
  cases hl with
  | first h =>
    have hs := skipBlanks_append_cons h (b := quote) rfl (content ++ [quote] ++ rest)
    simp only [readName, List.cons_append, hs, if_neg hn, if_pos, hr, bind, Except.bind]
  | @later before after hb ha =>
    have hs := skipBlanks_append_cons hb (b := comma) rfl
      (after ++ quote :: (content ++ [quote] ++ rest))
    have hs' := skipBlanks_append_cons ha (b := quote) rfl (content ++ [quote] ++ rest)
    have hm : comma ≠ closeBrace := by decide
    rw [List.append_assoc]
    simp only [readName, List.cons_append, hs, if_neg hm, Bool.false_eq_true, if_false, if_pos,
      hs', hr, bind, Except.bind]

theorem takes_of_readMember {name : String} {fields : List Field} {slots slots' : Slots fields}
    {bytes rest : List UInt8} (h : slots.readMember name bytes = .ok (slots', rest)) :
    ∃ before after value, Blanks before ∧ Blanks after ∧
      Slots.Takes name value fields slots slots' ∧
      bytes = before ++ colon :: (after ++ (value ++ rest)) := by
  induction fields generalizing rest with
  | nil =>
    simp only [Slots.readMember, bind_eq_ok_iff] at h
    obtain ⟨bytes', hc, rest', hv, h⟩ := h
    cases h
    obtain ⟨before, hb, rfl⟩ := readColon_iff.mp hc
    obtain ⟨after, value, ha, hs, rfl⟩ := skippedValue_of_skipValue hv
    exact ⟨before, after, value, hb, ha, hs, rfl⟩
  | cons f fs ih =>
    obtain ⟨slot, slots⟩ := slots
    unfold Slots.readMember at h
    split at h
    · rename_i hf
      split at h
      · cases h
      · simp only [bind_eq_ok_iff] at h
        obtain ⟨bytes', hc, r, hk, h⟩ := h
        cases h
        obtain ⟨before, hb, rfl⟩ := readColon_iff.mp hc
        obtain ⟨after, value, ha, hd, rfl⟩ := denotes_of_read hk
        exact ⟨before, after, value, hb, ha, .inl ⟨hf, rfl, ⟨r.1, rfl, hd⟩, rfl⟩, rfl⟩
    · rename_i hf
      rw [bind_eq_ok_iff] at h
      obtain ⟨r, hm, h⟩ := h
      cases h
      obtain ⟨before, after, value, hb, ha, ht, rfl⟩ := ih hm
      exact ⟨before, after, value, hb, ha, .inr ⟨hf, rfl, ht⟩, rfl⟩

theorem readMember_append {name : String} {fields : List Field} {slots slots' : Slots fields}
    {before after value rest : List UInt8} (hb : Blanks before) (ha : Blanks after)
    (h : Slots.Takes name value fields slots slots') (hr : EndsNumber rest) :
    slots.readMember name (before ++ colon :: (after ++ (value ++ rest))) = .ok (slots', rest) := by
  have hc : readColon (before ++ colon :: (after ++ (value ++ rest))) =
      .ok (after ++ (value ++ rest)) := readColon_iff.mpr ⟨before, hb, rfl⟩
  induction fields with
  | nil => simp only [Slots.readMember, hc, skipValue_append ha h hr, bind, Except.bind]
  | cons f fs ih =>
    obtain ⟨slot, slots⟩ := slots
    obtain ⟨slot', slots'⟩ := slots'
    rcases h with ⟨hf, rfl, ⟨x, rfl, hd⟩, rfl⟩ | ⟨hf, rfl, ht⟩
    · simp only [Slots.readMember, if_pos hf, hc, read_append ha hd hr, bind, Except.bind]
    · simp only [Slots.readMember, if_neg hf, ih ht, bind, Except.bind]

theorem endsNumber_of_membersText {text : List UInt8} {ms : List Member}
    (h : MembersText false text ms) (more : List UInt8) : EndsNumber (text ++ more) := by
  cases h with
  | close h =>
    rw [List.append_assoc]
    exact endsNumber_blanks_append h (endsNumber_cons rfl (by decide) rfl _)
  | member hl hm hr =>
    cases hl with
    | later hb ha =>
      simp only [List.append_assoc, List.cons_append]
      exact endsNumber_blanks_append hb (endsNumber_cons rfl (by decide) rfl _)

theorem SkipsOthers.nil {fields : List Field} : SkipsOthers fields [] := by
  intro m hm
  cases hm

theorem SkipsOthers.field {fields : List Field} {f : Field} {m : Member} {ms : List Member}
    (hf : f ∈ fields) (hn : m.name = f.name) (h : SkipsOthers fields ms) :
    SkipsOthers fields (m :: ms) :=
  List.forall_mem_cons.mpr ⟨fun hne => absurd hn (hne f hf), h⟩

theorem SkipsOthers.other {fields : List Field} {m : Member} {ms : List Member}
    (hv : SkippedValue m.value) (h : SkipsOthers fields ms) : SkipsOthers fields (m :: ms) :=
  List.forall_mem_cons.mpr ⟨fun _ => hv, h⟩

theorem membersText_of_readMembers {fields : List Field} {slots : Slots fields} {first : Bool}
    {bytes rest : List UInt8} {row : Row fields} (hd : (fields.map Field.name).Nodup)
    (h : readMembers slots first bytes = .ok (row, rest)) :
    ∃ text ms, MembersText first text ms ∧ Slots.Completes ms fields slots row ∧
      SkipsOthers fields ms ∧ bytes = text ++ rest := by
  fun_induction readMembers slots first bytes with
  | case1 => cases h
  | case2 slots first bytes rest' hn row' hc =>
    cases h
    obtain ⟨blanks, hb, rfl⟩ := readName_none_iff.mp hn
    exact ⟨blanks ++ [closeBrace], [], .close hb, complete_eq_ok_iff.mp hc, .nil, by simp⟩
  | case3 => cases h
  | case4 => cases h
  | case5 slots first bytes name rest' hn slots' rest'' hm ih =>
    obtain ⟨lead, token, hl, ht, rfl⟩ := lead_of_readName hn
    obtain ⟨before, after, value, hb, ha, hk, rfl⟩ := takes_of_readMember hm
    -- the slots that this member leaves are completed by the members after it
    obtain ⟨text, ms, hx, hc, hs, rfl⟩ := ih h
    refine ⟨_, ⟨name, value⟩ :: ms, .member hl (.named ht hb ha) hx,
      completes_of_takes hd hk hc, ?_, by simp⟩
    exact List.forall_mem_cons.mpr ⟨skippedValue_of_takes hk, hs⟩

theorem readMembers_append {fields : List Field} {slots : Slots fields} {first : Bool}
    {text : List UInt8} {ms : List Member} {row : Row fields} (hd : (fields.map Field.name).Nodup)
    (h : MembersText first text ms) (hc : Slots.Completes ms fields slots row)
    (hs : SkipsOthers fields ms) (rest : List UInt8) :
    readMembers slots first (text ++ rest) = .ok (row, rest) := by
  induction h generalizing slots with
  | @close first blanks h =>
    have hn : readName first (blanks ++ [closeBrace] ++ rest) = .ok (none, rest) :=
      readName_none_iff.mpr ⟨blanks, h, by simp⟩
    rw [readMembers, hn]
    simp only [complete_eq_ok_iff.mpr hc]
  | @member first lead text more m ms hl hm hr ih =>
    cases hm with
    | @named token before after value name ht hb ha =>
      obtain ⟨hv, hs⟩ := List.forall_mem_cons.mp hs
      obtain ⟨slots', hk, hc'⟩ := takes_of_completes hd hc hv
      have hn := readName_append hl ht (before ++ colon :: (after ++ (value ++ (more ++ rest))))
      have hv' := readMember_append hb ha hk (endsNumber_of_membersText hr rest)
      simp only [List.append_assoc, List.cons_append]
      rw [readMembers, hn]
      dsimp only
      rw [hv']
      exact ih hc' hs

end PhraseSql.Json

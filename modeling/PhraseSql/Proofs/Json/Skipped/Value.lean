import PhraseSql.Proofs.Json.Skipped.Item

namespace PhraseSql.Json

theorem derives_of_skipScalar {b : UInt8} {tail rest : List UInt8}
    (h : skipScalar b tail = .ok rest) :
    ∃ value, Derives .value value ∧ b :: tail = value ++ rest := by
  unfold skipScalar at h
  split at h
  · rename_i word found hw
    exact ⟨b :: word, .word (mem_words_of_word? hw), by rw [readWord_iff.mp h]; rfl⟩
  · split at h
    · obtain ⟨token, ht, hb⟩ := numberLiteral_of_skipNumeral h
      exact ⟨token, .number ht, hb⟩
    · split at h
      · rename_i hq
        obtain ⟨content, hc, rfl⟩ := skipText_iff.mp h
        exact ⟨_, .text ⟨content, rfl, hc⟩, by simp [hq]⟩
      · cases h

def Closes : List Bracket → List UInt8 → Prop
  | [], text => text = []
  | bracket :: outer, text =>
    ∃ rest more, Derives (.rest bracket) rest ∧ Closes outer more ∧ text = rest ++ more

def Due.Leaves (outer : List Bracket) : Due → List UInt8 → Prop
  | .value, text => ∃ blanks value more, Blanks blanks ∧ Derives .value value ∧ Closes outer more ∧
      text = blanks ++ (value ++ more)
  | .next, text => Closes outer text

theorem leaves_of_skipValueStep {outer : List Bracket} {bytes text rest : List UInt8}
    {s : Skipping} (h : skipValueStep outer bytes = .ok s) (hs : s.due.Leaves s.outer text)
    (hr : s.rest = text ++ rest) :
    ∃ text', Due.value.Leaves outer text' ∧ bytes = text' ++ rest := by
  unfold skipValueStep at h
  split at h
  · cases h
  · rename_i b tail hb
    obtain ⟨blanks, hbl, rfl⟩ := exists_blanks_of_skipBlanks hb
    split at h
    · rw [bind_eq_ok_iff] at h
      obtain ⟨tail', ht, h⟩ := h
      cases h
      obtain ⟨value, hv, hbt⟩ := derives_of_skipScalar ht
      dsimp only at hr
      refine ⟨_, ⟨blanks, value, text, hbl, hv, hs, rfl⟩, ?_⟩
      rw [hbt, hr]
      simp
    · rename_i bracket ho
      rw [opening?_iff] at ho
      split at h
      · cases h
      · rename_i c tail' hc
        obtain ⟨inner, hin, rfl⟩ := exists_blanks_of_skipBlanks hc
        split at h
        · rename_i hcl
          cases h
          dsimp only at hr
          have he : Derives .value (bracket.opening :: (inner ++ [bracket.closing])) := .empty hin
          refine ⟨_, ⟨blanks, _, text, hbl, he, hs, rfl⟩, ?_⟩
          rw [ho, hcl, hr]
          simp
        · rw [bind_eq_ok_iff] at h
          obtain ⟨tail'', hi, h⟩ := h
          cases h
          obtain ⟨head, hh, hct⟩ := itemHead_of_skipToItem hi
          obtain ⟨blanks', value, more, hb', hv, ⟨rest', more', hd, hm, rfl⟩, rfl⟩ := hs
          dsimp only at hr
          have hi' := Derives.items ((hh.append hb').prepend hin) hv hd
          refine ⟨_, ⟨blanks, _, more', hbl, hi', hm, rfl⟩, ?_⟩
          rw [ho, hct, hr]
          simp

theorem leaves_of_skipNextStep {bracket : Bracket} {outer : List Bracket}
    {bytes text rest : List UInt8} {s : Skipping} (h : skipNextStep bracket outer bytes = .ok s)
    (hs : s.due.Leaves s.outer text) (hr : s.rest = text ++ rest) :
    ∃ text', Due.next.Leaves (bracket :: outer) text' ∧ bytes = text' ++ rest := by
  unfold skipNextStep at h
  split at h
  · cases h
  · rename_i b tail hb
    obtain ⟨blanks, hbl, rfl⟩ := exists_blanks_of_skipBlanks hb
    split at h
    · rename_i hc
      rw [bind_eq_ok_iff] at h
      obtain ⟨tail', hi, h⟩ := h
      cases h
      obtain ⟨head, hh, rfl⟩ := itemHead_of_skipToItem hi
      obtain ⟨blanks', value, more, hb', hv, ⟨rest', more', hd, hm, rfl⟩, rfl⟩ := hs
      dsimp only at hr
      refine ⟨_, ⟨_, more', .next hbl (hh.append hb') hv hd, hm, rfl⟩, ?_⟩
      rw [hc, hr]
      simp
    · split at h
      · rename_i hcl
        cases h
        dsimp only at hr
        have hc : Derives (.rest bracket) (blanks ++ [bracket.closing]) := .close hbl
        refine ⟨_, ⟨_, text, hc, hs, rfl⟩, ?_⟩
        rw [hcl, hr]
        simp
      · cases h

theorem leaves_of_finish {s : Skipping} {rest : List UInt8} (h : s.finish = .ok rest) :
    ∃ text, s.due.Leaves s.outer text ∧ s.rest = text ++ rest := by
  -- a step takes some bytes off the front, and the run after it says what they are part of
  fun_induction Skipping.finish s with
  | case1 => cases h
  | case2 outer bytes s hs ih =>
    obtain ⟨text, hl, hr⟩ := ih h
    exact leaves_of_skipValueStep hs hl hr
  | case3 =>
    cases h
    exact ⟨[], rfl, rfl⟩
  | case4 => cases h
  | case5 bracket outer bytes s hs ih =>
    obtain ⟨text, hl, hr⟩ := ih h
    exact leaves_of_skipNextStep hs hl hr

theorem skippedValue_of_skipValue {bytes rest : List UInt8} (h : skipValue bytes = .ok rest) :
    ∃ blanks value, Blanks blanks ∧ SkippedValue value ∧ bytes = blanks ++ (value ++ rest) := by
  obtain ⟨text, ⟨blanks, value, more, hb, hv, rfl, rfl⟩, hr⟩ := leaves_of_finish h
  exact ⟨blanks, value, hb, hv, by simpa using hr⟩

section Steps

variable {outer : List Bracket} {blanks : List UInt8} (hb : Blanks blanks)
include hb

theorem skipValueStep_scalar {b : UInt8} {tail rest : List UInt8} (hbl : isBlank b = false)
    (ho : Bracket.opening? b = none) (hs : skipScalar b tail = .ok rest) :
    skipValueStep outer (blanks ++ b :: tail) = .ok ⟨.next, outer, rest⟩ := by
  simp [skipValueStep, skipBlanks_append_cons hb hbl, ho, hs, bind, Except.bind]

theorem skipValueStep_empty {bracket : Bracket} {inner : List UInt8} (hi : Blanks inner)
    (rest : List UInt8) :
    skipValueStep outer (blanks ++ bracket.opening :: (inner ++ bracket.closing :: rest)) =
      .ok ⟨.next, outer, rest⟩ := by
  simp [skipValueStep, skipBlanks_append_cons hb (isBlank_opening bracket), opening?_iff.mpr rfl,
    skipBlanks_append_cons hi (isBlank_closing bracket)]

theorem skipValueStep_items {bracket : Bracket} {head : List UInt8} {b : UInt8}
    (hh : ItemHead bracket head) (hbl : isBlank b = false) (hc : b ≠ bracket.closing)
    (rest : List UInt8) :
    ∃ inner, Blanks inner ∧
      skipValueStep outer (blanks ++ bracket.opening :: (head ++ b :: rest)) =
        .ok ⟨.value, bracket :: outer, inner ++ b :: rest⟩ := by
  obtain ⟨c, tail, inner, hs, hne, hi, ht⟩ := skipToItem_skipBlanks hh hbl hc rest
  refine ⟨inner, hi, ?_⟩
  simp [skipValueStep, skipBlanks_append_cons hb (isBlank_opening bracket), opening?_iff.mpr rfl,
    hs, hne, ht, bind, Except.bind]

theorem skipNextStep_close (bracket : Bracket) (rest : List UInt8) :
    skipNextStep bracket outer (blanks ++ bracket.closing :: rest) = .ok ⟨.next, outer, rest⟩ := by
  have hc : bracket.closing ≠ comma := by cases bracket <;> decide
  simp [skipNextStep, skipBlanks_append_cons hb (isBlank_closing bracket), hc]

theorem skipNextStep_next {bracket : Bracket} {head : List UInt8} (hh : ItemHead bracket head)
    (rest : List UInt8) :
    ∃ inner, Blanks inner ∧ skipNextStep bracket outer (blanks ++ comma :: (head ++ rest)) =
      .ok ⟨.value, bracket :: outer, inner ++ rest⟩ := by
  obtain ⟨inner, hi, hs⟩ := skipToItem_append hh rest
  refine ⟨inner, hi, ?_⟩
  simp [skipNextStep, skipBlanks_append_cons hb (b := comma) (by decide), hs, bind, Except.bind]

end Steps

theorem finish_value {outer : List Bracket} {bytes : List UInt8} {s : Skipping}
    (h : skipValueStep outer bytes = .ok s) :
    Skipping.finish ⟨.value, outer, bytes⟩ = s.finish := by
  rw [Skipping.finish]
  split
  · rename_i h'
    rw [h] at h'
    cases h'
  · rename_i h'
    rw [h] at h'
    cases h'
    rfl

theorem finish_next {bracket : Bracket} {outer : List Bracket} {bytes : List UInt8} {s : Skipping}
    (h : skipNextStep bracket outer bytes = .ok s) :
    Skipping.finish ⟨.next, bracket :: outer, bytes⟩ = s.finish := by
  rw [Skipping.finish]
  split
  · rename_i h'
    rw [h] at h'
    cases h'
  · rename_i h'
    rw [h] at h'
    cases h'
    rfl

def Part.IsSkipped (text : List UInt8) : Part → Prop
  | .value => ∀ outer blanks rest, Blanks blanks → EndsNumber rest →
      Skipping.finish ⟨.value, outer, blanks ++ (text ++ rest)⟩ = Skipping.finish ⟨.next, outer, rest⟩
  | .rest bracket => ∀ outer rest,
      Skipping.finish ⟨.next, bracket :: outer, text ++ rest⟩ = Skipping.finish ⟨.next, outer, rest⟩

theorem isSkipped_of_derives {part : Part} {text : List UInt8} (h : Derives part text) :
    part.IsSkipped text := by
  induction h with
  | @word token h =>
    intro outer blanks rest hb hr
    obtain ⟨b, word, found, rfl, hw⟩ := exists_word?_of_mem_words h
    refine finish_value (skipValueStep_scalar hb ?_ ?_ ?_)
    · rcases first_of_word? hw with rfl | rfl | rfl <;> rfl
    · rcases first_of_word? hw with rfl | rfl | rfl <;> rfl
    · simp [skipScalar, hw, readWord_iff]
  | @number token h =>
    intro outer blanks rest hb hr
    obtain ⟨b, tail, rfl, hn⟩ := startsNumeral_of_numberLiteral h
    refine finish_value (skipValueStep_scalar hb (isBlank_of_startsNumeral hn)
      (opening?_of_startsNumeral hn) ?_)
    simpa [skipScalar, word?_of_startsNumeral hn, hn] using skipNumeral_append h hr
  | @text token h =>
    intro outer blanks rest hb hr
    obtain ⟨content, rfl, hc⟩ := h
    refine finish_value (skipValueStep_scalar hb rfl rfl ?_)
    have hw : word? quote = none := rfl
    have hn : startsNumeral quote = false := rfl
    simpa [skipScalar, hw, hn] using skipText_iff.mpr ⟨content, hc, rfl⟩
  | @empty bracket inner h =>
    intro outer blanks rest hb hr
    simpa using finish_value (skipValueStep_empty hb h rest)
  | @items bracket head value more hh hv hm ihv ihm =>
    intro outer blanks rest hb hr
    obtain ⟨b, tail, rfl, hbl, hc⟩ := head_of_derives hv
    obtain ⟨inner, hi, hs⟩ :=
      @skipValueStep_items outer blanks hb bracket head b hh hbl (hc bracket) (tail ++ (more ++ rest))
    calc Skipping.finish ⟨.value, outer,
          blanks ++ (bracket.opening :: (head ++ (b :: tail ++ more)) ++ rest)⟩
        = Skipping.finish ⟨.value, bracket :: outer, inner ++ (b :: tail ++ (more ++ rest))⟩ := by
          simpa using finish_value hs
      _ = Skipping.finish ⟨.next, bracket :: outer, more ++ rest⟩ :=
          ihv _ _ _ hi (endsNumber_of_derives hm rest)
      _ = Skipping.finish ⟨.next, outer, rest⟩ := ihm _ _
  | @close bracket blanks h =>
    intro outer rest
    simpa using finish_next (skipNextStep_close h bracket rest)
  | @next bracket blanks head value more h hh hv hm ihv ihm =>
    intro outer rest
    obtain ⟨inner, hi, hs⟩ := @skipNextStep_next outer blanks h bracket head hh (value ++ (more ++ rest))
    calc Skipping.finish ⟨.next, bracket :: outer,
          blanks ++ comma :: (head ++ (value ++ more)) ++ rest⟩
        = Skipping.finish ⟨.value, bracket :: outer, inner ++ (value ++ (more ++ rest))⟩ := by
          simpa using finish_next hs
      _ = Skipping.finish ⟨.next, bracket :: outer, more ++ rest⟩ :=
          ihv _ _ _ hi (endsNumber_of_derives hm rest)
      _ = Skipping.finish ⟨.next, outer, rest⟩ := ihm _ _

theorem skipValue_append {blanks value rest : List UInt8} (hb : Blanks blanks)
    (hv : SkippedValue value) (hr : EndsNumber rest) :
    skipValue (blanks ++ (value ++ rest)) = .ok rest := by
  rw [skipValue, isSkipped_of_derives hv [] blanks rest hb hr, Skipping.finish]

end PhraseSql.Json

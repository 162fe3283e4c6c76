import Mathlib.Data.List.Nodup
import PhraseSql.Proofs.Json.Document
import PhraseSql.Proofs.Json.Shown

namespace PhraseSql.Json

def IsKnown (fields : List Field) (m : Member) : Prop := ∃ f ∈ fields, f.name = m.name

instance (fields : List Field) : DecidablePred (IsKnown fields) :=
  fun m => inferInstanceAs (Decidable (∃ f ∈ fields, f.name = m.name))

/-- What is wrong with a member after those seen before. Its name is looked at before its value. -/
inductive Member.Spoils (fields : List Field) (seen : List Member) (m : Member) : Cause → Prop where
  | duplicate {f : Field} (hf : f ∈ fields) (hn : f.name = m.name)
      (hs : ∃ n ∈ seen, n.name = f.name) : Spoils fields seen m (.duplicateField f.name)
  | mismatch {f : Field} {found : Found} (hf : f ∈ fields) (hn : f.name = m.name)
      (hs : ∀ n ∈ seen, n.name ≠ f.name) (hv : Shows m.value found)
      (hk : found.kind? ≠ some f.kind) :
      Spoils fields seen m (.invalidType found f.kind.expected)
  | outOfRange {f : Field} (hf : f ∈ fields) (hn : f.name = m.name)
      (hs : ∀ n ∈ seen, n.name ≠ f.name) (hv : OutOfRange m.value) :
      Spoils fields seen m .numberOutOfRange

def Unspoiled (fields : List Field) (ms : List Member) : Prop :=
  ∀ before m after cause, ms = before ++ m :: after → ¬ m.Spoils fields before cause

inductive Outcome (fields : List Field) (ms : List Member) : Except Cause (Row fields) → Prop where
  | spoiled {before after : List Member} {m : Member} {cause : Cause}
      (h : ms = before ++ m :: after) (hb : Unspoiled fields before)
      (hs : m.Spoils fields before cause) : Outcome fields ms (.error cause)
  | missing {front back : List Field} {f : Field} (hu : Unspoiled fields ms)
      (h : fields = front ++ f :: back) (hf : ∀ g ∈ front, ∃ m ∈ ms, m.name = g.name)
      (hm : ∀ m ∈ ms, m.name ≠ f.name) : Outcome fields ms (.error (.missingField f.name))
  | complete {row : Row fields} (hu : Unspoiled fields ms) (h : Row.Occurs ms fields row) :
      Outcome fields ms (.ok row)

structure WellFormed (fields : List Field) (ms : List Member) : Prop where
  known : ∀ m ∈ ms, IsKnown fields m → KnownValue m.value
  others : SkipsOthers fields ms

def Slots.MarkedBy (seen : List Member) : (fields : List Field) → Slots fields → Prop
  | [], _ => True
  | f :: fs, (slot, slots) => (slot = none ↔ ∀ m ∈ seen, m.name ≠ f.name) ∧ MarkedBy seen fs slots

theorem markedBy_empty (fields : List Field) : Slots.MarkedBy [] fields (.empty fields) := by
  induction fields with
  | nil => exact trivial
  | cons f fs ih => exact ⟨by simp, ih⟩

theorem markedBy_concat_of_ne {seen : List Member} {m : Member} {fields : List Field}
    {slots : Slots fields} (hn : ∀ f ∈ fields, f.name ≠ m.name)
    (h : Slots.MarkedBy seen fields slots) : Slots.MarkedBy (seen ++ [m]) fields slots := by
  induction fields with
  | nil => exact trivial
  | cons f fs ih =>
    obtain ⟨hf, hfs⟩ := List.forall_mem_cons.mp hn
    obtain ⟨hs, h⟩ := h
    refine ⟨?_, ih hfs h⟩
    rw [hs, List.forall_mem_append, List.forall_mem_singleton, and_iff_left hf.symm]

theorem markedBy_of_takes {seen : List Member} {name : String} {value : List UInt8}
    {fields : List Field} {slots slots' : Slots fields} (hd : (fields.map Field.name).Nodup)
    (h : Slots.Takes name value fields slots slots') (hm : Slots.MarkedBy seen fields slots) :
    Slots.MarkedBy (seen ++ [⟨name, value⟩]) fields slots' := by
  induction fields with
  | nil => exact trivial
  | cons f fs ih =>
    obtain ⟨hn, hd⟩ := List.nodup_cons.mp hd
    obtain ⟨hs, hm⟩ := hm
    obtain ⟨slot, slots⟩ := slots
    obtain ⟨slot', slots'⟩ := slots'
    rcases h with ⟨rfl, -, ⟨x, rfl, -⟩, rfl⟩ | ⟨hf, rfl, ht⟩
    · refine ⟨?_, markedBy_concat_of_ne (name_ne_of_not_mem hn) hm⟩
      simp only [reduceCtorEq, false_iff]
      intro h
      exact h ⟨f.name, value⟩ (by simp) rfl
    · refine ⟨?_, ih hd ht hm⟩
      rw [hs, List.forall_mem_append, List.forall_mem_singleton, and_iff_left hf.symm]

section

variable {fields : List Field} {seen : List Member} {m : Member} {cause cause' : Cause}

theorem eq_of_name_eq {f g : Field} (hd : (fields.map Field.name).Nodup) (hf : f ∈ fields)
    (hg : g ∈ fields) (h : f.name = g.name) : f = g :=
  List.inj_on_of_nodup_map hd hf hg h

theorem Member.Spoils.tail {f : Field} (hf : f.name ≠ m.name)
    (h : m.Spoils (f :: fields) seen cause) : m.Spoils fields seen cause := by
  have ht {g : Field} (hg : g ∈ f :: fields) (hn : g.name = m.name) : g ∈ fields := by
    rcases List.mem_cons.mp hg with rfl | hg
    · exact absurd hn hf
    · exact hg
  cases h with
  | duplicate hg hn hs => exact .duplicate (ht hg hn) hn hs
  | mismatch hg hn hs hv hk => exact .mismatch (ht hg hn) hn hs hv hk
  | outOfRange hg hn hs hv => exact .outOfRange (ht hg hn) hn hs hv

theorem Member.Spoils.cons (f : Field) (h : m.Spoils fields seen cause) :
    m.Spoils (f :: fields) seen cause := by
  cases h with
  | duplicate hg hn hs => exact .duplicate (List.mem_cons_of_mem f hg) hn hs
  | mismatch hg hn hs hv hk => exact .mismatch (List.mem_cons_of_mem f hg) hn hs hv hk
  | outOfRange hg hn hs hv => exact .outOfRange (List.mem_cons_of_mem f hg) hn hs hv

theorem readMember_of_spoils {slots : Slots fields} {before after rest : List UInt8}
    (hd : (fields.map Field.name).Nodup) (hm : Slots.MarkedBy seen fields slots)
    (hs : m.Spoils fields seen cause) (hb : Blanks before) (ha : Blanks after)
    (hr : EndsNumber rest) :
    ∃ left, slots.readMember m.name (before ++ colon :: (after ++ (m.value ++ rest))) =
      .error ⟨cause, left⟩ := by
  have hc : readColon (before ++ colon :: (after ++ (m.value ++ rest))) =
      .ok (after ++ (m.value ++ rest)) := readColon_iff.mpr ⟨before, hb, rfl⟩
  induction fields with
  | nil => cases hs <;> contradiction
  | cons f fs ih =>
    obtain ⟨slot, slots⟩ := slots
    obtain ⟨hf, hm⟩ := hm
    by_cases hn : f.name = m.name
    · -- no other field has the name of the member
      have he {g : Field} (hg : g ∈ f :: fs) (hgn : g.name = m.name) : g = f :=
        eq_of_name_eq hd hg List.mem_cons_self (hgn.trans hn.symm)
      simp only [Slots.readMember, if_pos hn]
      cases hs with
      | duplicate hg hgn hs =>
        cases slot with
        | none =>
          obtain ⟨n, hns, hne⟩ := hs
          rw [he hg hgn] at hne
          exact absurd hne (hf.mp rfl n hns)
        | some x =>
          rw [hgn]
          exact ⟨_, rfl⟩
      | mismatch hg hgn hs hv hk =>
        obtain rfl := he hg hgn
        obtain ⟨left, hl⟩ := read_mismatch hv hk ha hr
        rw [hf.mpr hs]
        simp only [hc, hl, bind, Except.bind]
        exact ⟨left, rfl⟩
      | outOfRange hg hgn hs hv =>
        obtain ⟨left, hl⟩ := read_outOfRange f.kind hv ha hr
        rw [hf.mpr (he hg hgn ▸ hs)]
        simp only [hc, hl, bind, Except.bind]
        exact ⟨left, rfl⟩
    · obtain ⟨left, hl⟩ := ih (List.nodup_cons.mp hd).2 hm (hs.tail hn)
      simp only [Slots.readMember, if_neg hn, hl, bind, Except.bind]
      exact ⟨left, rfl⟩

theorem takes_of_not_spoils {slots : Slots fields} (hm : Slots.MarkedBy seen fields slots)
    (hk : IsKnown fields m → KnownValue m.value)
    (ho : (∀ f ∈ fields, m.name ≠ f.name) → SkippedValue m.value)
    (hs : ∀ cause, ¬ m.Spoils fields seen cause) :
    ∃ slots', Slots.Takes m.name m.value fields slots slots' := by
  induction fields with
  | nil => exact ⟨(), ho (by simp)⟩
  | cons f fs ih =>
    obtain ⟨slot, slots⟩ := slots
    obtain ⟨hf, hm⟩ := hm
    by_cases hn : f.name = m.name
    · have hslot : slot = none := by
        apply hf.mpr
        intro n hns hne
        exact hs _ (.duplicate List.mem_cons_self hn ⟨n, hns, hne⟩)
      have hfree := hf.mp hslot
      rcases shows_or_outOfRange (hk ⟨f, List.mem_cons_self, hn⟩) with ⟨found, hv⟩ | hv
      · by_cases hk : found.kind? = some f.kind
        · obtain ⟨x, hx⟩ := denotes_of_shows hv hk
          exact ⟨(some x, slots), .inl ⟨hn, hslot, ⟨x, rfl, hx⟩, rfl⟩⟩
        · exact absurd (.mismatch List.mem_cons_self hn hfree hv hk) (hs _)
      · exact absurd (.outOfRange List.mem_cons_self hn hfree hv) (hs _)
    · have hk' : IsKnown fs m → KnownValue m.value := by
        rintro ⟨g, hg, hgn⟩
        exact hk ⟨g, List.mem_cons_of_mem f hg, hgn⟩
      have ho' : (∀ g ∈ fs, m.name ≠ g.name) → SkippedValue m.value := by
        intro h
        exact ho (List.forall_mem_cons.mpr ⟨fun he => hn he.symm, h⟩)
      obtain ⟨slots', ht⟩ := ih hm hk' ho' fun cause h => hs cause (h.cons f)
      exact ⟨(slot, slots'), .inr ⟨hn, rfl, ht⟩⟩

theorem unspoiled_nil : Unspoiled fields [] := by
  intro before m after cause h
  simp at h

theorem unspoiled_concat (hu : Unspoiled fields seen) (hs : ∀ cause, ¬ m.Spoils fields seen cause) :
    Unspoiled fields (seen ++ [m]) := by
  intro before n after cause h
  rcases List.append_eq_append_iff.mp h with ⟨z, rfl, hz⟩ | ⟨z, hz, hz'⟩
  · -- the member is the last one
    cases z with
    | nil =>
      cases hz
      rw [List.append_nil]
      exact hs cause
    | cons x z => simp at hz
  · cases z with
    | nil =>
      rw [List.append_nil] at hz
      cases hz'
      rw [← hz]
      exact hs cause
    | cons x z =>
      obtain ⟨rfl, -⟩ := List.cons.inj hz'
      exact hu before n z cause hz

theorem missing_of_complete {slots : Slots fields} {f : Field}
    (hm : Slots.MarkedBy seen fields slots) (h : slots.complete = .error f) :
    ∃ front back, fields = front ++ f :: back ∧ (∀ g ∈ front, ∃ m ∈ seen, m.name = g.name) ∧
      ∀ m ∈ seen, m.name ≠ f.name := by
  induction fields with
  | nil => cases h
  | cons g fs ih =>
    obtain ⟨slot, slots⟩ := slots
    obtain ⟨hg, hm⟩ := hm
    cases slot with
    | none =>
      cases h
      exact ⟨[], fs, rfl, by simp, hg.mp rfl⟩
    | some x =>
      have hs : slots.complete = .error f := by
        simp only [Slots.complete, bind, Except.bind] at h
        split at h
        · rename_i hc
          cases h
          exact hc
        · cases h
      obtain ⟨front, back, rfl, hf, hn⟩ := ih hm hs
      have hx : ∃ m ∈ seen, m.name = g.name := by
        by_contra hne
        have hfree : ∀ m ∈ seen, m.name ≠ g.name := fun m hs he => hne ⟨m, hs, he⟩
        cases hg.mpr hfree
      exact ⟨g :: front, back, rfl, List.forall_mem_cons.mpr ⟨hx, hf⟩, hn⟩

end

theorem outcome_of_readMembers {fields : List Field} (hd : (fields.map Field.name).Nodup)
    {first : Bool} {text : List UInt8} {ms : List Member} (h : MembersText first text ms)
    {seen : List Member} {slots : Slots fields} (hm : Slots.MarkedBy seen fields slots)
    (hu : Unspoiled fields seen) (hw : WellFormed fields ms) (rest : List UInt8) :
    (∃ cause left, readMembers slots first (text ++ rest) = .error ⟨cause, left⟩ ∧
      Outcome fields (seen ++ ms) (.error cause)) ∨
    ∃ row, readMembers slots first (text ++ rest) = .ok (row, rest) ∧
      Unspoiled fields (seen ++ ms) ∧ Slots.Completes ms fields slots row := by
  -- the slots are marked by the members seen so far, none of which is spoiled
  induction h generalizing seen slots with
  | @close first blanks h =>
    have hn : readName first (blanks ++ [closeBrace] ++ rest) = .ok (none, rest) :=
      readName_none_iff.mpr ⟨blanks, h, by simp⟩
    rw [readMembers, hn, List.append_nil]
    cases hc : slots.complete with
    | error f =>
      obtain ⟨front, back, hf, hs, hfree⟩ := missing_of_complete hm hc
      exact .inl ⟨_, rest, rfl, .missing hu hf hs hfree⟩
    | ok row => exact .inr ⟨row, rfl, hu, complete_eq_ok_iff.mp hc⟩
  | @member first lead text more m ms hl hx hr ih =>
    cases hx with
    | @named token before after value name ht hb ha =>
      obtain ⟨hk, hks⟩ := List.forall_mem_cons.mp hw.known
      obtain ⟨ho, hos⟩ := List.forall_mem_cons.mp hw.others
      have he := endsNumber_of_membersText hr rest
      have hn := readName_append hl ht (before ++ colon :: (after ++ (value ++ (more ++ rest))))
      simp only [List.append_assoc, List.cons_append]
      rw [readMembers, hn]
      dsimp only
      by_cases hs : ∃ cause, (⟨name, value⟩ : Member).Spoils fields seen cause
      · obtain ⟨cause, hs⟩ := hs
        obtain ⟨left, hv⟩ := readMember_of_spoils hd hm hs hb ha he
        rw [hv]
        exact .inl ⟨cause, left, rfl, .spoiled rfl hu hs⟩
      · have hs : ∀ cause, ¬ (⟨name, value⟩ : Member).Spoils fields seen cause :=
          fun cause h => hs ⟨cause, h⟩
        obtain ⟨slots', hv⟩ := takes_of_not_spoils hm hk ho hs
        rw [readMember_append hb ha hv he]
        have hi := ih (markedBy_of_takes hd hv hm) (unspoiled_concat hu hs) ⟨hks, hos⟩
        rw [List.append_assoc, List.singleton_append] at hi
        rcases hi with hi | ⟨row, hi, hu', hc⟩
        · exact .inl hi
        · exact .inr ⟨row, hi, hu', completes_of_takes hd hv hc⟩

end PhraseSql.Json

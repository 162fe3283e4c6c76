import Mathlib.Data.List.DropRight
import PhraseSql.Text.Cut

namespace PhraseSql.Text

def IsCore {α : Type} (p : α → Bool) (core text : List α) : Prop :=
  (∃ before after, (∀ a ∈ before, p a = true) ∧ (∀ a ∈ after, p a = true) ∧
    text = before ++ (core ++ after)) ∧
  (∀ a ∈ core.head?, p a = false) ∧ ∀ a ∈ core.getLast?, p a = false

section

variable {α : Type} {p : α → Bool} {core text : List α}

theorem isCore_rdropWhile (p : α → Bool) (text : List α) :
    IsCore p ((text.dropWhile p).rdropWhile p) text := by
  refine ⟨⟨text.takeWhile p, (text.dropWhile p).rtakeWhile p, ?_, ?_, ?_⟩, ?_, ?_⟩
  · intro a ha
    exact List.all_eq_true.mp List.all_takeWhile a ha
  · intro a ha
    exact List.mem_rtakeWhile_imp ha
  · rw [List.rdropWhile_append_rtakeWhile, List.takeWhile_append_dropWhile]
  · intro a ha
    -- what is dropped at the end leaves the first item where it is
    obtain ⟨rest, hr⟩ := List.rdropWhile_prefix p (text.dropWhile p)
    have hd : (text.dropWhile p).head? = some a := by
      rw [← hr, List.head?_append, Option.mem_def.mp ha, Option.some_or]
    have hn := List.head?_dropWhile_not p text
    rw [hd] at hn
    exact hn
  · intro a ha
    obtain ⟨hne, rfl⟩ := List.mem_getLast?_eq_getLast ha
    simpa using List.rdropWhile_last_not p _ hne

theorem IsCore.rdropWhile_eq (h : IsCore p core text) : (text.dropWhile p).rdropWhile p = core := by
  obtain ⟨⟨before, after, hb, ha, rfl⟩, hh, hl⟩ := h
  rw [List.dropWhile_append_of_pos hb]
  cases core with
  | nil => rw [List.nil_append, List.dropWhile_eq_nil_iff.mpr ha, List.rdropWhile_nil]
  | cons a core =>
    have hc : ((a :: core) ++ after).dropWhile p = (a :: core) ++ after :=
      List.dropWhile_cons_of_neg (by simp [hh a rfl])
    have hr : (a :: core).rdropWhile p = a :: core := by
      apply List.rdropWhile_eq_self_iff.mpr
      intro hne
      rw [hl _ (List.getLast?_eq_some_getLast hne)]
      decide
    have ha' : ∀ x ∈ after.reverse, p x = true := fun x hx => ha x (List.mem_reverse.mp hx)
    rw [hc, List.rdropWhile, List.reverse_append, List.dropWhile_append_of_pos ha',
      ← List.rdropWhile, hr]

theorem rdropWhile_eq_iff : (text.dropWhile p).rdropWhile p = core ↔ IsCore p core text := by
  constructor
  · rintro rfl
    exact isCore_rdropWhile p text
  · exact IsCore.rdropWhile_eq

end

def AllBlank (text : List Char) : Prop := ∀ c ∈ text, isBlank c = true

theorem trim_eq_iff {text core : List Char} : trim text = core ↔ IsCore isBlank core text :=
  rdropWhile_eq_iff

theorem trim_between (text : List Char) :
    ∃ before after, AllBlank before ∧ AllBlank after ∧ text = before ++ (trim text ++ after) := by
  obtain ⟨⟨before, after, hb, ha, ht⟩, -⟩ := trim_eq_iff.mp (rfl : trim text = trim text)
  exact ⟨before, after, hb, ha, ht⟩

theorem trim_append {before core after : List Char} (hb : AllBlank before) (ha : AllBlank after)
    (hc : ∀ c ∈ core, isBlank c = false) : trim (before ++ (core ++ after)) = core := by
  refine trim_eq_iff.mpr ⟨⟨before, after, hb, ha, rfl⟩, ?_, ?_⟩
  · intro c hh
    exact hc c (List.mem_of_mem_head? hh)
  · intro c hl
    exact hc c (List.mem_of_mem_getLast? hl)

end PhraseSql.Text

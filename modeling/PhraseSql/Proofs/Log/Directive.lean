import PhraseSql.Log.Filter
import PhraseSql.Proofs.Text.Trim
import PhraseSql.Proofs.Text.Cut

namespace PhraseSql.Log

open Text (IsPlace IsAscii size)

def Part.start? : Part → Option Nat
  | .levelOrTarget n | .span n | .field n | .level n => some n
  | .start | .fields | .target => none

def AtPlace (item : List Char) (place : Nat) (p : Part) : Prop :=
  IsPlace item place ∧ ∀ start ∈ p.start?, start ≤ place ∧ IsPlace item start

section Step

variable {item : List Char} {place : Nat} {c : Char} {d d' : Directive} {p p' : Part}

theorem exists_part (h : AtPlace item place p) {start : Nat} (hs : p.start? = some start) :
    ∃ text, part item start place = .ok text := by
  obtain ⟨hle, hp⟩ := h.2 start hs
  obtain ⟨text, ht⟩ := Text.exists_cut? hp h.1 hle
  exact ⟨text, by rw [part, ht]⟩

theorem exists_lastPart (h : AtPlace item place p) {start : Nat} (hs : p.start? = some start) :
    ∃ text, lastPart item start = .ok text := by
  obtain ⟨-, hp⟩ := h.2 start hs
  obtain ⟨text, ht⟩ := Text.exists_cutFrom? hp
  exact ⟨text, by rw [lastPart, ht]⟩

theorem AtPlace.next (h : AtPlace item place p) (hc : IsPlace item (place + c.utf8Size))
    (hn : ∀ start ∈ p'.start?, start ∈ p.start? ∨ start = place ∨ start = place + c.utf8Size) :
    AtPlace item (place + c.utf8Size) p' := by
  refine ⟨hc, ?_⟩
  intro start hs
  rcases hn start hs with hs | rfl | rfl
  · obtain ⟨hle, hp⟩ := h.2 start hs
    exact ⟨Nat.le_add_right_of_le hle, hp⟩
  · exact ⟨Nat.le_add_right _ _, h.1⟩
  · exact ⟨Nat.le_refl _, hc⟩

def LeadsTo (item : List Char) (place : Nat) : Except FilterFault (Directive × Part) → Prop
  | .error fault => fault = .malformed
  | .ok (_, p) => AtPlace item place p

theorem leadsTo_step (h : AtPlace item place p) (hc : IsPlace item (place + c.utf8Size)) :
    LeadsTo item (place + c.utf8Size) (d.step item place c p) := by
  -- The next part begins nowhere, right after a mark of one byte, or where this one did.
  have none_next {p' : Part} (hn : p'.start? = none) : AtPlace item (place + c.utf8Size) p' :=
    h.next hc (by simp [hn])
  have past_next {p' : Part} {mark : Char} (hm : c = mark) (hone : mark.utf8Size = 1)
      (hn : p'.start? = some (place + 1)) : AtPlace item (place + c.utf8Size) p' :=
    h.next hc (by simp [hn, hm, hone])
  have same_next : AtPlace item (place + c.utf8Size) p := h.next hc fun _ hs => .inl hs
  cases p with
  | start =>
    simp only [Directive.step]
    split
    · rename_i hm
      exact past_next hm (by decide) rfl
    · split
      · exact h.next hc (by simp [Part.start?])
      · rfl
  | levelOrTarget n =>
    obtain ⟨text, ht⟩ := exists_part h rfl
    simp only [Directive.step, ht]
    split
    · rename_i hm
      exact past_next hm (by decide) rfl
    · split
      · rename_i hm
        exact past_next hm (by decide) rfl
      · exact same_next
  | span n =>
    obtain ⟨text, ht⟩ := exists_part h rfl
    simp only [Directive.step, ht]
    split
    · exact none_next rfl
    · split
      · rename_i hm
        exact past_next hm (by decide) rfl
      · exact same_next
  | field n =>
    obtain ⟨text, ht⟩ := exists_part h rfl
    simp only [Directive.step, ht, bind, Except.bind]
    split
    · split
      · exact none_next rfl
      · rfl
    · exact same_next
  | fields =>
    simp only [Directive.step]
    split
    · exact none_next rfl
    · rfl
  | target =>
    simp only [Directive.step]
    split
    · rename_i hm
      exact past_next hm (by decide) rfl
    · rfl
  | level n => exact same_next

theorem fault_of_conclude (h : AtPlace item place p) {fault : FilterFault}
    (he : d.conclude item p = .error fault) : fault = .malformed := by
  cases p with
  | levelOrTarget n =>
    obtain ⟨text, ht⟩ := exists_lastPart h rfl
    simp only [Directive.conclude, ht, bind, Except.bind] at he
    split at he <;> cases he
  | level n =>
    obtain ⟨text, ht⟩ := exists_lastPart h rfl
    simp only [Directive.conclude, ht, bind, Except.bind] at he
    split at he
    · cases he
    · split at he
      · cases he
      · cases he
        rfl
  | target => cases he
  | start | span | field | fields =>
    cases he
    rfl

end Step

theorem fault_of_scan {item rest : List Char} {place : Nat} {d : Directive} {p : Part}
    {fault : FilterFault} (h : AtPlace item place p)
    (hr : ∀ front, front <+: rest → IsPlace item (place + size front))
    (he : Directive.scan item place d p rest = .error fault) : fault = .malformed := by
  -- By the characters still to be read: the place moves along the places of the item.
  induction rest generalizing place d p with
  | nil => exact fault_of_conclude h he
  | cons c rest ih =>
    have hc : IsPlace item (place + c.utf8Size) := by
      have hc := hr [c] (by simp)
      rwa [Text.size_cons, size, List.map_nil, List.sum_nil, Nat.add_zero] at hc
    have hl : LeadsTo item (place + c.utf8Size) (d.step item place c p) := leadsTo_step h hc
    rw [Directive.scan] at he
    cases hs : d.step item place c p with
    | error fault' =>
      rw [hs] at he hl
      cases he
      exact hl
    | ok next =>
      rw [hs] at he hl
      apply ih hl _ he
      intro front hf
      have hp := hr (c :: front) (List.cons_prefix_cons.mpr ⟨rfl, hf⟩)
      rwa [Text.size_cons, ← Nat.add_assoc] at hp

/-- An item whose parts are cut out where they stand: no blank comes first, or all characters take
one byte. -/
def IsAligned (item : List Char) : Prop :=
  (∀ c ∈ item.head?, Text.isBlank c = false) ∨ IsAscii item

theorem isPlace_of_prefix_trim {item front : List Char} (h : IsAligned item)
    (hf : front <+: Text.trim item) : IsPlace item (size front) := by
  obtain ⟨before, after, hb, -, hi⟩ := Text.trim_between item
  rcases h with h | h
  · -- Nothing is trimmed in front, so the walk begins where the item does.
    have hn : before = [] := by
      cases before with
      | nil => rfl
      | cons c before =>
        have hc := hb c List.mem_cons_self
        rw [h c (by rw [hi]; rfl)] at hc
        cases hc
    rw [hn, List.nil_append] at hi
    have ht : Text.trim item <+: item := ⟨after, hi.symm⟩
    exact Text.isPlace_size_of_prefix (hf.trans ht)
  · -- The walk may lag behind the places it counts, but each of them is the end of a character.
    have ht : Text.trim item <:+: item := ⟨before, after, by rw [List.append_assoc]; exact hi.symm⟩
    have hs : front.Sublist item := hf.sublist.trans ht.sublist
    have ha : IsAscii front := fun c hc => h c (hs.mem hc)
    rw [Text.size_eq_length ha]
    exact Text.isPlace_of_isAscii h hs.length_le

theorem fault_of_parseItem {item : List Char} (h : IsAligned item) {fault : FilterFault}
    (he : Directive.parse item = .error fault) : fault = .malformed := by
  have hz : AtPlace item 0 .start := ⟨Text.isPlace_zero item, by simp [Part.start?]⟩
  apply fault_of_scan hz _ he
  intro front hf
  rw [Nat.zero_add]
  exact isPlace_of_prefix_trim h hf

theorem exists_error_of_mapM {α β ε : Type} {f : α → Except ε β} {xs : List α} {e : ε}
    (h : xs.mapM f = .error e) : ∃ x ∈ xs, f x = .error e := by
  induction xs with
  | nil => cases h
  | cons x xs ih =>
    rw [List.mapM_cons] at h
    cases hx : f x with
    | error e' =>
      rw [hx] at h
      cases h
      exact ⟨x, List.mem_cons_self, hx⟩
    | ok y =>
      cases hs : xs.mapM f with
      | error e' =>
        rw [hx, hs] at h
        cases h
        obtain ⟨x', hm, hx'⟩ := ih hs
        exact ⟨x', List.mem_cons_of_mem x hm, hx'⟩
      | ok ys =>
        rw [hx, hs] at h
        cases h

theorem fault_of_parse {text : String} (h : ∀ item ∈ text.toList.splitOn ',', IsAligned item)
    {fault : FilterFault} (he : Filter.parse text = .error fault) : fault = .malformed := by
  have hm : ((text.toList.splitOn ',').filter (· ≠ [])).mapM Directive.parse = .error fault := by
    simp only [Filter.parse] at he
    cases hm : ((text.toList.splitOn ',').filter (· ≠ [])).mapM Directive.parse with
    | error fault' =>
      rw [hm] at he
      cases he
      rfl
    | ok directives =>
      rw [hm] at he
      cases he
  obtain ⟨item, hi, he⟩ := exists_error_of_mapM hm
  exact fault_of_parseItem (h item (List.mem_of_mem_filter hi)) he

end PhraseSql.Log

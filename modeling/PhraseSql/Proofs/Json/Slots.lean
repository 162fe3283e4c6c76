import PhraseSql.Proofs.Json.Grammar

namespace PhraseSql.Json

def Slots.Takes (name : String) (value : List UInt8) :
    (fields : List Field) → Slots fields → Slots fields → Prop
  | [], _, _ => SkippedValue value
  | f :: fs, (slot, slots), (slot', slots') =>
    (f.name = name ∧ slot = none ∧ (∃ x, slot' = some x ∧ f.kind.Denotes value x) ∧
      slots' = slots) ∨
    (f.name ≠ name ∧ slot' = slot ∧ Takes name value fs slots slots')

def Field.Fills (ms : List Member) (f : Field) : Option f.kind.Value → f.kind.Value → Prop
  | none, x =>
    ∃ token, ms.filter (Member.hasName f.name) = [⟨f.name, token⟩] ∧ f.kind.Denotes token x
  | some y, x => ms.filter (Member.hasName f.name) = [] ∧ y = x

def Slots.Completes (ms : List Member) : (fields : List Field) → Slots fields → Row fields → Prop
  | [], _, _ => True
  | f :: fs, (slot, slots), (x, row) => f.Fills ms slot x ∧ Completes ms fs slots row

theorem name_ne_of_not_mem {name : String} {fields : List Field}
    (h : name ∉ fields.map Field.name) : ∀ f ∈ fields, f.name ≠ name :=
  fun f hf he => h (List.mem_map.mpr ⟨f, hf, he⟩)

theorem complete_eq_ok_iff {fields : List Field} {slots : Slots fields} {row : Row fields} :
    slots.complete = .ok row ↔ Slots.Completes [] fields slots row := by
  induction fields with
  | nil => simp [Slots.complete, Slots.Completes]
  | cons f fs ih =>
    obtain ⟨_ | y, slots⟩ := slots <;> obtain ⟨x, row⟩ := row
    · simp [Slots.complete, Slots.Completes, Field.Fills]
    · simp only [Slots.complete, Slots.Completes, Field.Fills, bind, Except.bind, List.filter_nil,
        true_and]
      constructor
      · intro h
        split at h
        · cases h
        · rename_i hc
          cases h
          exact ⟨rfl, ih.mp hc⟩
      · rintro ⟨rfl, h⟩
        rw [ih.mpr h]

theorem completes_empty_iff {ms : List Member} {fields : List Field} {row : Row fields} :
    Slots.Completes ms fields (.empty fields) row ↔ Row.Occurs ms fields row := by
  induction fields with
  | nil => exact Iff.rfl
  | cons f fs ih => exact and_congr_right fun _ => ih

theorem fills_cons_of_ne {name : String} {f : Field} (h : f.name ≠ name) (value : List UInt8)
    (ms : List Member) (slot : Option f.kind.Value) (x : f.kind.Value) :
    f.Fills (⟨name, value⟩ :: ms) slot x ↔ f.Fills ms slot x := by
  have hm : (⟨name, value⟩ :: ms : List Member).filter (Member.hasName f.name) =
      ms.filter (Member.hasName f.name) :=
    List.filter_cons_of_neg (by simpa [Member.hasName] using h.symm)
  cases slot <;> simp only [Field.Fills, hm]

theorem fills_cons_self (f : Field) (value : List UInt8) (ms : List Member)
    (slot : Option f.kind.Value) (x : f.kind.Value) :
    f.Fills (⟨f.name, value⟩ :: ms) slot x ↔
      slot = none ∧ f.kind.Denotes value x ∧ f.Fills ms (some x) x := by
  have hm : (⟨f.name, value⟩ :: ms : List Member).filter (Member.hasName f.name) =
      ⟨f.name, value⟩ :: ms.filter (Member.hasName f.name) :=
    List.filter_cons_of_pos (by simp [Member.hasName])
  cases slot with
  | none =>
    simp only [Field.Fills, hm, List.cons.injEq, Member.mk.injEq, true_and, and_true]
    constructor
    · rintro ⟨token, ⟨rfl, he⟩, hx⟩
      exact ⟨hx, he⟩
    · rintro ⟨hx, he⟩
      exact ⟨value, ⟨rfl, he⟩, hx⟩
  | some y => simp only [Field.Fills, hm, reduceCtorEq, false_and]

theorem completes_cons_of_ne {name : String} {value : List UInt8} {ms : List Member}
    {fields : List Field} {slots : Slots fields} {row : Row fields}
    (h : ∀ f ∈ fields, f.name ≠ name) :
    Slots.Completes (⟨name, value⟩ :: ms) fields slots row ↔
      Slots.Completes ms fields slots row := by
  induction fields with
  | nil => exact Iff.rfl
  | cons f fs ih =>
    obtain ⟨hf, hfs⟩ := List.forall_mem_cons.mp h
    exact and_congr (fills_cons_of_ne hf value ms _ _) (ih hfs)

theorem skippedValue_of_takes {name : String} {value : List UInt8} {fields : List Field}
    {slots slots' : Slots fields} (h : Slots.Takes name value fields slots slots')
    (hn : ∀ f ∈ fields, name ≠ f.name) : SkippedValue value := by
  induction fields with
  | nil => exact h
  | cons f fs ih =>
    obtain ⟨hf, hfs⟩ := List.forall_mem_cons.mp hn
    rcases h with ⟨he, -⟩ | ⟨-, -, h⟩
    · exact absurd he.symm hf
    · exact ih h hfs

theorem completes_of_takes {name : String} {value : List UInt8} {ms : List Member}
    {fields : List Field} {slots slots' : Slots fields} {row : Row fields}
    (hd : (fields.map Field.name).Nodup) (h : Slots.Takes name value fields slots slots')
    (hc : Slots.Completes ms fields slots' row) :
    Slots.Completes (⟨name, value⟩ :: ms) fields slots row := by
  induction fields with
  | nil => exact trivial
  | cons f fs ih =>
    obtain ⟨hn, hd⟩ := List.nodup_cons.mp hd
    obtain ⟨hx, hc⟩ := hc
    rcases h with ⟨rfl, hs, ⟨y, hy, hv⟩, he⟩ | ⟨hf, he, ht⟩
    · rw [hy] at hx
      obtain ⟨hm, rfl⟩ := hx
      rw [he] at hc
      exact ⟨(fills_cons_self f value ms _ _).mpr ⟨hs, hv, hm, rfl⟩,
        (completes_cons_of_ne (name_ne_of_not_mem hn)).mpr hc⟩
    · rw [he] at hx
      exact ⟨(fills_cons_of_ne hf value ms _ _).mpr hx, ih hd ht hc⟩

theorem takes_of_completes {name : String} {value : List UInt8} {ms : List Member}
    {fields : List Field} {slots : Slots fields} {row : Row fields}
    (hd : (fields.map Field.name).Nodup)
    (hc : Slots.Completes (⟨name, value⟩ :: ms) fields slots row)
    (hs : (∀ f ∈ fields, name ≠ f.name) → SkippedValue value) :
    ∃ slots', Slots.Takes name value fields slots slots' ∧
      Slots.Completes ms fields slots' row := by
  induction fields with
  | nil => exact ⟨(), hs (by simp), trivial⟩
  | cons f fs ih =>
    obtain ⟨hn, hd⟩ := List.nodup_cons.mp hd
    obtain ⟨slot, slots⟩ := slots
    obtain ⟨x, row⟩ := row
    obtain ⟨hx, hc⟩ := hc
    by_cases hf : f.name = name
    · subst hf
      obtain ⟨rfl, hv, hx⟩ := (fills_cons_self f value ms _ _).mp hx
      exact ⟨(some x, slots), .inl ⟨rfl, rfl, ⟨x, rfl, hv⟩, rfl⟩, hx,
        (completes_cons_of_ne (name_ne_of_not_mem hn)).mp hc⟩
    · obtain ⟨slots', ht, hc⟩ := ih hd hc
        fun h => hs (List.forall_mem_cons.mpr ⟨fun he => hf he.symm, h⟩)
      exact ⟨(slot, slots'), .inr ⟨hf, rfl, ht⟩, (fills_cons_of_ne hf value ms _ _).mp hx, hc⟩

end PhraseSql.Json

import PhraseSql.Proofs.Json.Written
import PhraseSql.Proofs.Text.WellFormed

/-!
A text between quotes is split into bytes that are taken as they are and escapes. It is read if its
runs of bytes are characters, each run for itself.
-/

namespace PhraseSql.Json

inductive TextUnit where
  | raw (b : UInt8)
  | escape (bytes : List UInt8) (c : Char)

namespace TextUnit

def isRaw : TextUnit → Bool
  | raw _ => true
  | escape _ _ => false

def bytes : TextUnit → List UInt8
  | raw b => [b]
  | escape bytes _ => bytes

def octets : TextUnit → List UInt8
  | raw b => [b]
  | escape _ c => String.utf8EncodeChar c

def Allowed : TextUnit → Prop
  | raw b => 0x20 ≤ b ∧ b ≠ quote ∧ b ≠ backslash
  | escape bytes c => Escape bytes c

end TextUnit

def IsRun (units : List TextUnit) (run : List UInt8) : Prop :=
  ∃ front back, units = front ++ (run.map .raw ++ back) ∧
    (∀ x ∈ front.getLast?, x.isRaw = false) ∧ ∀ x ∈ back.head?, x.isRaw = false

structure SplitsInto (s : List UInt8) (units : List TextUnit) : Prop where
  allowed : ∀ x ∈ units, x.Allowed
  bytes_eq : s = units.flatMap TextUnit.bytes
  wellFormed : ∀ run, IsRun units run → Text.WellFormed run

def Denoted (s : List UInt8) (text : String) : Prop :=
  ∃ units, SplitsInto s units ∧ Text.octets text = units.flatMap TextUnit.octets

theorem flatMap_octets_raw (run : List UInt8) :
    (run.map TextUnit.raw).flatMap TextUnit.octets = run := by
  induction run with
  | nil => rfl
  | cons b run ih => simp [TextUnit.octets, ih]

theorem assembles_iff {s t : List UInt8} :
    Assembles s t ↔ ∃ units : List TextUnit, (∀ x ∈ units, x.Allowed) ∧
      s = units.flatMap TextUnit.bytes ∧ t = units.flatMap TextUnit.octets := by
  constructor
  · intro h
    induction h with
    | nil => exact ⟨[], by simp, rfl, rfl⟩
    | @plain b s t hb hq hs h ih =>
      obtain ⟨units, ha, rfl, rfl⟩ := ih
      exact ⟨.raw b :: units, List.forall_mem_cons.mpr ⟨⟨hb, hq, hs⟩, ha⟩, rfl, rfl⟩
    | @escape e s t c he h ih =>
      obtain ⟨units, ha, rfl, rfl⟩ := ih
      exact ⟨.escape e c :: units, List.forall_mem_cons.mpr ⟨he, ha⟩, rfl, rfl⟩
  · rintro ⟨units, ha, rfl, rfl⟩
    induction units with
    | nil => exact .nil
    | cons x units ih =>
      obtain ⟨hx, hu⟩ := List.forall_mem_cons.mp ha
      cases x with
      | raw b => exact .plain hx.1 hx.2.1 hx.2.2 (ih hu)
      | escape e c => exact .escape hx (ih hu)

theorem exists_text_before {x y : List UInt8} {text : List Char}
    (hy : ∀ b ∈ y.head?, b.IsUTF8FirstByte) (h : x ++ y = text.flatMap String.utf8EncodeChar) :
    ∃ front back : List Char, x = front.flatMap String.utf8EncodeChar ∧
      y = back.flatMap String.utf8EncodeChar := by
  induction text generalizing x with
  | nil =>
    obtain ⟨rfl, rfl⟩ := List.append_eq_nil_iff.mp h
    exact ⟨[], [], rfl, rfl⟩
  | cons c text ih =>
    obtain ⟨b, tail, hc, -, ht⟩ := utf8EncodeChar_eq_cons c
    rw [List.flatMap_cons] at h
    rcases List.append_eq_append_iff.mp h with ⟨z, hz, rfl⟩ | ⟨z, rfl, hz⟩
    · -- the place is inside the first character or at one of its ends
      cases z with
      | nil =>
        rw [List.append_nil] at hz
        exact ⟨[c], text, by simp [hz], by simp⟩
      | cons d z =>
        have hd := hy d rfl
        cases x with
        | nil => exact ⟨[], c :: text, rfl, h⟩
        | cons a x =>
          rw [hc] at hz
          have hm : d ∈ tail := by simp [(List.cons.inj hz).2]
          exact absurd hd (ht d hm)
    · obtain ⟨front, back, rfl, rfl⟩ := ih hz.symm
      exact ⟨c :: front, back, by rw [List.flatMap_cons], rfl⟩

theorem isUTF8FirstByte_of_head {units : List TextUnit} (h : ∀ x ∈ units.head?, x.isRaw = false) :
    ∀ b ∈ (units.flatMap TextUnit.octets).head?, b.IsUTF8FirstByte := by
  intro b hb
  cases units with
  | nil => cases hb
  | cons x units =>
    cases x with
    | raw d => cases h _ rfl
    | escape e c =>
      obtain ⟨d, tail, hc, hd, -⟩ := utf8EncodeChar_eq_cons c
      rw [List.flatMap_cons, TextUnit.octets, hc] at hb
      cases hb
      exact hd

/-- An escape cannot complete a character that raw bytes began, nor begin one that they complete. -/
theorem wellFormed_run {units : List TextUnit} {run : List UInt8} {text : List Char}
    (h : units.flatMap TextUnit.octets = text.flatMap String.utf8EncodeChar)
    (hr : IsRun units run) : Text.WellFormed run := by
  obtain ⟨front, back, rfl, hf, hb⟩ := hr
  rw [List.flatMap_append, List.flatMap_append, flatMap_octets_raw, ← List.append_assoc] at h
  obtain ⟨text', -, h, -⟩ := exists_text_before (isUTF8FirstByte_of_head hb) h
  rcases List.eq_nil_or_concat front with rfl | ⟨front, x, rfl⟩
  · exact Text.wellFormed_iff.mpr ⟨text', h⟩
  · cases x with
    | raw b => cases hf (.raw b) (by simp)
    | escape e c =>
      obtain ⟨b, tail, hc, hd, -⟩ := utf8EncodeChar_eq_cons c
      rw [List.concat_eq_append, List.flatMap_append, List.flatMap_singleton, TextUnit.octets,
        List.append_assoc] at h
      have hh : ∀ a ∈ (String.utf8EncodeChar c ++ run).head?, a.IsUTF8FirstByte := by
        rw [hc]
        intro a ha
        cases ha
        exact hd
      obtain ⟨-, text'', -, h⟩ := exists_text_before hh h
      cases text'' with
      | nil => simp at h
      | cons c' text'' =>
        have hn := Text.nextChar?_utf8EncodeChar_append c run
        rw [h, List.flatMap_cons, Text.nextChar?_utf8EncodeChar_append] at hn
        cases hn
        exact Text.wellFormed_iff.mpr ⟨text'', rfl⟩

theorem exists_text_of_runs {units : List TextUnit} (before : List UInt8)
    (h : ∀ run, IsRun (before.map .raw ++ units) run → Text.WellFormed run) :
    ∃ text : List Char,
      before ++ units.flatMap TextUnit.octets = text.flatMap String.utf8EncodeChar := by
  -- `before` is the run so far, which the next escape or the end completes
  induction units generalizing before with
  | nil =>
    rw [List.flatMap_nil, List.append_nil]
    exact Text.wellFormed_iff.mp (h before ⟨[], [], rfl, by simp, by simp⟩)
  | cons x units ih =>
    cases x with
    | raw b =>
      have hb : (before ++ [b]).map TextUnit.raw ++ units = before.map .raw ++ .raw b :: units := by
        simp
      obtain ⟨text, ht⟩ := ih (before ++ [b]) (by rwa [hb])
      exact ⟨text, by rw [← ht]; simp [TextUnit.octets]⟩
    | escape e c =>
      obtain ⟨front, hf⟩ := Text.wellFormed_iff.mp
        (h before ⟨[], .escape e c :: units, rfl, by simp, by simp [TextUnit.isRaw]⟩)
      obtain ⟨back, hb⟩ := ih [] (by
        rintro run ⟨front', back', hu, hf', hb'⟩
        refine h run ⟨before.map .raw ++ .escape e c :: front', back', by simpa using hu, ?_, hb'⟩
        intro x hx
        rw [List.getLast?_append, List.getLast?_cons] at hx
        cases hl : front'.getLast? with
        | none =>
          rw [hl] at hx
          cases hx
          rfl
        | some y =>
          rw [hl] at hx
          cases hx
          exact hf' y hl)
      refine ⟨front ++ c :: back, ?_⟩
      rw [List.nil_append] at hb
      rw [List.flatMap_cons, hb, List.flatMap_append, List.flatMap_cons, ← hf]
      rfl

theorem octets_eq (text : String) :
    Text.octets text = text.toList.flatMap String.utf8EncodeChar := by
  rw [← Text.octets_ofList, String.ofList_toList]

theorem spells_iff_assembles {s : List UInt8} {text : String} :
    Spells s text.toList ↔ Assembles s (Text.octets text) := by
  rw [octets_eq]
  exact ⟨assembles_of_spells, spells_of_assembles⟩

theorem denoted_iff {s : List UInt8} {text : String} : Denoted s text ↔ Spells s text.toList := by
  rw [spells_iff_assembles, assembles_iff]
  constructor
  · rintro ⟨units, ⟨ha, hs, -⟩, ht⟩
    exact ⟨units, ha, hs, ht⟩
  · rintro ⟨units, ha, hs, ht⟩
    rw [octets_eq] at ht
    exact ⟨units, ⟨ha, hs, fun run hr => wellFormed_run ht.symm hr⟩, by rw [octets_eq, ht]⟩

theorem exists_denoted_iff {s : List UInt8} :
    (∃ text, Denoted s text) ↔ ∃ units, SplitsInto s units := by
  constructor
  · rintro ⟨text, units, hs, -⟩
    exact ⟨units, hs⟩
  · rintro ⟨units, hs⟩
    obtain ⟨text, ht⟩ := exists_text_of_runs [] hs.wellFormed
    exact ⟨String.ofList text, units, hs, by rw [Text.octets_ofList, ← ht, List.nil_append]⟩

theorem read_literal_iff {s rest : List UInt8} {text : String} :
    Kind.read .text (quote :: (s ++ quote :: rest)) = .ok (text, rest) ↔ Denoted s text := by
  have hs : skipBlanks (quote :: (s ++ quote :: rest)) = quote :: (s ++ quote :: rest) :=
    skipBlanks_cons rfl _
  simp only [Kind.read, hs, if_pos, readText_iff, denoted_iff]
  constructor
  · rintro ⟨content, hc, he⟩
    rw [List.append_cancel_right he]
    exact hc
  · intro h
    exact ⟨s, h, rfl⟩

end PhraseSql.Json

import Mathlib.Data.List.DropRight
import PhraseSql.Json.Record.Reader
import PhraseSql.Proofs.Number.Layout

/-!
What a failure says fits on one line, which ends in the place of the failure and in no other.
-/

namespace PhraseSql.Json

open Text (HasNoControls hasNoControls_append_iff hasNoControls_toDigits)

structure PlaceAfter (bytes : List UInt8) (line column : Nat) : Prop where
  line : line = 1 + bytes.count lineFeed
  column : ∃ lines last, bytes = lines ++ last ∧ (∀ b ∈ lines.getLast?, b = lineFeed) ∧
    lineFeed ∉ last ∧ column = last.length

theorem column_append {lines last : List UInt8} (hl : ∀ b ∈ lines.getLast?, b = lineFeed)
    (hn : lineFeed ∉ last) : (Position.after (lines ++ last)).column = last.length := by
  have hp : ∀ b ∈ last.reverse, decide (b ≠ lineFeed) = true := by
    intro b hb
    apply decide_eq_true
    rintro rfl
    exact hn (List.mem_reverse.mp hb)
  rw [Position.after, List.reverse_append, List.takeWhile_append_of_pos hp]
  cases hr : lines.reverse with
  | nil => rw [List.takeWhile_nil, List.append_nil, List.length_reverse]
  | cons b rest =>
    have hb : b = lineFeed := by
      apply hl
      rw [← List.head?_reverse, hr]
      rfl
    rw [List.takeWhile_cons_of_neg (by simp [hb]), List.append_nil, List.length_reverse]

theorem exists_lines (bytes : List UInt8) :
    ∃ lines last, bytes = lines ++ last ∧ (∀ b ∈ lines.getLast?, b = lineFeed) ∧
      lineFeed ∉ last := by
  refine ⟨bytes.rdropWhile (· ≠ lineFeed), bytes.rtakeWhile (· ≠ lineFeed), ?_, ?_, ?_⟩
  · exact List.rdropWhile_append_rtakeWhile.symm
  · intro b hb
    obtain ⟨hne, rfl⟩ := List.mem_getLast?_eq_getLast hb
    simpa using List.rdropWhile_last_not _ bytes hne
  · intro hm
    simpa using List.mem_rtakeWhile_imp hm

theorem placeAfter_iff {bytes : List UInt8} {line column : Nat} :
    PlaceAfter bytes line column ↔ Position.after bytes = ⟨line, column⟩ := by
  constructor
  · rintro ⟨rfl, lines, last, rfl, hl, hn, rfl⟩
    rw [← column_append hl hn]
    rfl
  · intro h
    obtain ⟨lines, last, hb, hl, hn⟩ := exists_lines bytes
    refine ⟨(congrArg Position.line h).symm, lines, last, hb, hl, hn, ?_⟩
    rw [← column_append hl hn, ← hb, h]

def atPlace (line column : Nat) : String :=
  " at line " ++ line.repr ++ " column " ++ column.repr

theorem message_eq (f : Failure) (document : List UInt8) :
    f.message document = f.cause.describe ++
      atPlace (Position.after (readBefore document f.rest)).line
        (Position.after (readBefore document f.rest)).column := by
  have hp : " at line " = " at " ++ "line " := rfl
  simp only [Failure.message, Position.describe, atPlace, hp, String.append_assoc]

theorem blank_not_mem_toDigits (n : Nat) : ' ' ∉ Nat.toDigits 10 n := by
  intro h
  have hd := Nat.isDigit_of_mem_toDigits (by decide) (by decide) h
  cases hd

theorem append_blank_inj {x y : List Char} {m n : Nat} :
    x ++ ' ' :: Nat.toDigits 10 m = y ++ ' ' :: Nat.toDigits 10 n ↔ x = y ∧ m = n := by
  have hinj (h : Nat.toDigits 10 m = Nat.toDigits 10 n) : m = n := by
    rw [← Nat.ofDigitChars_ten_toDigits (n := m), h, Nat.ofDigitChars_ten_toDigits]
  constructor
  · intro h
    -- both texts end where the last blank is, as there are none among digits
    rcases List.append_eq_append_iff.mp h with ⟨z, rfl, hz⟩ | ⟨z, rfl, hz⟩
    · cases z with
      | nil => exact ⟨(List.append_nil x).symm, hinj (List.cons.inj hz).2⟩
      | cons c z =>
        have hm : ' ' ∈ Nat.toDigits 10 m := by simp [(List.cons.inj hz).2]
        exact absurd hm (blank_not_mem_toDigits m)
    · cases z with
      | nil => exact ⟨List.append_nil y, hinj (List.cons.inj hz).2.symm⟩
      | cons c z =>
        have hm : ' ' ∈ Nat.toDigits 10 n := by simp [(List.cons.inj hz).2]
        exact absurd hm (blank_not_mem_toDigits n)
  · rintro ⟨rfl, rfl⟩
    rfl

theorem toList_append_atPlace (front : String) (line column : Nat) :
    (front ++ atPlace line column).toList =
      ((front.toList ++ " at line".toList) ++ ' ' :: Nat.toDigits 10 line ++ " column".toList) ++
        ' ' :: Nat.toDigits 10 column := by
  simp [atPlace]

theorem append_atPlace_inj {x y : String} {line column line' column' : Nat} :
    x ++ atPlace line column = y ++ atPlace line' column' ↔
      x = y ∧ line = line' ∧ column = column' := by
  rw [← String.toList_inj, toList_append_atPlace, toList_append_atPlace, append_blank_inj,
    List.append_left_inj, append_blank_inj, List.append_left_inj, String.toList_inj, and_assoc]

/-- The last character that is no digit is not a blank, as it is where a place is told. -/
def EndsInWord (text : List Char) : Prop :=
  ∃ c ∈ (text.filter (!·.isDigit)).getLast?, c ≠ ' '

instance (text : List Char) : Decidable (EndsInWord text) :=
  Option.decidableExistsMem _

theorem EndsInWord.append {text : List Char} (h : EndsInWord text) (front : List Char) :
    EndsInWord (front ++ text) := by
  obtain ⟨c, hc, hb⟩ := h
  refine ⟨c, ?_, hb⟩
  rw [List.filter_append, List.getLast?_append, Option.mem_def.mp hc]
  rfl

def EndsInPlace (text : String) : Prop :=
  ∃ front line column : String, (∀ c ∈ line.toList, c.isDigit = true) ∧
    (∀ c ∈ column.toList, c.isDigit = true) ∧
    text = front ++ " at line " ++ line ++ " column " ++ column

theorem endsInPlace_append_atPlace (front : String) (line column : Nat) :
    EndsInPlace (front ++ atPlace line column) := by
  have hd (n : Nat) : ∀ c ∈ n.repr.toList, c.isDigit = true := by
    intro c hc
    rw [Nat.toList_repr] at hc
    exact Nat.isDigit_of_mem_toDigits (by decide) (by decide) hc
  exact ⟨front, line.repr, column.repr, hd line, hd column, by simp only [atPlace, String.append_assoc]⟩

theorem EndsInWord.not_endsInPlace {text : String} (h : EndsInWord text.toList) :
    ¬ EndsInPlace text := by
  rintro ⟨front, line, column, -, hd, rfl⟩
  obtain ⟨c, hc, hb⟩ := h
  have he : column.toList.filter (!·.isDigit) = [] := by
    apply List.filter_eq_nil_iff.mpr
    intro d hm
    simp [hd d hm]
  have hw : " column ".toList.filter (!·.isDigit) = " column".toList ++ [' '] := by decide
  rw [String.toList_append, List.filter_append, he, List.append_nil, String.toList_append,
    List.filter_append, hw, ← List.append_assoc, List.getLast?_concat] at hc
  exact hb (Option.some.inj hc).symm

theorem hasNoControls_repr (n : Nat) : HasNoControls n.repr.toList := by
  rw [Nat.toList_repr]
  exact hasNoControls_toDigits 10 (by decide) (by decide) n

theorem hasNoControls_atPlace (line column : Nat) : HasNoControls (atPlace line column).toList := by
  have hl : HasNoControls " at line ".toList := by decide +kernel
  have hc : HasNoControls " column ".toList := by decide +kernel
  simp only [atPlace, String.toList_append, hasNoControls_append_iff]
  exact ⟨⟨⟨hl, hasNoControls_repr line⟩, hc⟩, hasNoControls_repr column⟩

theorem Found.hasNoControls_describe (found : Found) : HasNoControls found.describe.toList := by
  have ht : HasNoControls "`".toList := by decide +kernel
  cases found with
  | null => decide +kernel
  | boolean b => cases b <;> decide +kernel
  | integer n =>
    have hf : HasNoControls "integer `".toList := by decide +kernel
    have hs : HasNoControls (if n < 0 then "-" else "").toList := by split <;> decide +kernel
    have hd : (Found.integer n).describe =
        "integer `" ++ (if n < 0 then "-" else "") ++ n.natAbs.repr ++ "`" := rfl
    simp only [hd, String.toList_append, hasNoControls_append_iff]
    exact ⟨⟨⟨hf, hs⟩, hasNoControls_repr n.natAbs⟩, ht⟩
  | number x =>
    have hf : HasNoControls "floating point `".toList := by decide +kernel
    have hd : (Found.number x).describe =
        "floating point `" ++ Number.Layout.document.write x ++ "`" := rfl
    simp only [hd, String.toList_append, hasNoControls_append_iff]
    exact ⟨⟨hf, Number.hasNoControls_write (by decide) x⟩, ht⟩
  | text s =>
    have hf : HasNoControls "string ".toList := by decide +kernel
    have hd : (Found.text s).describe = "string " ++ Text.quoted s := rfl
    simp only [hd, String.toList_append, hasNoControls_append_iff]
    exact ⟨hf, Text.hasNoControls_quoted s⟩
  | list => decide +kernel
  | object => decide +kernel

structure Shape.IsTellable (shape : Shape) : Prop where
  name : HasNoControls shape.name.toList
  lastWord : EndsInWord shape.name.toList
  names : ∀ name ∈ shape.names, HasNoControls name.toList

section

variable {shape : Shape} {cause : Cause}

theorem Cause.describe_invalidType (found : Found) (expected : Expected) :
    (Cause.invalidType found expected).describe =
      "invalid type: " ++ found.describe ++ ", expected " ++ expected.describe :=
  rfl

theorem Cause.describe_invalidLength (found due : Nat) (record : String) :
    (Cause.invalidLength found due record).describe =
      "invalid length " ++ found.repr ++ ", expected struct " ++ record ++ " with " ++ due.repr ++
        (if due = 1 then " element" else " elements") :=
  rfl

theorem Cause.describe_missingField (name : String) :
    (Cause.missingField name).describe = "missing field `" ++ name ++ "`" :=
  rfl

theorem Cause.describe_duplicateField (name : String) :
    (Cause.duplicateField name).describe = "duplicate field `" ++ name ++ "`" :=
  rfl

theorem Cause.hasNoControls_describe (ht : shape.IsTellable)
    (hn : cause.SpeaksOf shape.name shape.names) : HasNoControls cause.describe.toList := by
  have hq : HasNoControls "`".toList := by decide +kernel
  cases cause with
  | invalidType found expected =>
    have hf : HasNoControls "invalid type: ".toList := by decide +kernel
    have hm : HasNoControls ", expected ".toList := by decide +kernel
    have he : HasNoControls expected.describe.toList := by
      cases expected with
      | text => decide +kernel
      | number => decide +kernel
      | record name =>
        have hs : HasNoControls "struct ".toList := by decide +kernel
        cases hn
        simp only [Expected.describe, String.toList_append, hasNoControls_append_iff]
        exact ⟨hs, ht.name⟩
    simp only [describe_invalidType, String.toList_append, hasNoControls_append_iff]
    exact ⟨⟨⟨hf, found.hasNoControls_describe⟩, hm⟩, he⟩
  | invalidLength found due record =>
    cases hn
    have hf : HasNoControls "invalid length ".toList := by decide +kernel
    have hm : HasNoControls ", expected struct ".toList := by decide +kernel
    have hw : HasNoControls " with ".toList := by decide +kernel
    have he : HasNoControls (if due = 1 then " element" else " elements").toList := by
      split <;> decide +kernel
    simp only [describe_invalidLength, String.toList_append, hasNoControls_append_iff]
    exact ⟨⟨⟨⟨⟨⟨hf, hasNoControls_repr found⟩, hm⟩, ht.name⟩, hw⟩, hasNoControls_repr due⟩, he⟩
  | missingField name =>
    have hf : HasNoControls "missing field `".toList := by decide +kernel
    simp only [describe_missingField, String.toList_append, hasNoControls_append_iff]
    exact ⟨⟨hf, ht.names name hn⟩, hq⟩
  | duplicateField name =>
    have hf : HasNoControls "duplicate field `".toList := by decide +kernel
    simp only [describe_duplicateField, String.toList_append, hasNoControls_append_iff]
    exact ⟨⟨hf, ht.names name hn⟩, hq⟩
  | _ => decide +kernel

theorem Cause.endsInWord_describe (ht : shape.IsTellable)
    (hn : cause.SpeaksOf shape.name shape.names) : EndsInWord cause.describe.toList := by
  have hq : EndsInWord "`".toList := by decide +kernel
  cases cause with
  | invalidType found expected =>
    have he : EndsInWord expected.describe.toList := by
      cases expected with
      | text => decide +kernel
      | number => decide +kernel
      | record name =>
        cases hn
        rw [Expected.describe, String.toList_append]
        exact ht.lastWord.append _
    rw [describe_invalidType, String.toList_append]
    exact he.append _
  | invalidLength found due record =>
    have he : EndsInWord (if due = 1 then " element" else " elements").toList := by
      split <;> decide +kernel
    rw [describe_invalidLength, String.toList_append]
    exact he.append _
  | missingField name =>
    rw [describe_missingField, String.toList_append]
    exact hq.append _
  | duplicateField name =>
    rw [describe_duplicateField, String.toList_append]
    exact hq.append _
  | _ => decide +kernel

end

/-- How a failure to read a record from a document is told: on one line, with no names but those
that the shape declares, and with the place where the failure shows, which no text from the document
can stand in for. -/
structure Failure.IsTold (shape : Shape) (document : List UInt8) (f : Failure) : Prop where
  oneLine : HasNoControls (f.message document).toList
  ownNames : f.cause.SpeaksOf shape.name shape.names
  quoted : ∀ text expected, f.cause = .invalidType (.text text) expected →
    f.cause.describe =
      "invalid type: string " ++ Text.quoted text ++ ", expected " ++ expected.describe
  noPlace : ¬ EndsInPlace f.cause.describe
  place : ∃ i ≤ document.length, document.drop i = f.rest ∧ ∀ front line column,
    f.message document = front ++ atPlace line column ↔
      front = f.cause.describe ∧ PlaceAfter (document.take i) line column

theorem isTold_of_decode_error {shape : Shape} (ht : shape.IsTellable) {document : List UInt8}
    {f : Failure} (h : shape.decode document = .error f) : f.IsTold shape document := by
  have hi := inside_decode shape document
  rw [h] at hi
  cases hi with
  | error hr hn =>
    refine ⟨?_, hn, ?_, (Cause.endsInWord_describe ht hn).not_endsInPlace, ?_⟩
    · rw [message_eq, String.toList_append, hasNoControls_append_iff]
      exact ⟨Cause.hasNoControls_describe ht hn, hasNoControls_atPlace _ _⟩
    · intro text expected hc
      rw [hc]
      rfl
    · refine ⟨document.length - f.rest.length, Nat.sub_le _ _, ?_, ?_⟩
      · exact (List.suffix_iff_eq_drop.mp hr).symm
      · intro front line column
        rw [message_eq, append_atPlace_inj, placeAfter_iff, Position.mk.injEq, eq_comm]
        rfl

end PhraseSql.Json

import PhraseSql.Proofs.Json.Decimal
import PhraseSql.Proofs.Payload

namespace PhraseSql

open Number Json

namespace Json

section

variable {units v : Nat} {d : Decimal} {sign token : List UInt8}

theorem Literal.unpointed (h : Literal d token) (hs : sign ∈ [[], [minus]]) :
    Unpointed (sign ++ token) (Layout.document.significand d) (Layout.document.power d) := by
  obtain ⟨hw, hf, he, hd, hp, -⟩ := h
  rw [← hd, ← hp]
  exact .parts hs hw hf he

theorem Literal.readNumeral (h : Literal d token) (hs : sign ∈ [[], [minus]])
    (hr : Rereads units d v) (hg : OnGrid v) :
    ∃ whole?, Json.readNumeral (sign ++ token) =
      .ok (⟨⟨sign = [minus], v, hr.lt, hg⟩, whole?⟩, []) := by
  obtain @⟨whole, fraction, exponent, hw, hf, he, hd, hp, hx⟩ := h
  have hl : Fits (Layout.document.significand d) := by
    have hs := hr.significand
    have hm : 10 ^ mostDigits + 9 < significandLimit := by decide
    rw [Fits]
    omega
  have hx : (exponentAmount exponent).natAbs < exponentLimit := by
    have he := hr.exponent
    have hm : 2 * largestPower + mostDigits < exponentLimit := by decide
    rcases hx with hx | hx <;> rw [hx] <;> omega
  obtain ⟨whole?, hn⟩ := readNumeral_parts hs hw hf he (hd ▸ hl) hx
  rw [hd, hp, finish, @ofScaled?_eq_some _ _ ⟨sign = [minus], v, hr.lt, hg⟩ hr.scaled] at hn
  exact ⟨whole?, hn⟩

end

end Json

theorem bytes_write (x : Binary64) :
    bytes (Layout.document.write x).toList = (if x.negative then [minus] else []) ++
      bytes (Layout.document.decimal (.shortest .even x.units)) := by
  rw [Layout.write, String.toList_ofList]
  split <;> rfl

/-- What a number comes back as when its text is read: the significand and the power of ten of the
text, each rounded before they meet. It has the sign of the number and is near, and is the number
itself if neither the significand nor the power has to be rounded. -/
structure Binary64.RereadAs (x y : Binary64) : Prop where
  negative : y.negative = x.negative
  near : IsNear x.units y.units
  read : ∃ significand power,
    (∀ significand' power',
      Unpointed (bytes (Layout.document.write x).toList) significand' power' ↔
        significand' = significand ∧ power' = power) ∧
    scaled? significand power = some y.units ∧
    (significand ≤ 1 <<< 53 → power.natAbs ≤ 22 → y = x)

theorem exists_rereadAs (x : Binary64) :
    ∃ y, Kind.Denotes .number (bytes (Kind.write .number x)) y ∧ x.RereadAs y := by
  obtain ⟨v, h⟩ := exists_rereads x.onGrid x.lt_overflow
  have hg := onGrid_of_scaled? h.scaled
  have hl := literal_shortest x.onGrid
  have hs : (if x.negative then [minus] else []) ∈ [[], [minus]] := by
    cases x.negative <;> simp
  have hu := hl.unpointed hs
  obtain ⟨whole?, hn⟩ := hl.readNumeral hs h hg
  have hneg : decide ((if x.negative then [minus] else []) = [minus]) = x.negative := by
    cases x.negative <;> rfl
  rw [← bytes_write] at hu hn
  refine ⟨_, ⟨whole?, hn⟩, hneg, h.near, _, _, ?_, h.scaled, ?_⟩
  · intro significand' power'
    constructor
    · exact fun hp => hp.unique hu
    · rintro ⟨rfl, rfl⟩
      exact hu
  · intro hle hpow
    obtain rfl := h.exact hle hpow
    rw [Binary64.mk.injEq]
    exact ⟨hneg, rfl⟩

structure Answer.RereadAs (r s : Answer) : Prop where
  sql : s.sql = r.sql
  explanation : s.explanation = r.explanation
  confidence : r.confidence.RereadAs s.confidence

theorem answer_rereadAs (r : Answer) :
    ∃ s, Answer.decode (Text.octets r.encode) = .ok s ∧ r.RereadAs s := by
  obtain ⟨confidence, hc, hr⟩ := exists_rereadAs r.confidence
  have ha : Row.ReadsAs Answer.shape.fields r.toRow (r.sql, r.explanation, confidence, ()) :=
    ⟨readsBack_text r.sql, readsBack_text r.explanation, hc, trivial⟩
  exact ⟨⟨r.sql, r.explanation, confidence⟩,
    answer_decode_iff.mpr (document_write_of_readsAs (by decide) ha), rfl, rfl, hr⟩

def Answer.isKept (r : Answer) : Bool :=
  (Answer.decode (Text.octets r.encode)).toOption.any fun s => r.same s

theorem Answer.isKept_iff {r : Answer} :
    r.isKept = true ↔ ∃ s, Answer.decode (Text.octets r.encode) = .ok s ∧ r.same s = true := by
  rw [isKept]
  cases Answer.decode (Text.octets r.encode) <;> simp [Except.toOption]

/-- Its confidence is written as `5.0000000000000004e+32`, which reads as the number below. -/
def roundedUp : List UInt8 :=
  Text.octets "\x7b\"sql\":\"\",\"explanation\":\"\",\"confidence\":5e32\x7d"

theorem not_forall_same_decode_encode :
    ¬ ∀ document r, Answer.decode document = .ok r →
      ∃ s, Answer.decode (Text.octets r.encode) = .ok s ∧ r.same s = true := by
  intro h
  have hk : (Answer.decode roundedUp).toOption.map Answer.isKept = some false := by decide +kernel
  obtain ⟨r, hr, hf⟩ := Option.map_eq_some_iff.mp hk
  cases hd : Answer.decode roundedUp with
  | error f =>
    rw [hd] at hr
    cases hr
  | ok a =>
    rw [hd] at hr
    cases hr
    rw [Answer.isKept_iff.mpr (h _ _ hd)] at hf
    cases hf

end PhraseSql

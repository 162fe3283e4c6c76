import PhraseSql.Proofs.Json.FirstError
import PhraseSql.Proofs.Payload

namespace PhraseSql

open Json

/-- Of an object whose members hold values, a decoder tells the first thing that is wrong with its
known members. Others do not matter, wherever they are, nor does the order of those it accepts. -/
structure TellsFirstError {α : Type} (shape : Shape) (toRow : α → Row shape.fields)
    (decode : List UInt8 → Except Failure α) : Prop where
  outcome : ∀ document ms, ObjectText document ms → WellFormed shape.fields ms →
    ∀ o : Except Cause α, (decode document).mapError Failure.cause = o ↔
      Outcome shape.fields ms (o.map toRow)
  others : ∀ document document' ms ms', ObjectText document ms → ObjectText document' ms' →
    WellFormed shape.fields ms → WellFormed shape.fields ms' →
    ms.filter (IsKnown shape.fields) = ms'.filter (IsKnown shape.fields) →
    (decode document).mapError Failure.cause = (decode document').mapError Failure.cause
  order : ∀ document document' ms ms' a, ObjectText document ms → ObjectText document' ms' →
    WellFormed shape.fields ms → ms.Perm ms' → decode document = .ok a → decode document' = .ok a

theorem mapError_eq_ok_iff {α ε ε' : Type} {f : ε → ε'} {r : Except ε α} {a : α} :
    r.mapError f = .ok a ↔ r = .ok a := by
  cases r <;> simp [Except.mapError]

section

variable {shape : Shape} {α : Type} {toRow : α → Row shape.fields} {ofRow : Row shape.fields → α}

theorem mapError_map_eq_iff (hr : ∀ row, toRow (ofRow row) = row) (ha : ∀ a, ofRow (toRow a) = a)
    {r : Except Failure (Row shape.fields)} {o : Except Cause α} :
    (ofRow <$> r : Except Failure α).mapError Failure.cause = o ↔
      r.mapError Failure.cause = o.map toRow := by
  cases r with
  | error f => cases o <;> simp [Functor.map, Except.map, Except.mapError]
  | ok row =>
    cases o with
    | error cause => simp [Functor.map, Except.map, Except.mapError]
    | ok a =>
      simp only [Functor.map, Except.map, Except.mapError, Except.ok.injEq]
      constructor
      · rintro rfl
        exact (hr row).symm
      · rintro rfl
        exact ha a

theorem tellsFirstError (hr : ∀ row, toRow (ofRow row) = row) (ha : ∀ a, ofRow (toRow a) = a)
    (hd : (shape.fields.map Field.name).Nodup) :
    TellsFirstError shape toRow fun document => ofRow <$> shape.decode document := by
  have outcome {document : List UInt8} {ms : List Member} (h : ObjectText document ms)
      (hw : WellFormed shape.fields ms) (o : Except Cause α) :
      (ofRow <$> shape.decode document : Except Failure α).mapError Failure.cause = o ↔
        Outcome shape.fields ms (o.map toRow) := by
    rw [mapError_map_eq_iff hr ha, decode_outcome_iff hd h hw]
  constructor
  · intro document ms h hw o
    exact outcome h hw o
  · intro document document' ms ms' h h' hw hw' hf
    rw [outcome h hw, ← outcome_filter_iff, hf, outcome_filter_iff, ← outcome h' hw']
  · intro document document' ms ms' a h h' hw hp hdec
    have ho := (outcome h hw (.ok a)).mp (mapError_eq_ok_iff.mpr hdec)
    obtain ⟨before, text, after, hb, ht, he, rfl⟩ := h'
    apply (map_decode_iff hr ha hd).mpr
    cases ho with
    | complete hu ho =>
      exact ⟨before, openBrace :: text, after, hb,
        .object ht (occurs_of_perm hp ho) (hw.perm hp).others, he, rfl⟩

end

/-- Where the range of numbers ends, up to a small part that depends on rounding. Exponents are
counted as far as they fit into a signed word of 32 bits. -/
structure RangeEnds : Prop where
  inside : ∀ token exponent amount, Amount token exponent amount → exponent < 2 ^ 31 →
    amount ≤ 2 ^ 1024 - 2 ^ 973 → ¬ OutOfRange token
  outside : ∀ token exponent amount, Amount token exponent amount → -2 ^ 31 < exponent →
    2 ^ 1024 + 2 ^ 973 ≤ amount → OutOfRange token

def unknown : Member := ⟨"x", Text.octets "\x7b\x7d"⟩
def asked : Member := ⟨"query", Text.octets "\"a\""⟩
def askedAgain : Member := ⟨"query", Text.octets "1"⟩

theorem not_isKnown_unknown : ¬ IsKnown Question.shape.fields unknown := by
  decide

theorem textLiteral_asked : TextLiteral asked.value "a" :=
  textLiteral_octets "a"

theorem objectText_asked :
    ObjectText (Text.octets "\x7b\"x\":\x7b\x7d,\"query\":\"a\",\"query\":1\x7d")
      [unknown, asked, askedAgain] := by
  have hx : MemberText _ unknown := .named (textLiteral_octets "x") .nil .nil
  have hq : MemberText _ asked := .named (textLiteral_octets "query") .nil .nil
  have ha : MemberText _ askedAgain := .named (textLiteral_octets "query") .nil .nil
  have hm := MembersText.member (.first .nil) hx
    (.member (.later .nil .nil) hq (.member (.later .nil .nil) ha (.close .nil)))
  exact ⟨[], _, [], .nil, hm, .nil, by decide +kernel⟩

theorem wellFormed_asked : WellFormed Question.shape.fields [unknown, asked, askedAgain] := by
  have skipped : SkippedValue unknown.value := @Derives.empty .object _ .nil
  have one : NumberLiteral askedAgain.value :=
    @NumberLiteral.parts [] [0x31] _ _ (by decide)
      (.positive (by decide) (digits_cons rfl (List.forall_mem_nil _))) .absent .absent
  constructor
  · intro m hm hk
    simp only [List.mem_cons, List.not_mem_nil, or_false] at hm
    rcases hm with rfl | rfl | rfl
    · exact absurd hk not_isKnown_unknown
    · exact .text textLiteral_asked
    · exact .number one
  · exact .other skipped (.field List.mem_cons_self rfl (.field List.mem_cons_self rfl .nil))

theorem unspoiled_asked : Unspoiled Question.shape.fields ([] ++ [unknown] ++ [asked]) := by
  refine unspoiled_concat (unspoiled_concat unspoiled_nil ?_) ?_
  · intro cause hs
    exact not_isKnown_unknown hs.isKnown
  · intro cause hs
    cases hs with
    | duplicate hf hn hs =>
      obtain ⟨m, hm, he⟩ := hs
      rw [List.mem_singleton.mp hm, hn] at he
      exact absurd he (by decide)
    | mismatch hf hn hs hv hk =>
      rw [← shows_unique (.text textLiteral_asked) hv, List.mem_singleton.mp hf] at hk
      exact hk rfl
    | outOfRange hf hn hs hv => exact not_outOfRange_of_shows (.text textLiteral_asked) hv

theorem decode_first_error :
    TellsFirstError Question.shape Question.toRow Question.decode ∧
    TellsFirstError Health.shape Health.toRow Health.decode ∧
    TellsFirstError Answer.shape Answer.toRow Answer.decode ∧ RangeEnds :=
  ⟨tellsFirstError (fun _ => rfl) (fun _ => rfl) (by decide),
    tellsFirstError (fun _ => rfl) (fun _ => rfl) (by decide),
    tellsFirstError (fun _ => rfl) (fun _ => rfl) (by decide),
    fun _ _ _ => not_outOfRange_of_le, fun _ _ _ => outOfRange_of_le⟩

theorem decode_first_error_repeated :
    (Question.decode (Text.octets "\x7b\"x\":\x7b\x7d,\"query\":\"a\",\"query\":1\x7d")).mapError
      Failure.cause = .error (.duplicateField "query") := by
  apply (decode_first_error.1.outcome _ _ objectText_asked wellFormed_asked _).mpr
  refine .spoiled (m := askedAgain) rfl unspoiled_asked (.duplicate List.mem_cons_self rfl ?_)
  exact ⟨asked, List.mem_cons_of_mem _ List.mem_cons_self, rfl⟩

def WithinRange (token : List UInt8) : Prop :=
  ∃ exponent amount, Amount token exponent amount ∧ ∃ x : Binary64, amount ≤ Number.value x.units

def greatest : Binary64 where
  negative := false
  units := (1 <<< 53 - 1) <<< 2045
  lt_overflow := by decide +kernel
  onGrid := ⟨1 <<< 53 - 1, 2045, by decide +kernel, rfl⟩

def nearGreatest : List UInt8 := Text.octets "1.7976931348623157081e308"

theorem amount_nearGreatest :
    Amount nearGreatest 308 ((1 + 7976931348623157081 / 10 ^ 19) * 10 ^ (308 : ℤ)) := by
  have hw : WholePart (Text.octets "1") :=
    .positive (by decide) (digits_iff.mpr ⟨by decide, List.all_eq_true.mp (by decide)⟩)
  have hf : Fraction (Text.octets ".7976931348623157081") :=
    .present (digits_iff.mpr ⟨by decide, List.all_eq_true.mp (by decide)⟩)
  have he : Exponent (Text.octets "e308") :=
    @Exponent.present _ [] _ (by decide) (by decide)
      (digits_iff.mpr ⟨by decide, List.all_eq_true.mp (by decide)⟩)
  have whole : digitsAmount (Text.octets "1") = 1 := by decide
  have digits : digitsAmount (Text.octets "7976931348623157081") = 7976931348623157081 := by
    decide +kernel
  have fraction : fractionAmount (Text.octets ".7976931348623157081") =
      7976931348623157081 / 10 ^ 19 := by
    show (digitsAmount (Text.octets "7976931348623157081") : ℚ) / 10 ^ 19 = _
    rw [digits]
    rfl
  have exponent : exponentAmount (Text.octets "e308") = 308 := by decide +kernel
  have h := @Amount.parts [] _ _ _ (by decide) hw hf he
  rw [whole, fraction, exponent, Nat.cast_one] at h
  exact h

theorem withinRange_nearGreatest : WithinRange nearGreatest := by
  refine ⟨_, _, amount_nearGreatest, greatest, ?_⟩
  obtain ⟨q, hq, hle⟩ : ∃ q : ℕ, ((10 : ℚ) ^ 17) ^ 17 = q ∧
      17976931348623157081 * q * Number.one ≤ greatest.units := by
    refine ⟨(10 ^ 17) ^ 17, ?_, by decide +kernel⟩
    rw [Nat.cast_pow, Nat.cast_pow, Nat.cast_ofNat]
  have hp : (10 : ℚ) ^ (308 : ℤ) = 10 ^ 19 * q := by
    rw [← hq, ← pow_mul, ← pow_add]
    exact zpow_natCast 10 308
  have ha : (1 + 7976931348623157081 / 10 ^ 19 : ℚ) * (10 ^ 19 * q) = 17976931348623157081 * q := by
    ring
  rw [hp, ha, Number.value, le_div_iff₀ Number.one_cast_pos]
  exact_mod_cast hle

def nearGreatestAnswer : List UInt8 :=
  Text.octets
    "\x7b\"sql\":\"\",\"explanation\":\"\",\"confidence\":1.7976931348623157081e308\x7d"

theorem objectText_nearGreatestAnswer :
    ObjectText nearGreatestAnswer [⟨"sql", Text.octets "\"\""⟩, ⟨"explanation", Text.octets "\"\""⟩,
      ⟨"confidence", nearGreatest⟩] := by
  have sql : MemberText _ ⟨"sql", Text.octets "\"\""⟩ :=
    .named (textLiteral_octets "sql") .nil .nil
  have explanation : MemberText _ ⟨"explanation", Text.octets "\"\""⟩ :=
    .named (textLiteral_octets "explanation") .nil .nil
  have confidence : MemberText _ ⟨"confidence", nearGreatest⟩ :=
    .named (textLiteral_octets "confidence") .nil .nil
  have hm := MembersText.member (.first .nil) sql
    (.member (.later .nil .nil) explanation (.member (.later .nil .nil) confidence (.close .nil)))
  exact ⟨[], _, [], .nil, hm, .nil, by decide +kernel⟩

theorem not_forall_accepted :
    ¬ ∀ document sql explanation confidence s e,
      ObjectText document
        [⟨"sql", sql⟩, ⟨"explanation", explanation⟩, ⟨"confidence", confidence⟩] →
      TextLiteral sql s → TextLiteral explanation e → NumberLiteral confidence →
      WithinRange confidence → ∃ a, Answer.decode document = .ok a := by
  intro h
  have hd : (Answer.decode nearGreatestAnswer).isOk = false := by decide +kernel
  have ht : TextLiteral (Text.octets "\"\"") "" := ⟨[], by decide, .nil⟩
  obtain ⟨_, _, hn, -⟩ := withinRange_nearGreatest
  obtain ⟨a, ha⟩ := h _ _ _ _ _ _ objectText_nearGreatestAnswer ht ht hn.numberLiteral
    withinRange_nearGreatest
  rw [ha] at hd
  cases hd

end PhraseSql

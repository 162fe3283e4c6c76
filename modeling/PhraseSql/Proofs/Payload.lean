import PhraseSql.Payload
import PhraseSql.Proofs.Json.Message
import PhraseSql.Proofs.Json.Written

namespace PhraseSql

open Json

theorem map_decode_iff {shape : Shape} {α : Type} {toRow : α → Row shape.fields}
    {ofRow : Row shape.fields → α} (hr : ∀ row, toRow (ofRow row) = row)
    (ha : ∀ a, ofRow (toRow a) = a) (hd : (shape.fields.map Field.name).Nodup)
    {document : List UInt8} {a : α} :
    (ofRow <$> shape.decode document : Except Failure α) = .ok a ↔
      shape.Document (toRow a) document := by
  rw [← decode_eq_ok_iff hd]
  cases shape.decode document with
  | error f => simp [Functor.map, Except.map]
  | ok row =>
    simp only [Functor.map, Except.map, Except.ok.injEq]
    constructor
    · rintro rfl
      exact (hr row).symm
    · rintro rfl
      exact ha a

theorem question_decode_iff {document : List UInt8} {q : Question} :
    Question.decode document = .ok q ↔ Question.shape.Document q.toRow document :=
  map_decode_iff (fun _ => rfl) (fun _ => rfl) (by decide)

theorem health_decode_iff {document : List UInt8} {h : Health} :
    Health.decode document = .ok h ↔ Health.shape.Document h.toRow document :=
  map_decode_iff (fun _ => rfl) (fun _ => rfl) (by decide)

theorem answer_decode_iff {document : List UInt8} {a : Answer} :
    Answer.decode document = .ok a ↔ Answer.shape.Document a.toRow document :=
  map_decode_iff (fun _ => rfl) (fun _ => rfl) (by decide)

theorem document_question {blanks token : List UInt8} {query : String} (h : Blanks blanks)
    (ht : TextLiteral token query) :
    Question.shape.Document (Question.toRow ⟨query⟩)
      (openBrace :: (Text.octets "\"query\"" ++ colon :: (blanks ++ (token ++ [closeBrace])))) := by
  have hm : MembersText true ([] ++ (Text.octets "\"query\"" ++ ([] ++ colon :: (blanks ++ token)) ++
      ([] ++ [closeBrace]))) [⟨"query", token⟩] :=
    .member (.first .nil) (.named (textLiteral_octets "query") .nil h) (.close .nil)
  have ho : Row.Occurs [⟨"query", token⟩] Question.shape.fields (Question.toRow ⟨query⟩) :=
    ⟨⟨token, rfl, ht⟩, trivial⟩
  refine ⟨[], _, [], .nil, .object hm ho (.field List.mem_cons_self rfl .nil), .nil, ?_⟩
  simp only [List.nil_append, List.append_nil, List.append_assoc, List.cons_append]

theorem decode_error_of_map {shape : Shape} {α : Type} {ofRow : Row shape.fields → α}
    {document : List UInt8} {f : Failure}
    (h : (ofRow <$> shape.decode document : Except Failure α) = .error f) :
    shape.decode document = .error f := by
  cases hd : shape.decode document with
  | error g =>
    rw [hd] at h
    cases h
    rfl
  | ok row =>
    rw [hd] at h
    cases h

theorem question_isTellable : Question.shape.IsTellable :=
  ⟨by decide +kernel, by decide +kernel, by decide +kernel⟩

theorem health_isTellable : Health.shape.IsTellable :=
  ⟨by decide +kernel, by decide +kernel, by decide +kernel⟩

theorem answer_isTellable : Answer.shape.IsTellable :=
  ⟨by decide +kernel, by decide +kernel, by decide +kernel⟩

theorem decode_failure_told (document : List UInt8) (f : Failure) :
    (Question.decode document = .error f → f.IsTold Question.shape document) ∧
    (Health.decode document = .error f → f.IsTold Health.shape document) ∧
    (Answer.decode document = .error f → f.IsTold Answer.shape document) := by
  refine ⟨?_, ?_, ?_⟩
  · intro h
    exact isTold_of_decode_error question_isTellable (decode_error_of_map h)
  · intro h
    exact isTold_of_decode_error health_isTellable (decode_error_of_map h)
  · intro h
    exact isTold_of_decode_error answer_isTellable (decode_error_of_map h)

theorem decode_failure_told_forged :
    ∃ f, Question.decode (Text.octets "\n\"a at line 9 column 9\" ") = .error f ∧
      f.message (Text.octets "\n\"a at line 9 column 9\" ") =
        "invalid type: string \"a at line 9 column 9\", expected struct QueryRequest" ++
          atPlace 2 22 ∧
      f.IsTold Question.shape (Text.octets "\n\"a at line 9 column 9\" ") := by
  have hd : Question.decode (Text.octets "\n\"a at line 9 column 9\" ") =
      .error ⟨.invalidType (.text "a at line 9 column 9") (.record "QueryRequest"), [0x20]⟩ := by
    with_unfolding_all rfl
  exact ⟨_, hd, by decide +kernel, (decode_failure_told _ _).1 hd⟩

theorem answer_decode_encode {a : Answer} (h : Kind.ReadsBack .number a.confidence) :
    Answer.decode (Text.octets a.encode) = .ok a := by
  have hr : Row.ReadsBack Answer.shape.fields a.toRow :=
    ⟨readsBack_text a.sql, readsBack_text a.explanation, h, trivial⟩
  exact answer_decode_iff.mpr (document_write (by decide) hr)

def Refusal.IsToldBy (e : Refusal) (document : List UInt8) : Prop :=
  ∃ members error message, document = openBrace :: members ∧
    MembersText true members [⟨"error", error⟩, ⟨"message", message⟩] ∧
    TextLiteral error e.error ∧ TextLiteral message e.message

theorem isToldBy_encode (e : Refusal) : e.IsToldBy (Text.octets e.encode) := by
  have hm := membersText_write Refusal.shape.fields e.toRow
  exact ⟨_, _, _, octets_write _ _, hm, textLiteral_denotes e.error, textLiteral_denotes e.message⟩

end PhraseSql

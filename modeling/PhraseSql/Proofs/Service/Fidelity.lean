import PhraseSql.Proofs.Payload
import PhraseSql.Proofs.Service.Route

namespace PhraseSql.Service

open Http Json

def questionObject (blanks : List UInt8) (query : String) : List UInt8 :=
  Text.octets "\x7b\"query\":" ++
    (blanks ++ (Text.octets (String.ofList (textLiteral query)) ++ Text.octets "\x7d"))

theorem document_questionObject {blanks : List UInt8} (h : Blanks blanks) (query : String) :
    Question.shape.Document (Question.toRow ⟨query⟩) (questionObject blanks query) := by
  have he : Text.octets "\x7b\"query\":" = openBrace :: (Text.octets "\"query\"" ++ [colon]) := by
    decide
  have hc : Text.octets "\x7d" = [closeBrace] := by decide
  have hd := document_question h (textLiteral_octets query)
  simpa only [questionObject, he, hc, List.append_assoc, List.cons_append, List.nil_append] using hd

theorem answer_decode_answer (query : String) :
    Answer.decode (Text.octets (answer query).encode) = .ok (answer query) :=
  have h : Kind.ReadsBack .number (answer query).confidence := readsBack_half
  answer_decode_encode h

theorem answer_sql (query : String) :
    (answer query).sql = "SELECT * FROM table WHERE description LIKE '%" ++ query ++ "%'" :=
  rfl

theorem answer_sql_injective {query query' : String} (h : (answer query).sql = (answer query').sql) :
    query = query' := by
  have hl := congrArg String.toList h
  simp only [answer_sql, String.toList_append, List.append_left_inj, List.append_right_inj] at hl
  exact String.toList_inj.mp hl

theorem answer_encode_injective {query query' : String}
    (h : (answer query).encode = (answer query').encode) : query = query' := by
  have hd := answer_decode_answer query
  rw [h, answer_decode_answer query'] at hd
  exact answer_sql_injective (congrArg Answer.sql (Except.ok.inj hd).symm)

theorem question_reaches_answer {d : Draft} {r : Request} {query : String} {blanks : List UInt8}
    (h : d.request? = some r) (hm : d.method = Text.octets "POST")
    (hp : r.path = Text.octets "/query") (ha : acceptsBody r = true) (hs : Blanks blanks)
    (hd : d.body = questionObject blanks query) (hb : d.body.length ≤ 2097152) :
    (serve r).response.status = 200 ∧
      Answer.decode (Text.octets (serve r).response.body) =
        .ok ⟨"SELECT * FROM table WHERE description LIKE '%" ++ query ++ "%'",
          "This is a placeholder NL2SQL service. Replace with your actual implementation.", .half⟩ := by
  obtain ⟨hw, -, hr⟩ := written_of_request? h
  have hq : Question.decode r.body = .ok ⟨query⟩ := by
    rw [hr, hd]
    exact question_decode_iff.mpr (document_questionObject hs query)
  rw [serve_answered (method_unique hw hm) hp (hr ▸ hb) (question_eq_ok_iff.mpr ⟨ha, hq⟩)]
  exact ⟨rfl, answer_decode_answer query⟩

theorem question_reaches_answer_quoted :
    (serve ⟨.post, Text.octets "/query", [], questionObject [0x20] "\"50%\""⟩).response.status =
        200 ∧
      Answer.decode (Text.octets
          (serve ⟨.post, Text.octets "/query", [], questionObject [0x20] "\"50%\""⟩).response.body) =
        .ok ⟨"SELECT * FROM table WHERE description LIKE '%\"50%\"%'",
          "This is a placeholder NL2SQL service. Replace with your actual implementation.", .half⟩ := by
  have h : Draft.request? ⟨Text.octets "POST", Text.octets "/query", [],
      questionObject [0x20] "\"50%\""⟩ =
        some ⟨.post, Text.octets "/query", [], questionObject [0x20] "\"50%\""⟩ := rfl
  exact question_reaches_answer h rfl rfl rfl .space rfl (by decide)

theorem question_of_status {r : Request} (hm : r.method = .post)
    (hp : r.path = Text.octets "/query") (hs : (serve r).response.status = 200) :
    ∃ q, Question.decode r.body = .ok q ∧ serve r = delivered (answerReply q) := by
  by_cases hb : mostBodyBytes < r.body.length
  · rw [serve_query hm hp, if_pos hb] at hs
    cases hs
  · have hb := Nat.not_lt.mp hb
    cases hq : question r with
    | ok q => exact ⟨q, (question_eq_ok_iff.mp hq).2, serve_answered hm hp hb hq⟩
    | error e =>
      have he := (serve_refuses hm hp hb hq).status
      rw [hs] at he
      cases he

theorem reply_eq_iff_query_eq {d d' : Draft} {r r' : Request} (h : d.request? = some r)
    (h' : d'.request? = some r') (hm : d.method = Text.octets "POST")
    (hm' : d'.method = Text.octets "POST") (hp : r.path = Text.octets "/query")
    (hp' : r'.path = Text.octets "/query") (hs : (serve r).response.status = 200)
    (hs' : (serve r').response.status = 200) :
    ∃ q q', Question.decode d.body = .ok q ∧ Question.decode d'.body = .ok q' ∧
      (serve r = serve r' ↔ q = q') ∧
      ((serve r).response.body = (serve r').response.body ↔ q = q') := by
  obtain ⟨hw, -, hr⟩ := written_of_request? h
  obtain ⟨hw', -, hr'⟩ := written_of_request? h'
  obtain ⟨q, hq, he⟩ := question_of_status (method_unique hw hm) hp hs
  obtain ⟨q', hq', he'⟩ := question_of_status (method_unique hw' hm') hp' hs'
  rw [hr] at hq
  rw [hr'] at hq'
  have hb : (serve r).response.body = (serve r').response.body → q = q' := by
    intro hb
    rw [he, he'] at hb
    exact congrArg Question.mk (answer_encode_injective hb)
  refine ⟨q, q', hq, hq', ⟨fun hx => hb (by rw [hx]), ?_⟩, ⟨hb, ?_⟩⟩
  · rintro rfl
    rw [he, he']
  · rintro rfl
    rw [he, he']

theorem reply_eq_iff_query_eq_list :
    ∃ q q', Question.decode (questionObject [] "a") = .ok q ∧
      Question.decode (Text.octets "[\"a\"]") = .ok q' ∧
      (serve ⟨.post, Text.octets "/query", [], questionObject [] "a"⟩ =
          serve ⟨.post, Text.octets "/query", [], Text.octets "[\"a\"]"⟩ ↔ q = q') ∧
      ((serve ⟨.post, Text.octets "/query", [], questionObject [] "a"⟩).response.body =
          (serve ⟨.post, Text.octets "/query", [], Text.octets "[\"a\"]"⟩).response.body ↔
        q = q') := by
  have h : Draft.request? ⟨Text.octets "POST", Text.octets "/query", [], questionObject [] "a"⟩ =
      some ⟨.post, Text.octets "/query", [], questionObject [] "a"⟩ := rfl
  have h' : Draft.request? ⟨Text.octets "POST", Text.octets "/query?b", [], Text.octets "[\"a\"]"⟩ =
      some ⟨.post, Text.octets "/query", [], Text.octets "[\"a\"]"⟩ := rfl
  exact reply_eq_iff_query_eq h h' rfl rfl rfl rfl (by decide +kernel) (by decide +kernel)

end PhraseSql.Service

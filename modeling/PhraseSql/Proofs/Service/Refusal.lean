import PhraseSql.Proofs.Service.Envelope
import PhraseSql.Proofs.Service.Fidelity

namespace PhraseSql.Service

open Http Json

structure IsTooLong (r : Response) : Prop where
  status : r.status = 413
  type : r.valuesOf "content-type" = ["text/plain; charset=utf-8"]
  body : r.body = "Failed to buffer the request body: length limit exceeded"

def AsksQuestion (document : List UInt8) : Prop :=
  ∃ q : Question, Question.shape.Document q.toRow document

theorem isTooLong_delivered : IsTooLong (delivered tooLongReply).response where
  status := rfl
  type := (type_delivered tooLongReply).trans (Response.valuesOf_type _ _ _)
  body := rfl

theorem exists_question_iff {r : Request} :
    (∃ q, question r = .ok q) ↔ acceptsBody r = true ∧ AsksQuestion r.body := by
  simp only [question_eq_ok_iff, question_decode_iff, exists_and_left, AsksQuestion]

theorem request?_post_query (body : List UInt8) :
    Draft.request? ⟨Text.octets "POST", Text.octets "/query", [], body⟩ =
      some ⟨.post, Text.octets "/query", [], body⟩ := by
  have hm : Method.ofToken? (Text.octets "POST") = some .post := rfl
  have hp : targetPath? (Text.octets "/query") = some (Text.octets "/query") := rfl
  have ht : areTooMany [] = false := rfl
  simp [Draft.request?, hm, hp, ht]

theorem post_query_outcome {d : Draft} {r : Request} (h : d.request? = some r)
    (hm : d.method = Text.octets "POST") (hp : r.path = Text.octets "/query") :
    (d.body.length ≤ 2097152 →
      (acceptsBody r = true ∧ AsksQuestion d.body → (serve r).response.status = 200) ∧
      (¬ (acceptsBody r = true ∧ AsksQuestion d.body) →
        ∃ message, (serve r).Refuses message)) ∧
    (2097152 < d.body.length → IsTooLong (serve r).response) := by
  obtain ⟨hw, -, hr⟩ := written_of_request? h
  have hpost : r.method = .post := method_unique hw hm
  rw [← hr, ← exists_question_iff]
  constructor
  · intro hb
    constructor
    · rintro ⟨q, hq⟩
      rw [serve_answered hpost hp hb hq]
      rfl
    · intro hn
      cases hq : question r with
      | ok q => exact absurd ⟨q, hq⟩ hn
      | error e => exact ⟨e.message, serve_refuses hpost hp hb hq⟩
  · intro (hb : mostBodyBytes < r.body.length)
    rw [serve_query hpost hp, if_pos hb]
    exact isTooLong_delivered

theorem post_query_outcome_blank :
    (serve ⟨.post, Text.octets "/query", [], questionObject [0x20] "a"⟩).response.status = 200 := by
  have h := request?_post_query (questionObject [0x20] "a")
  have ha : AsksQuestion (questionObject [0x20] "a") :=
    ⟨⟨"a"⟩, document_questionObject .space "a"⟩
  exact ((post_query_outcome h rfl rfl).1 (by decide)).1 ⟨rfl, ha⟩

theorem lt_length_questionObject (blanks : List UInt8) (query : String) :
    blanks.length < (questionObject blanks query).length := by
  have hq : 0 < (Text.octets "\x7b\"query\":").length := by decide
  simp only [questionObject, List.length_append]
  omega

theorem not_forall_answered_or_refused :
    ¬ ∀ (d : Draft) (r : Request), d.request? = some r → d.method = Text.octets "POST" →
      r.path = Text.octets "/query" → acceptsBody r = true → AsksQuestion d.body →
      (serve r).response.status = 200 ∨ (serve r).response.status = 422 := by
  intro h
  let blanks : List UInt8 := List.replicate 2097152 0x20
  let r : Request := ⟨.post, Text.octets "/query", [], questionObject blanks "a"⟩
  have hs : Blanks blanks := by
    intro b hb
    exact .inl (List.eq_of_mem_replicate hb)
  have hl : mostBodyBytes < r.body.length := by
    have hl := lt_length_questionObject blanks "a"
    rwa [List.length_replicate] at hl
  have ht : (serve r).response.status = 413 := by
    rw [serve_query rfl rfl, if_pos hl]
    rfl
  have hn := h _ r (request?_post_query _) rfl rfl rfl ⟨⟨"a"⟩, document_questionObject hs "a"⟩
  rw [ht] at hn
  exact absurd hn (by decide)

end PhraseSql.Service

import PhraseSql.Proofs.Service.Route

namespace PhraseSql.Service

open Http Json

structure Reply.Answers (reply : Reply) (query : String) : Prop where
  status : reply.response.status = 200
  type : reply.response.valuesOf "content-type" = ["application/json"]
  body : ∃ members sql explanation, Text.octets reply.response.body = openBrace :: members ∧
    MembersText true members
      [⟨"sql", sql⟩, ⟨"explanation", explanation⟩, ⟨"confidence", Text.octets "0.5"⟩] ∧
    TextLiteral sql ("SELECT * FROM table WHERE description LIKE '%" ++ query ++ "%'") ∧
    TextLiteral explanation
      "This is a placeholder NL2SQL service. Replace with your actual implementation."
  events : reply.events =
    [⟨.debug, "nl2sql_service::handlers", "Query endpoint called with query: " ++ query⟩]

theorem answers_delivered (q : Question) : (delivered (answerReply q)).Answers q.query where
  status := rfl
  type := (type_delivered (answerReply q)).trans (Response.valuesOf_type _ _ _)
  body := by
    have hc : (Kind.write .number .half).flatMap String.utf8EncodeChar = Text.octets "0.5" := by
      rw [write_half]
      rfl
    have hm := membersText_write Answer.shape.fields (answer q.query).toRow
    refine ⟨_, _, _, octets_write _ _, ?_, textLiteral_denotes _, textLiteral_denotes _⟩
    rw [← hc]
    exact hm
  events := rfl

structure Dispatched (r : Request) (method path : List UInt8) (reply : Reply) : Prop where
  options : method = Text.octets "OPTIONS" → reply.Says 200 "" []
  health : method ∈ ["GET", "HEAD"].map Text.octets → path = Text.octets "/health" →
    reply.Says 200 (if method = Text.octets "HEAD" then ""
        else "\x7b\"status\":\"ok\",\"service\":\"nl2sql-service\"\x7d")
      [⟨.debug, "nl2sql_service::handlers", "Health check endpoint called"⟩]
  healthOnly : method ∉ ["GET", "HEAD", "OPTIONS"].map Text.octets →
    path = Text.octets "/health" → reply.Says 405 "" [] ∧ allowedBy reply.response = ["GET,HEAD"]
  answered : method = Text.octets "POST" → path = Text.octets "/query" → acceptsBody r = true →
    ∀ q, Question.decode r.body = .ok ⟨q⟩ → reply.Answers q
  wrongBody : method = Text.octets "POST" → path = Text.octets "/query" → acceptsBody r = true →
    ∀ f, Question.decode r.body = .error f → reply.Refuses (f.message r.body)
  wrongType : method = Text.octets "POST" → path = Text.octets "/query" → acceptsBody r = false →
    reply.Refuses "Expected request with `Content-Type: application/json`"
  queryOnly : method ∉ ["POST", "OPTIONS"].map Text.octets → path = Text.octets "/query" →
    reply.Says 405 "" [] ∧ allowedBy reply.response = ["POST"]
  unknown : method ≠ Text.octets "OPTIONS" → path ∉ ["/health", "/query"].map Text.octets →
    reply.Says 404 "" []

theorem method_ne_of_not_mem {m : Method} {name : String} {names : List String}
    {token : List UInt8} (h : ∀ token, m.IsWritten token → token = Text.octets name)
    (hn : name ∈ names) {m' : Method} (hm : m'.IsWritten token)
    (ht : token ∉ names.map Text.octets) : m' ≠ m := by
  rintro rfl
  rw [h token hm] at ht
  exact ht (List.mem_map_of_mem hn)

theorem serve_dispatched {d : Draft} {r : Request} (h : d.request? = some r)
    (hb : d.body.length ≤ 2097152) :
    RawPath d.target r.path ∧ Dispatched r d.method r.path (serve r) := by
  obtain ⟨hm, hp, hd⟩ := written_of_request? h
  rw [← hd] at hb
  refine ⟨hp, ?_⟩
  constructor
  case options =>
    intro ho
    exact serve_options (method_unique hm ho)
  case health =>
    intro hg hp
    exact serve_health hm hg hp
  case healthOnly =>
    intro hn hp
    have hg := method_ne_of_not_mem (m := .get) (fun _ h => h) (by simp) hm hn
    have hh := method_ne_of_not_mem (m := .head) (fun _ h => h) (by simp) hm hn
    have ho := method_ne_of_not_mem (m := .options) (fun _ h => h) (by simp) hm hn
    refine serve_refused ho ?_ (health_reply?_eq_none hg hh)
    rw [hp]
    exact ofPath?_health
  case answered =>
    intro ho hp ha q hq
    rw [serve_answered (method_unique hm ho) hp hb (question_eq_ok_iff.mpr ⟨ha, hq⟩)]
    exact answers_delivered ⟨q⟩
  case wrongBody =>
    intro ho hp ha f hf
    refine serve_refuses (method_unique hm ho) hp hb (e := ⟨f.message r.body⟩) ?_
    rw [question, if_pos ha, hf]
    rfl
  case wrongType =>
    intro ho hp ha
    refine serve_refuses (method_unique hm ho) hp hb (e := ⟨_⟩) ?_
    rw [question, if_neg (by simp [ha])]
  case queryOnly =>
    intro hn hp
    have hq := method_ne_of_not_mem (m := .post) (fun _ h => h) (by simp) hm hn
    have ho := method_ne_of_not_mem (m := .options) (fun _ h => h) (by simp) hm hn
    refine serve_refused ho ?_ (query_reply?_eq_none hq)
    rw [hp]
    exact ofPath?_query
  case unknown =>
    intro hn hp
    have ho : r.method ≠ .options := by
      intro ho
      rw [ho] at hm
      exact hn hm
    exact serve_unknown ho (ofPath?_unknown hp)

theorem serve_dispatched_posted :
    (serve ⟨.post, Text.octets "/query", [], Text.octets "[\"a\"]"⟩).Says 200
        ("\x7b\"sql\":\"SELECT * FROM table WHERE description LIKE '%a%'\"," ++
          "\"explanation\":\"This is a placeholder NL2SQL service. " ++
          "Replace with your actual implementation.\",\"confidence\":0.5\x7d")
        [⟨.debug, "nl2sql_service::handlers", "Query endpoint called with query: a"⟩] ∧
      (serve ⟨.post, Text.octets "/query", [⟨"content-type", Text.octets "text/plain"⟩],
          Text.octets "[\"a\"]"⟩).Says 422
        ("\x7b\"error\":\"VALIDATION_ERROR\"," ++
          "\"message\":\"Expected request with `Content-Type: application/json`\"\x7d")
        [⟨.debug, "nl2sql_service::error", "Request validation failed: " ++
          "Expected request with `Content-Type: application/json`"⟩] := by
  have h : Draft.request? ⟨Text.octets "POST", Text.octets "/query?b", [], Text.octets "[\"a\"]"⟩ =
      some ⟨.post, Text.octets "/query", [], Text.octets "[\"a\"]"⟩ := rfl
  have h' : Draft.request? ⟨Text.octets "POST", Text.octets "/query",
      [(Text.octets "Content-Type", Text.octets "text/plain")], Text.octets "[\"a\"]"⟩ =
        some ⟨.post, Text.octets "/query", [⟨"content-type", Text.octets "text/plain"⟩],
          Text.octets "[\"a\"]"⟩ := rfl
  have hd : Question.decode (Text.octets "[\"a\"]") = .ok ⟨"a"⟩ := by
    with_unfolding_all rfl
  have ha := (serve_dispatched h (by decide)).2.answered rfl rfl rfl "a" hd
  have hr := (serve_dispatched h' (by decide)).2.wrongType rfl rfl (by decide)
  exact ⟨⟨ha.status, by decide +kernel, ha.events⟩, hr.status, by decide +kernel, hr.events⟩

end PhraseSql.Service

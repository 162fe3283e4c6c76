import PhraseSql.Proofs.Http.Request
import PhraseSql.Proofs.Service.Told
import PhraseSql.Service.Router

namespace PhraseSql.Service

open Http

def allowedBy (r : Response) : List String :=
  (r.headers.filter (·.1 = "allow")).map Prod.snd

def Reply.Says (reply : Reply) (status : Nat) (body : String) (events : List Log.Event) : Prop :=
  reply.response.status = status ∧ reply.response.body = body ∧ reply.events = events

theorem allowedBy_withHeader_of_ne {name : String} (h : name ≠ "allow") (r : Response)
    (value : String) : allowedBy (r.withHeader name value) = allowedBy r :=
  Response.valuesOf_withHeader_of_ne h r value

theorem fallback_body (r : Request) : (fallback r).body = "" := by
  unfold fallback notFoundResponse
  split
  · rfl
  · split <;> rfl

theorem serve_options {r : Request} (h : r.method = .options) : (serve r).Says 200 "" [] := by
  rw [serve, if_pos h]
  exact ⟨rfl, fallback_body r, rfl⟩

section Routes

variable {r : Request} (hm : r.method ≠ .options)
include hm

theorem says_serve_iff {status : Nat} {body : String} {events : List Log.Event} :
    (serve r).Says status body events ↔ (route r).Says status body events := by
  rw [serve, if_neg hm]
  exact Iff.rfl

theorem serve_allowedBy : allowedBy (serve r).response = allowedBy (route r).response := by
  rw [serve, if_neg hm]
  simp only [openToAll]
  rw [allowedBy_withHeader_of_ne (by decide), allowedBy_withHeader_of_ne (by decide),
    allowedBy_withHeader_of_ne (by decide)]

theorem serve_refused {endpoint : Endpoint} (hp : Endpoint.ofPath? r.path = some endpoint)
    (hn : endpoint.reply? r = none) :
    (serve r).Says 405 "" [] ∧ allowedBy (serve r).response = [endpoint.allowed] := by
  have hr : route r = ⟨fallback r, []⟩ := by
    simp only [route, hp, Option.bind_eq_bind, Option.bind_some, hn]
  have hf : fallback r = (Response.empty 405).withLength.withHeader "allow" endpoint.allowed := by
    simp only [fallback, hp]
  rw [says_serve_iff hm, serve_allowedBy hm, hr, hf]
  exact ⟨⟨rfl, rfl, rfl⟩, by cases endpoint <;> decide +kernel⟩

theorem serve_unknown (hp : Endpoint.ofPath? r.path = none) : (serve r).Says 404 "" [] := by
  have hr : route r = ⟨fallback r, []⟩ := by
    simp only [route, hp, Option.bind_eq_bind, Option.bind_none]
  rw [says_serve_iff hm, hr]
  refine ⟨?_, fallback_body r, rfl⟩
  simp only [fallback, hp, notFoundResponse]
  split <;> rfl

theorem serve_endpoint {endpoint : Endpoint} {reply : Reply}
    (hp : Endpoint.ofPath? r.path = some endpoint) (hr : endpoint.reply? r = some reply)
    {status : Nat} {body : String} {events : List Log.Event} :
    (serve r).Says status body events ↔ reply.Says status body events := by
  have hr : route r = reply := by
    simp only [route, hp, Option.bind_eq_bind, Option.bind_some, hr]
  rw [says_serve_iff hm, hr]

end Routes

theorem ofPath?_health : Endpoint.ofPath? (Text.octets "/health") = some .health :=
  if_pos rfl

theorem ofPath?_query : Endpoint.ofPath? (Text.octets "/query") = some .query := by
  decide

theorem ofPath?_unknown {path : List UInt8} (h : path ∉ ["/health", "/query"].map Text.octets) :
    Endpoint.ofPath? path = none := by
  simp only [List.map_cons, List.map_nil, List.mem_cons, List.not_mem_nil, or_false, not_or] at h
  rw [Endpoint.ofPath?, if_neg h.1, if_neg h.2]

theorem exists_endpoint {path : List UInt8} (h : path ∈ ["/health", "/query"].map Text.octets) :
    ∃ endpoint, Endpoint.ofPath? path = some endpoint := by
  simp only [List.map_cons, List.map_nil, List.mem_cons, List.not_mem_nil, or_false] at h
  rcases h with rfl | rfl
  · exact ⟨.health, ofPath?_health⟩
  · exact ⟨.query, ofPath?_query⟩

theorem health_reply?_eq_none {r : Request} (hg : r.method ≠ .get) (hh : r.method ≠ .head) :
    Endpoint.health.reply? r = none := by
  cases hm : r.method with
  | get => exact absurd hm hg
  | head => exact absurd hm hh
  | post | options | other => simp only [Endpoint.reply?, hm]

theorem query_reply?_eq_none {r : Request} (hp : r.method ≠ .post) :
    Endpoint.query.reply? r = none := by
  cases hm : r.method with
  | post => exact absurd hm hp
  | get | head | options | other => simp only [Endpoint.reply?, hm]

theorem question_eq_ok_iff {r : Request} {q : Question} :
    question r = .ok q ↔ acceptsBody r = true ∧ Question.decode r.body = .ok q := by
  constructor
  · intro h
    unfold question at h
    split at h
    · rename_i ha
      cases hd : Question.decode r.body with
      | error f =>
        rw [hd] at h
        cases h
      | ok q' =>
        rw [hd] at h
        cases h
        exact ⟨ha, rfl⟩
    · cases h
  · rintro ⟨ha, h⟩
    rw [question, if_pos ha, h]
    rfl

def delivered (reply : Reply) : Reply :=
  { reply with response :=
      openToAll (reply.response.withLength.withHeader "access-control-expose-headers" "*") }

theorem type_delivered (reply : Reply) :
    (delivered reply).response.valuesOf "content-type" = reply.response.valuesOf "content-type" := by
  simp only [delivered, openToAll, Response.withLength]
  iterate 4 rw [Response.valuesOf_withHeader_of_ne (by decide)]

theorem refuses_delivered {reply : Reply} {message : String} (h : reply.Refuses message) :
    (delivered reply).Refuses message where
  status := h.status
  type := (type_delivered reply).trans h.type
  noRaw := h.noRaw
  body := h.body
  events := h.events

theorem serve_query {r : Request} (hm : r.method = .post) (hp : r.path = Text.octets "/query") :
    serve r = delivered (if mostBodyBytes < r.body.length then tooLongReply else queryReply r) := by
  have hn : r.method ≠ .options := by
    rw [hm]
    decide
  rw [serve, if_neg hn]
  simp only [route, hp, ofPath?_query, Option.bind_eq_bind, Option.bind_some, Endpoint.reply?, hm]
  rfl

theorem serve_answered {r : Request} (hm : r.method = .post) (hp : r.path = Text.octets "/query")
    (hb : r.body.length ≤ mostBodyBytes) {q : Question} (h : question r = .ok q) :
    serve r = delivered (answerReply q) := by
  rw [serve_query hm hp, if_neg (Nat.not_lt.mpr hb), queryReply, h]

theorem serve_refuses {r : Request} (hm : r.method = .post) (hp : r.path = Text.octets "/query")
    (hb : r.body.length ≤ mostBodyBytes) {e : ValidationError} (h : question r = .error e) :
    (serve r).Refuses e.message := by
  rw [serve_query hm hp, if_neg (Nat.not_lt.mpr hb), queryReply, h]
  exact refuses_delivered (refuses_reply e)

theorem health_encode_ok :
    Health.ok.encode = "\x7b\"status\":\"ok\",\"service\":\"nl2sql-service\"\x7d" := by
  decide +kernel

theorem serve_health {r : Request} {method : List UInt8} (hm : r.method.IsWritten method)
    (hg : method ∈ ["GET", "HEAD"].map Text.octets) (hp : r.path = Text.octets "/health") :
    (serve r).Says 200 (if method = Text.octets "HEAD" then ""
        else "\x7b\"status\":\"ok\",\"service\":\"nl2sql-service\"\x7d")
      [⟨.debug, "nl2sql_service::handlers", "Health check endpoint called"⟩] := by
  have hp' : Endpoint.ofPath? r.path = some .health := by
    rw [hp]
    exact ofPath?_health
  simp only [List.map_cons, List.map_nil, List.mem_cons, List.not_mem_nil, or_false] at hg
  rcases hg with rfl | rfl
  · have hm : r.method = .get := method_unique hm rfl
    have hr : Endpoint.health.reply? r =
        some { healthReply with response := healthReply.response.withLength } := by
      simp only [Endpoint.reply?, hm]
    rw [if_neg (by decide), serve_endpoint (by simp [hm]) hp' hr]
    exact ⟨rfl, health_encode_ok, rfl⟩
  · have hm : r.method = .head := method_unique hm rfl
    have hr : Endpoint.health.reply? r =
        some { healthReply with response := healthReply.response.withLength.withoutBody } := by
      simp only [Endpoint.reply?, hm]
    rw [if_pos rfl, serve_endpoint (by simp [hm]) hp' hr]
    exact ⟨rfl, rfl, rfl⟩

end PhraseSql.Service

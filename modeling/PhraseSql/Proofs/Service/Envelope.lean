import PhraseSql.Proofs.Service.Route

/-!
The headers that every response has, whichever way it was made: those for other origins, and its
length.
-/

namespace PhraseSql.Service

open Http

def innerNames : List String := ["allow", "content-length", "content-type"]

def IsInner (r : Response) : Prop := ∀ header ∈ r.headers, header.1 ∈ innerNames

theorem isInner_empty (status : Nat) : IsInner (.empty status) := by
  intro header hm
  cases hm

theorem isInner_ofType (type : String) (status : Nat) (body : String) :
    IsInner (.ofType type status body) := by
  intro header hm
  have hn : header.1 = "content-type" := congrArg Prod.fst (List.mem_singleton.mp hm)
  rw [hn]
  decide

theorem IsInner.withHeader {r : Response} (h : IsInner r) {name : String} (hn : name ∈ innerNames)
    (value : String) : IsInner (r.withHeader name value) := by
  intro header hm
  rcases Response.mem_headers_withHeader.mp hm with rfl | hm
  · exact hn
  · exact h header hm

theorem IsInner.withLength {r : Response} (h : IsInner r) : IsInner r.withLength :=
  h.withHeader (by decide) _

theorem IsInner.valuesOf_eq_nil {r : Response} (h : IsInner r) {name : String}
    (hn : name ∉ innerNames) : r.valuesOf name = [] := by
  apply Response.valuesOf_eq_nil
  rintro header hm rfl
  exact hn (h header hm)

theorem isInner_notFoundResponse (path : List UInt8) : IsInner (notFoundResponse path) := by
  unfold notFoundResponse
  split
  · exact isInner_empty 404
  · exact (isInner_empty 404).withLength

theorem isInner_fallback (r : Request) : IsInner (fallback r) := by
  unfold fallback
  split
  · exact (isInner_empty 405).withLength.withHeader (by decide) _
  · exact isInner_notFoundResponse r.path

theorem isInner_queryReply (r : Request) : IsInner (queryReply r).response := by
  unfold queryReply
  split
  · exact isInner_ofType _ _ _
  · exact isInner_ofType _ _ _

theorem isInner_reply? {endpoint : Endpoint} {r : Request} {reply : Reply}
    (h : endpoint.reply? r = some reply) : IsInner reply.response := by
  unfold Endpoint.reply? at h
  split at h
  · cases h
    exact (isInner_ofType _ _ _).withLength
  · cases h
    have hi : IsInner healthReply.response.withLength := (isInner_ofType _ _ _).withLength
    exact hi
  · cases h
    apply IsInner.withLength
    split
    · exact isInner_ofType _ _ _
    · exact isInner_queryReply r
  · cases h

theorem isInner_route (r : Request) : IsInner (route r).response := by
  unfold route
  split
  · rename_i reply h
    obtain ⟨endpoint, -, hr⟩ := Option.bind_eq_some_iff.mp h
    exact isInner_reply? hr
  · exact isInner_fallback r

def innerResponse (r : Request) : Response :=
  if r.method = .options then fallback r else (route r).response

theorem isInner_innerResponse (r : Request) : IsInner (innerResponse r) := by
  unfold innerResponse
  split
  · exact isInner_fallback r
  · exact isInner_route r

theorem serve_body (r : Request) : (serve r).response.body = (innerResponse r).body := by
  unfold serve innerResponse
  split <;> rfl

def outerNames : List String :=
  ["access-control-allow-origin", "vary", "access-control-allow-methods",
    "access-control-allow-headers", "access-control-expose-headers"]

theorem valuesOf_serve {name : String} (h : name ∉ outerNames) (r : Request) :
    (serve r).response.valuesOf name = (innerResponse r).valuesOf name := by
  simp only [outerNames, List.mem_cons, List.not_mem_nil, or_false, not_or] at h
  obtain ⟨ho, hv, hm, hh, he⟩ := h
  unfold serve innerResponse
  split
  · simp only [openToAll, preflight]
    rw [Response.valuesOf_withHeader_of_ne (Ne.symm hv), Response.valuesOf_withHeader_of_ne (Ne.symm ho),
      Response.valuesOf_withHeader_of_ne (Ne.symm hm), Response.valuesOf_withHeader_of_ne (Ne.symm hh)]
    rfl
  · simp only [openToAll]
    rw [Response.valuesOf_withHeader_of_ne (Ne.symm hv), Response.valuesOf_withHeader_of_ne (Ne.symm ho),
      Response.valuesOf_withHeader_of_ne (Ne.symm he)]

/-- The headers for other origins. A response to a preflight says what may be sent, any other one
what may be read. -/
structure IsOpenToAll (preflight : Bool) (r : Response) : Prop where
  origin : r.valuesOf "access-control-allow-origin" = ["*"]
  vary : r.valuesOf "vary" =
    ["origin, access-control-request-method, access-control-request-headers"]
  credentials : r.valuesOf "access-control-allow-credentials" = []
  maxAge : r.valuesOf "access-control-max-age" = []
  methods : r.valuesOf "access-control-allow-methods" = if preflight then ["*"] else []
  headers : r.valuesOf "access-control-allow-headers" = if preflight then ["*"] else []
  exposed : r.valuesOf "access-control-expose-headers" = if preflight then [] else ["*"]

theorem isOpenToAll_serve (r : Request) :
    IsOpenToAll (r.method = .options) (serve r).response := by
  -- None of these headers is there before, so one that is added is there once.
  have hn : ∀ name ∉ innerNames, (innerResponse r).valuesOf name = [] :=
    fun name hn => (isInner_innerResponse r).valuesOf_eq_nil hn
  unfold innerResponse at hn
  by_cases ho : r.method = .options
  · rw [if_pos ho] at hn
    rw [serve, if_pos ho, decide_eq_true ho]
    have hn' : ∀ name ∉ innerNames, { fallback r with status := 200 }.valuesOf name = [] := hn
    constructor <;>
      simp [openToAll, preflight, Response.valuesOf_withHeader_of_ne,
        Response.valuesOf_withHeader_self, hn', innerNames]
  · rw [if_neg ho] at hn
    rw [serve, if_neg ho, decide_eq_false ho]
    constructor <;>
      simp [openToAll, Response.valuesOf_withHeader_of_ne, Response.valuesOf_withHeader_self, hn,
        innerNames]

def TellsLength (r : Response) : Prop :=
  r.valuesOf "content-length" = [(Text.octets r.body).length.repr]

def LeavesLengthOpen (path : List UInt8) : Prop :=
  path.head? = some slash ∧ path ∉ ["/health", "/query"].map Text.octets

theorem tellsLength_withLength {r : Response} (h : r.valuesOf "content-length" = []) :
    TellsLength r.withLength :=
  Response.valuesOf_withHeader_self h _

theorem tellsLength_notFoundResponse {path : List UInt8} (h : path.head? ≠ some slash) :
    TellsLength (notFoundResponse path) := by
  rw [notFoundResponse, if_neg h]
  exact tellsLength_withLength rfl

theorem tellsLength_fallback {r : Request} (h : ¬ LeavesLengthOpen r.path) :
    TellsLength (fallback r) := by
  by_cases hk : r.path ∈ ["/health", "/query"].map Text.octets
  · obtain ⟨endpoint, hp⟩ := exists_endpoint hk
    simp only [fallback, hp]
    have hl : TellsLength (Response.empty 405).withLength := tellsLength_withLength rfl
    rwa [TellsLength, Response.valuesOf_withHeader_of_ne (by decide)]
  · have hs : r.path.head? ≠ some slash := fun hs => h ⟨hs, hk⟩
    simp only [fallback, ofPath?_unknown hk]
    exact tellsLength_notFoundResponse hs

theorem tellsLength_reply? {endpoint : Endpoint} {r : Request} {reply : Reply}
    (hm : r.method ≠ .head) (h : endpoint.reply? r = some reply) : TellsLength reply.response := by
  unfold Endpoint.reply? at h
  split at h
  · cases h
    exact tellsLength_withLength rfl
  · rename_i hh
    exact absurd hh hm
  · cases h
    apply tellsLength_withLength
    split
    · rfl
    · unfold queryReply
      split <;> rfl
  · cases h

theorem tellsLength_serve {r : Request} (hm : r.method ≠ .head) (h : ¬ LeavesLengthOpen r.path) :
    TellsLength (serve r).response := by
  rw [TellsLength, serve_body, valuesOf_serve (by decide)]
  unfold innerResponse
  split
  · exact tellsLength_fallback h
  · unfold route
    split
    · rename_i reply hr
      obtain ⟨endpoint, -, hr⟩ := Option.bind_eq_some_iff.mp hr
      exact tellsLength_reply? hm hr
    · exact tellsLength_fallback h

theorem length_of_leavesLengthOpen {r : Request} (h : LeavesLengthOpen r.path) :
    (serve r).response.valuesOf "content-length" = [] := by
  have hp : Endpoint.ofPath? r.path = none := ofPath?_unknown h.2
  have hi : innerResponse r = .empty 404 := by
    unfold innerResponse
    simp only [route, fallback, hp, notFoundResponse, if_pos h.1, Option.bind_eq_bind,
      Option.bind_none, ite_self]
  rw [valuesOf_serve (by decide), hi]
  rfl

def IsHeadOf (head reply : Reply) : Prop :=
  head = { reply with response := ⟨reply.response.status, reply.response.headers, ""⟩ }

theorem isHeadOf_of_body {reply : Reply} (h : reply.response.body = "") : IsHeadOf reply reply := by
  obtain ⟨⟨status, headers, body⟩, events⟩ := reply
  cases h
  rfl

theorem isHeadOf_route {r r' : Request} (hm : r.method = .head) (hm' : r'.method = .get)
    (hp : r.path = r'.path) : IsHeadOf (route r) (route r') := by
  have hf : fallback r = fallback r' := by simp only [fallback, hp]
  have hb : IsHeadOf ⟨fallback r', []⟩ ⟨fallback r', []⟩ := isHeadOf_of_body (fallback_body r')
  cases he : Endpoint.ofPath? r'.path with
  | none =>
    simp only [route, hp, he, Option.bind_eq_bind, Option.bind_none, hf]
    exact hb
  | some endpoint =>
    simp only [route, hp, he, Option.bind_eq_bind, Option.bind_some, Endpoint.reply?, hm, hm', hf]
    cases endpoint with
    | health => rfl
    | query => exact hb

theorem isHeadOf_serve {r r' : Request} (hm : r.method = .head) (hm' : r'.method = .get)
    (hp : r.path = r'.path) : IsHeadOf (serve r) (serve r') := by
  have ho : r.method ≠ .options := by
    rw [hm]
    decide
  have ho' : r'.method ≠ .options := by
    rw [hm']
    decide
  have hr : route r = { route r' with
    response := ⟨(route r').response.status, (route r').response.headers, ""⟩ } :=
      isHeadOf_route hm hm' hp
  rw [serve, if_neg ho, serve, if_neg ho', hr]
  rfl

theorem method_eq_iff {d : Draft} {r : Request} (h : d.request? = some r) {m : Method}
    {token : List UInt8} (ht : m.IsWritten token)
    (hu : ∀ token', m.IsWritten token' → token' = token) : d.method = token ↔ r.method = m := by
  obtain ⟨hw, -, -⟩ := written_of_request? h
  constructor
  · rintro rfl
    exact method_unique hw ht
  · rintro rfl
    exact hu d.method hw

theorem request?_withMethod {d : Draft} {r : Request} (h : d.request? = some r)
    {token : List UInt8} {m : Method} (hm : Method.ofToken? token = some m) :
    { d with method := token }.request? = some { r with method := m } := by
  simp only [Draft.request?, Option.bind_eq_bind, Option.bind_eq_some_iff] at h
  obtain ⟨method, -, path, hp, headers, hh, h⟩ := h
  split at h
  · cases h
  · rename_i ht
    cases h
    simp only [Draft.request?, hm, hp, hh, Option.bind_eq_bind, Option.bind_some, if_neg ht]

theorem valuesOf_eq_of_isHeadOf {head reply : Reply} (h : IsHeadOf head reply) (name : String) :
    head.response.valuesOf name = reply.response.valuesOf name := by
  rw [h]
  rfl

theorem one_length_serve {r : Request} (h : ¬ LeavesLengthOpen r.path) :
    ∃ value, (serve r).response.valuesOf "content-length" = [value] := by
  -- A HEAD response has the length of the body it leaves out, which is that of the GET response.
  by_cases hm : r.method = .head
  · let get : Request := { r with method := .get }
    have hg : get.method ≠ .head := by
      intro hg
      cases hg
    have hl : TellsLength (serve get).response := tellsLength_serve hg h
    have hh : IsHeadOf (serve r) (serve get) := isHeadOf_serve hm rfl rfl
    exact ⟨_, (valuesOf_eq_of_isHeadOf hh "content-length").trans hl⟩
  · exact ⟨_, tellsLength_serve hm h⟩

structure Enveloped (method path : List UInt8) (r : Response) : Prop where
  openToAll : IsOpenToAll (method = Text.octets "OPTIONS") r
  oneLength : ¬ LeavesLengthOpen path → ∃ value, r.valuesOf "content-length" = [value]
  length : ¬ LeavesLengthOpen path → method ≠ Text.octets "HEAD" → TellsLength r
  noLength : LeavesLengthOpen path → r.valuesOf "content-length" = []

theorem response_enveloped {d : Draft} {r : Request} (h : d.request? = some r) :
    Enveloped d.method r.path (serve r).response ∧
      (d.method = Text.octets "HEAD" →
        ∃ r', { d with method := Text.octets "GET" }.request? = some r' ∧
          IsHeadOf (serve r) (serve r')) := by
  have ho : d.method = Text.octets "OPTIONS" ↔ r.method = .options :=
    method_eq_iff h rfl fun _ ht => ht
  have hh : d.method = Text.octets "HEAD" ↔ r.method = .head :=
    method_eq_iff h rfl fun _ ht => ht
  constructor
  · constructor
    case openToAll =>
      have hs := isOpenToAll_serve r
      rwa [decide_eq_decide.mpr ho.symm] at hs
    case oneLength => exact one_length_serve
    case length => exact fun hl hm => tellsLength_serve (mt hh.mpr hm) hl
    case noLength => exact length_of_leavesLengthOpen
  · intro hm
    have hg : Method.ofToken? (Text.octets "GET") = some .get := rfl
    exact ⟨_, request?_withMethod h hg, isHeadOf_serve (hh.mp hm) rfl rfl⟩

theorem response_enveloped_head :
    Enveloped (Text.octets "HEAD") (Text.octets "/health")
        (serve ⟨.head, Text.octets "/health", [], []⟩).response ∧
      (Text.octets "HEAD" = Text.octets "HEAD" →
        ∃ r', Draft.request? ⟨Text.octets "GET", Text.octets "/health", [], []⟩ = some r' ∧
          IsHeadOf (serve ⟨.head, Text.octets "/health", [], []⟩) (serve r')) := by
  have h : Draft.request? ⟨Text.octets "HEAD", Text.octets "/health", [], []⟩ =
      some ⟨.head, Text.octets "/health", [], []⟩ := rfl
  exact response_enveloped h

theorem not_forall_tellsLength :
    ¬ ∀ (d : Draft) (r : Request), d.request? = some r → d.method ≠ Text.octets "HEAD" →
      TellsLength (serve r).response := by
  intro h
  have hr : Draft.request? ⟨Text.octets "GET", Text.octets "/nope", [], []⟩ =
      some ⟨.get, Text.octets "/nope", [], []⟩ := rfl
  have hl := h _ _ hr (by decide)
  have ho : LeavesLengthOpen (Text.octets "/nope") := ⟨rfl, by decide⟩
  rw [TellsLength, length_of_leavesLengthOpen (r := ⟨.get, Text.octets "/nope", [], []⟩) ho] at hl
  cases hl

end PhraseSql.Service

import PhraseSql.Proofs.Json.Message
import PhraseSql.Proofs.Service.Route
import PhraseSql.Proofs.Text.Trim

/-!
Which content types let the body of a question be read. The first one decides, up to its
parameters, and a body that is not read does not matter.
-/

namespace PhraseSql.Service

open Http Json

def LowersTo (bytes : List UInt8) (text : String) : Prop :=
  bytes.map (fun b => (Char.ofUInt8 b).toLower) = text.toList

instance (bytes : List UInt8) (text : String) : Decidable (LowersTo bytes text) :=
  instDecidableEqList _ _

def IsText (value : List UInt8) : Prop := ∀ b ∈ value, b = 0x09 ∨ (0x20 ≤ b ∧ b ≤ 0x7E)

def AllPadding (bytes : List UInt8) : Prop := ∀ b ∈ bytes, b = 0x20 ∨ b = 0x09

inductive IsJsonName : List UInt8 → Prop where
  | json {name : List UInt8} (h : LowersTo name "application/json") : IsJsonName name
  | builtOn {front base back : List UInt8} (hf : LowersTo front "application/")
      (hb : LowersTo back "+json") : IsJsonName (front ++ (base ++ back))

def AreParameters (bytes : List UInt8) : Prop := ∀ b ∈ bytes.head?, b = semicolon

inductive NamesJson : List UInt8 → Prop where
  | padded {before name after parameters : List UInt8} (hb : AllPadding before)
      (hn : IsJsonName name) (hs : semicolon ∉ name) (ha : AllPadding after)
      (hp : AreParameters parameters) : NamesJson (before ++ (name ++ (after ++ parameters)))

def contentTypes (headers : List (List UInt8 × List UInt8)) : List (List UInt8) :=
  (headers.filter fun header => LowersTo header.1 "content-type").map Prod.snd

inductive TakenAsDocument : List (List UInt8) → Prop where
  | untyped : TakenAsDocument []
  | typed {value : List UInt8} {more : List (List UInt8)} (ht : IsText value)
      (hn : NamesJson value) : TakenAsDocument (value :: more)

/-- Content types of which the first ones differ in no more than their parameters. -/
inductive SameType : List (List UInt8) → List (List UInt8) → Prop where
  | untyped : SameType [] []
  | first {value : List UInt8} {more more' : List (List UInt8)} :
      SameType (value :: more) (value :: more')
  | parameters {front ps ps' : List UInt8} {more more' : List (List UInt8)}
      (hp : AreParameters ps) (hp' : AreParameters ps') (ht : IsText ps) (ht' : IsText ps') :
      SameType ((front ++ ps) :: more) ((front ++ ps') :: more')

def decodedReply (body : List UInt8) : Reply :=
  delivered (match Question.decode body with
    | .ok q => answerReply q
    | .error f => ValidationError.reply ⟨f.message body⟩)

def typeRefusal : Reply :=
  delivered (ValidationError.reply ⟨"Expected request with `Content-Type: application/json`"⟩)

structure DecidedByType (headers : List (List UInt8 × List UInt8)) (body : List UInt8)
    (reply : Reply) : Prop where
  read : TakenAsDocument (contentTypes headers) → reply = decodedReply body
  refused : ¬ TakenAsDocument (contentTypes headers) → reply = typeRefusal
  toldApart : reply = typeRefusal → ¬ TakenAsDocument (contentTypes headers)

theorem isTextByte_iff {b : UInt8} :
    isTextByte b = true ↔ b = 0x09 ∨ (0x20 ≤ b ∧ b ≤ 0x7E) := by
  have hb : b < 0x7F ↔ b ≤ 0x7E := Nat.lt_succ_iff
  rw [isTextByte, Bool.or_eq_true, Bool.and_eq_true, decide_eq_true_eq, decide_eq_true_eq,
    decide_eq_true_eq, hb]

theorem isText_iff {value : List UInt8} : IsText value ↔ value.all isTextByte = true := by
  simp only [IsText, List.all_eq_true, isTextByte_iff]

theorem isPadding_iff {b : UInt8} : isPadding b = true ↔ b = 0x20 ∨ b = 0x09 := by
  rw [isPadding, Bool.or_eq_true, decide_eq_true_eq, decide_eq_true_eq]

theorem allPadding_iff {bytes : List UInt8} :
    AllPadding bytes ↔ ∀ b ∈ bytes, isPadding b = true := by
  simp only [AllPadding, isPadding_iff]

theorem ofUInt8_lowerByte (b : UInt8) :
    Char.ofUInt8 (lowerByte b) = (Char.ofUInt8 b).toLower := by
  have h : ∀ n < 256, Char.ofUInt8 (lowerByte (UInt8.ofNat n)) =
      (Char.ofUInt8 (UInt8.ofNat n)).toLower := by decide +kernel
  simpa using h b.toNat b.toNat_lt

theorem ofUInt8_injective : Function.Injective Char.ofUInt8 :=
  Function.LeftInverse.injective toUInt8_ofUInt8

theorem lowersTo_iff {bytes : List UInt8} {text : String}
    (ht : (Text.octets text).map Char.ofUInt8 = text.toList) :
    LowersTo bytes text ↔ bytes.map lowerByte = Text.octets text := by
  have hl : bytes.map (fun b => (Char.ofUInt8 b).toLower) =
      (bytes.map lowerByte).map Char.ofUInt8 := by
    rw [List.map_map]
    exact List.map_congr_left fun b _ => (ofUInt8_lowerByte b).symm
  rw [LowersTo, hl, ← ht, (List.map_injective_iff.mpr ofUInt8_injective).eq_iff]

theorem isJsonName_iff {name : List UInt8} :
    IsJsonName name ↔ ∃ subtype, Text.octets "application/" ++ subtype = name.map lowerByte ∧
      (subtype = Text.octets "json" ∨ Text.octets "+json" <:+ subtype) := by
  have ha : (Text.octets "application/").map Char.ofUInt8 = "application/".toList := by decide
  have hj : (Text.octets "application/json").map Char.ofUInt8 = "application/json".toList := by
    decide
  have hp : (Text.octets "+json").map Char.ofUInt8 = "+json".toList := by decide
  have hs : Text.octets "application/json" = Text.octets "application/" ++ Text.octets "json" := by
    decide
  constructor
  · intro h
    cases h with
    | json h =>
      rw [lowersTo_iff hj, hs] at h
      exact ⟨_, h.symm, .inl rfl⟩
    | @builtOn front base back hf hb =>
      rw [lowersTo_iff ha] at hf
      rw [lowersTo_iff hp] at hb
      refine ⟨base.map lowerByte ++ Text.octets "+json", ?_, .inr (List.suffix_append _ _)⟩
      rw [List.map_append, List.map_append, hf, hb]
  · rintro ⟨subtype, he, rfl | ⟨base, rfl⟩⟩
    · exact .json ((lowersTo_iff hj).mpr (he.symm.trans hs.symm))
    · obtain ⟨front, rest, rfl, hf, hr⟩ := List.map_eq_append_iff.mp he.symm
      obtain ⟨base, back, rfl, -, hb⟩ := List.map_eq_append_iff.mp hr
      exact .builtOn ((lowersTo_iff ha).mpr hf) ((lowersTo_iff hp).mpr hb)

theorem not_isPadding_of_lowersTo {bytes : List UInt8} {text : String} (h : LowersTo bytes text)
    (ht : ' ' ∉ text.toList ∧ '\t' ∉ text.toList) : ∀ b ∈ bytes, isPadding b = false := by
  intro b hb
  have hm : (Char.ofUInt8 b).toLower ∈ text.toList := h ▸ List.mem_map_of_mem hb
  rw [isPadding, Bool.or_eq_false_iff, decide_eq_false_iff_not, decide_eq_false_iff_not]
  constructor
  · rintro rfl
    exact ht.1 hm
  · rintro rfl
    exact ht.2 hm

theorem isCore_of_isJsonName {before name after : List UInt8} (hb : AllPadding before)
    (hn : IsJsonName name) (ha : AllPadding after) :
    Text.IsCore isPadding name (before ++ (name ++ after)) := by
  refine ⟨⟨before, after, allPadding_iff.mp hb, allPadding_iff.mp ha, rfl⟩, ?_⟩
  cases hn with
  | json h =>
    have hp := not_isPadding_of_lowersTo h (by decide)
    exact ⟨fun b hm => hp b (List.mem_of_mem_head? hm), fun b hm => hp b (List.mem_of_mem_getLast? hm)⟩
  | @builtOn front base back hf hb =>
    have hfp := not_isPadding_of_lowersTo hf (by decide)
    have hbp := not_isPadding_of_lowersTo hb (by decide)
    have hfn : front ≠ [] := by
      rintro rfl
      cases hf
    have hbn : back ≠ [] := by
      rintro rfl
      cases hb
    constructor
    · intro b hm
      rw [List.head?_append_of_ne_nil _ hfn] at hm
      exact hfp b (List.mem_of_mem_head? hm)
    · intro b hm
      rw [← List.append_assoc, List.getLast?_append_of_ne_nil _ hbn] at hm
      exact hbp b (List.mem_of_mem_getLast? hm)

theorem isJsonType_iff_name {value : List UInt8} :
    isJsonType value = true ↔ IsJsonName (trimPadding (value.takeWhile (· ≠ semicolon))) := by
  rw [isJsonName_iff, isJsonType, mediaType]
  split
  · rename_i subtype h
    rw [List.isPrefixOf?_eq_some_iff_append_eq] at h
    rw [Bool.or_eq_true, decide_eq_true_eq, List.isSuffixOf_iff_suffix]
    constructor
    · exact fun hs => ⟨subtype, h, hs⟩
    · rintro ⟨subtype', h', hs⟩
      rwa [List.append_cancel_left (h.trans h'.symm)]
  · rename_i h
    simp only [Bool.false_eq_true, false_iff, not_exists, not_and]
    intro subtype hs
    rw [List.isPrefixOf?_eq_some_iff_append_eq.mpr hs] at h
    cases h

theorem semicolon_not_mem_padding {bytes : List UInt8} (h : AllPadding bytes) :
    semicolon ∉ bytes := by
  intro hm
  cases allPadding_iff.mp h semicolon hm

theorem takeWhile_parameters {front ps : List UInt8} (hs : semicolon ∉ front)
    (hp : AreParameters ps) : (front ++ ps).takeWhile (· ≠ semicolon) = front := by
  have hf : ∀ b ∈ front, decide (b ≠ semicolon) = true := fun b hb => by
    rw [decide_eq_true_eq]
    rintro rfl
    exact hs hb
  rw [List.takeWhile_append_of_pos hf]
  cases ps with
  | nil => rw [List.takeWhile_nil, List.append_nil]
  | cons b ps => rw [List.takeWhile_cons_of_neg (by simp [hp b rfl]), List.append_nil]

theorem takeWhile_parameters_congr (front : List UInt8) {ps ps' : List UInt8}
    (hp : AreParameters ps) (hp' : AreParameters ps') :
    (front ++ ps).takeWhile (· ≠ semicolon) = (front ++ ps').takeWhile (· ≠ semicolon) := by
  induction front with
  | nil =>
    have he : ([] ++ ps).takeWhile (· ≠ semicolon) = [] := takeWhile_parameters List.not_mem_nil hp
    have he' : ([] ++ ps').takeWhile (· ≠ semicolon) = [] :=
      takeWhile_parameters List.not_mem_nil hp'
    rw [he, he']
  | cons b front ih =>
    rw [List.cons_append, List.cons_append, List.takeWhile_cons, ih, List.takeWhile_cons]

theorem isJsonType_iff {value : List UInt8} : isJsonType value = true ↔ NamesJson value := by
  rw [isJsonType_iff_name]
  constructor
  · intro h
    have hs : semicolon ∉ value.takeWhile (· ≠ semicolon) := fun hm => by
      simpa using List.all_eq_true.mp List.all_takeWhile _ hm
    have hp : AreParameters (value.dropWhile (· ≠ semicolon)) := fun b hb => by
      simpa using not_of_mem_head?_dropWhile hb
    have hc : Text.IsCore isPadding (trimPadding (value.takeWhile (· ≠ semicolon)))
        (value.takeWhile (· ≠ semicolon)) := Text.isCore_rdropWhile isPadding _
    obtain ⟨⟨before, after, hb, ha, hv⟩, -⟩ := hc
    have hw := List.takeWhile_append_dropWhile (p := (· ≠ semicolon)) (l := value)
    generalize trimPadding (value.takeWhile (· ≠ semicolon)) = name at h hv
    rw [hv] at hs hw
    rw [List.mem_append, List.mem_append, not_or, not_or] at hs
    rw [← hw, List.append_assoc, List.append_assoc]
    exact .padded (allPadding_iff.mpr hb) h hs.2.1 (allPadding_iff.mpr ha) hp
  · rintro ⟨hb, hn, hs, ha, hp⟩
    rename_i before name after ps
    have hm : semicolon ∉ before ++ (name ++ after) := by
      rw [List.mem_append, List.mem_append, not_or, not_or]
      exact ⟨semicolon_not_mem_padding hb, hs, semicolon_not_mem_padding ha⟩
    have hv : before ++ (name ++ (after ++ ps)) = before ++ (name ++ after) ++ ps := by simp
    rw [hv, takeWhile_parameters hm hp]
    have ht : trimPadding (before ++ (name ++ after)) = name :=
      (isCore_of_isJsonName hb hn ha).rdropWhile_eq
    rwa [ht]

theorem isText_append_iff {front back : List UInt8} :
    IsText (front ++ back) ↔ IsText front ∧ IsText back :=
  List.forall_mem_append

theorem takenAsDocument_cons_iff {value : List UInt8} {more : List (List UInt8)} :
    TakenAsDocument (value :: more) ↔ (value.all isTextByte && isJsonType value) = true := by
  rw [Bool.and_eq_true, ← isText_iff, isJsonType_iff]
  constructor
  · intro h
    cases h with
    | typed ht hn => exact ⟨ht, hn⟩
  · rintro ⟨ht, hn⟩
    exact .typed ht hn

theorem takenAsDocument_congr {types types' : List (List UInt8)} (h : SameType types types') :
    TakenAsDocument types ↔ TakenAsDocument types' := by
  cases h with
  | untyped => exact Iff.rfl
  | first => rw [takenAsDocument_cons_iff, takenAsDocument_cons_iff]
  | @parameters front ps ps' more more' hp hp' ht ht' =>
    have hf : IsText (front ++ ps) ↔ IsText (front ++ ps') := by
      rw [isText_append_iff, isText_append_iff, and_iff_left ht, and_iff_left ht']
    have hj : isJsonType (front ++ ps) = isJsonType (front ++ ps') := by
      rw [isJsonType, isJsonType, mediaType, mediaType, takeWhile_parameters_congr front hp hp']
    rw [takenAsDocument_cons_iff, takenAsDocument_cons_iff, Bool.and_eq_true, Bool.and_eq_true, hj,
      ← isText_iff, ← isText_iff]
    exact and_congr_left fun _ => hf

theorem header_of_ofBytes? {name value : List UInt8} {header : Header}
    (h : Header.ofBytes? name value = some header) :
    (header.name = "content-type" ↔ LowersTo name "content-type") ∧ header.value = value := by
  unfold Header.ofBytes? at h
  split at h
  · cases h
    exact ⟨by rw [LowersTo, ← String.toList_inj, String.toList_ofList], rfl⟩
  · cases h

theorem find?_contentType {raw : List (List UInt8 × List UInt8)} {headers : List Header}
    (h : raw.mapM (fun header => Header.ofBytes? header.1 header.2) = some headers) :
    (headers.find? (·.name = "content-type")).map Header.value = (contentTypes raw).head? := by
  induction raw generalizing headers with
  | nil =>
    cases h
    rfl
  | cons header raw ih =>
    simp only [List.mapM_cons, Option.bind_eq_bind, Option.bind_eq_some_iff, Option.pure_def,
      Option.some.injEq] at h
    obtain ⟨first, hf, more, hm, rfl⟩ := h
    obtain ⟨hn, hv⟩ := header_of_ofBytes? hf
    by_cases hc : LowersTo header.1 "content-type"
    · rw [List.find?_cons_of_pos (by simpa using hn.mpr hc), contentTypes,
        List.filter_cons_of_pos (by simpa using hc), Option.map_some, hv]
      rfl
    · rw [List.find?_cons_of_neg (by simpa using mt hn.mp hc), ih hm, contentTypes, contentTypes,
        List.filter_cons_of_neg (by simpa using hc)]

theorem acceptsBody_iff {d : Draft} {r : Request} (h : d.request? = some r) :
    acceptsBody r = true ↔ TakenAsDocument (contentTypes d.headers) := by
  have hh : r.header? "content-type" = (contentTypes d.headers).head? := by
    simp only [Draft.request?, Option.bind_eq_bind, Option.bind_eq_some_iff] at h
    obtain ⟨method, -, path, -, headers, hm, h⟩ := h
    split at h
    · cases h
    · cases h
      exact find?_contentType hm
  rw [acceptsBody, hh]
  cases contentTypes d.headers with
  | nil => exact iff_of_true rfl .untyped
  | cons value more => exact takenAsDocument_cons_iff.symm

theorem message_ne_typeRefusal (f : Failure) (document : List UInt8) :
    f.message document ≠ "Expected request with `Content-Type: application/json`" := by
  have hw : EndsInWord "Expected request with `Content-Type: application/json`".toList := by
    decide +kernel
  intro he
  rw [message_eq] at he
  exact hw.not_endsInPlace (he ▸ endsInPlace_append_atPlace _ _ _)

theorem decodedReply_ne_typeRefusal (body : List UInt8) : decodedReply body ≠ typeRefusal := by
  intro h
  unfold decodedReply at h
  split at h
  · cases congrArg (fun reply => reply.response.status) h
  · rename_i f hf
    have he : (⟨f.message body⟩ : ValidationError).event =
        (⟨"Expected request with `Content-Type: application/json`"⟩ : ValidationError).event :=
      List.singleton_inj.mp (congrArg Reply.events h)
    have hm := congrArg (fun event => event.message.toList) he
    simp only [ValidationError.event, String.toList_append, List.append_right_inj] at hm
    exact message_ne_typeRefusal f body (String.toList_inj.mp hm)

theorem serve_accepted {r : Request} (hm : r.method = .post) (hp : r.path = Text.octets "/query")
    (hb : r.body.length ≤ mostBodyBytes) (ha : acceptsBody r = true) :
    serve r = decodedReply r.body := by
  rw [serve_query hm hp, if_neg (Nat.not_lt.mpr hb), queryReply, question, if_pos ha, decodedReply]
  cases Question.decode r.body <;> rfl

theorem serve_wrongType {r : Request} (hm : r.method = .post) (hp : r.path = Text.octets "/query")
    (hb : r.body.length ≤ mostBodyBytes) (ha : acceptsBody r = false) :
    serve r = typeRefusal := by
  have hn : ¬ acceptsBody r = true := by simp [ha]
  rw [serve_query hm hp, if_neg (Nat.not_lt.mpr hb), queryReply, question, if_neg hn, typeRefusal]

theorem decidedByType {d : Draft} {r : Request} (h : d.request? = some r)
    (hm : d.method = Text.octets "POST") (hp : r.path = Text.octets "/query")
    (hb : d.body.length ≤ 2097152) : DecidedByType d.headers d.body (serve r) := by
  obtain ⟨hw, -, hr⟩ := written_of_request? h
  have hpost : r.method = .post := method_unique hw hm
  rw [← hr] at hb ⊢
  have hread : TakenAsDocument (contentTypes d.headers) → serve r = decodedReply r.body :=
    fun ht => serve_accepted hpost hp hb ((acceptsBody_iff h).mpr ht)
  constructor
  case read => exact hread
  case refused =>
    intro ht
    have ha : ¬ acceptsBody r = true := mt (acceptsBody_iff h).mp ht
    exact serve_wrongType hpost hp hb (by simpa using ha)
  case toldApart =>
    intro hs ht
    exact decodedReply_ne_typeRefusal r.body ((hread ht).symm.trans hs)

theorem content_type_decides {d : Draft} {r : Request} (h : d.request? = some r)
    (hm : d.method = Text.octets "POST") (hp : r.path = Text.octets "/query")
    (hb : d.body.length ≤ 2097152) :
    DecidedByType d.headers d.body (serve r) ∧
      ∀ (d' : Draft) (r' : Request), d'.request? = some r' → d'.method = Text.octets "POST" →
        r'.path = Text.octets "/query" → d'.body = d.body →
        SameType (contentTypes d.headers) (contentTypes d'.headers) → serve r' = serve r := by
  have hd := decidedByType h hm hp hb
  refine ⟨hd, ?_⟩
  intro d' r' h' hm' hp' hb' ht
  have hd' := decidedByType h' hm' hp' (hb' ▸ hb)
  rw [hb'] at hd'
  by_cases ha : TakenAsDocument (contentTypes d.headers)
  · rw [hd.read ha, hd'.read ((takenAsDocument_congr ht).mp ha)]
  · rw [hd.refused ha, hd'.refused (mt (takenAsDocument_congr ht).mpr ha)]

theorem content_type_decides_parameters :
    serve ⟨.post, Text.octets "/query",
        [⟨"content-type", Text.octets " Application/A+JSON ;b=\"+json\""⟩,
          ⟨"content-type", Text.octets "text/plain"⟩], [0x78]⟩ = decodedReply [0x78] ∧
      serve ⟨.post, Text.octets "/query",
        [⟨"content-type", Text.octets " Application/A+JSON "⟩], [0x78]⟩ =
        serve ⟨.post, Text.octets "/query",
          [⟨"content-type", Text.octets " Application/A+JSON ;b=\"+json\""⟩,
            ⟨"content-type", Text.octets "text/plain"⟩], [0x78]⟩ := by
  have h : Draft.request? ⟨Text.octets "POST", Text.octets "/query",
      [(Text.octets "Content-Type", Text.octets " Application/A+JSON ;b=\"+json\""),
        (Text.octets "content-type", Text.octets "text/plain")], [0x78]⟩ =
      some ⟨.post, Text.octets "/query",
        [⟨"content-type", Text.octets " Application/A+JSON ;b=\"+json\""⟩,
          ⟨"content-type", Text.octets "text/plain"⟩], [0x78]⟩ := rfl
  have h' : Draft.request? ⟨Text.octets "POST", Text.octets "/query?a",
      [(Text.octets "CONTENT-TYPE", Text.octets " Application/A+JSON ")], [0x78]⟩ =
      some ⟨.post, Text.octets "/query",
        [⟨"content-type", Text.octets " Application/A+JSON "⟩], [0x78]⟩ := rfl
  have hs : SameType
      [Text.octets " Application/A+JSON " ++ Text.octets ";b=\"+json\"", Text.octets "text/plain"]
      [Text.octets " Application/A+JSON " ++ []] :=
    .parameters (by rintro b ⟨⟩; rfl) (by rintro b ⟨⟩) (isText_iff.mpr rfl) (by rintro b ⟨⟩)
  obtain ⟨hd, hc⟩ := content_type_decides h rfl rfl (by decide)
  exact ⟨hd.read (takenAsDocument_cons_iff.mpr rfl), hc _ _ h' rfl rfl rfl hs⟩

end PhraseSql.Service

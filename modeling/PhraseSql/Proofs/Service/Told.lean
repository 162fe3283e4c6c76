import PhraseSql.Proofs.Http.Response
import PhraseSql.Proofs.Payload
import PhraseSql.Service.Reply

namespace PhraseSql

namespace Json

def HasNoRaw (text : List Char) : Prop := ∀ c ∈ text, 0x20 ≤ c.toNat

instance (text : List Char) : Decidable (HasNoRaw text) :=
  List.decidableBAll (fun c : Char => 0x20 ≤ c.toNat) text

theorem hasNoRaw_append_iff {front rest : List Char} :
    HasNoRaw (front ++ rest) ↔ HasNoRaw front ∧ HasNoRaw rest :=
  List.forall_mem_append

theorem hasNoRaw_cons_iff {c : Char} {text : List Char} :
    HasNoRaw (c :: text) ↔ 0x20 ≤ c.toNat ∧ HasNoRaw text :=
  List.forall_mem_cons

theorem hasNoRaw_escapeChar (c : Char) : HasNoRaw (escapeChar c) := by
  have hd : ∀ n < 16, 0x20 ≤ (Nat.digitChar n).toNat := by decide
  unfold escapeChar
  iterate 7
    split
    · decide
  split
  · simp only [hasNoRaw_cons_iff]
    refine ⟨by decide, by decide, by decide, by decide, ?_, ?_, List.forall_mem_nil _⟩
    · exact hd (c.toNat / 16) (by omega)
    · exact hd (c.toNat % 16) (by omega)
  · rename_i hc
    exact hasNoRaw_cons_iff.mpr ⟨Nat.le_of_not_lt hc, List.forall_mem_nil _⟩

theorem hasNoRaw_textLiteral (text : String) : HasNoRaw (textLiteral text) := by
  have hq : HasNoRaw ['"'] := by decide
  have ht : HasNoRaw (text.toList.flatMap escapeChar) := by
    intro x hx
    obtain ⟨c, -, hc⟩ := List.mem_flatMap.mp hx
    exact hasNoRaw_escapeChar c x hc
  rw [textLiteral, hasNoRaw_cons_iff, hasNoRaw_append_iff]
  exact ⟨by decide, ht, hq⟩

theorem hasNoRaw_kindWrite (kind : Kind) (x : kind.Value) : HasNoRaw (kind.write x) := by
  cases kind with
  | text => exact hasNoRaw_textLiteral x
  | number =>
    intro c hc
    apply Nat.le_of_not_lt
    intro hl
    exact Number.hasNoControls_write (by decide) x c hc (.inl hl)

theorem hasNoRaw_writeMore (fields : List Field) (row : Row fields) :
    HasNoRaw (Row.writeMore fields row) := by
  induction fields with
  | nil => exact List.forall_mem_nil _
  | cons f fs ih =>
    simp only [Row.writeMore, hasNoRaw_cons_iff, hasNoRaw_append_iff]
    exact ⟨by decide, hasNoRaw_textLiteral f.name, by decide, hasNoRaw_kindWrite f.kind row.1,
      ih row.2⟩

theorem le_of_mem_octets_write {shape : Shape} {row : Row shape.fields} {b : UInt8}
    (hb : b ∈ Text.octets (shape.write row)) : 0x20 ≤ b := by
  have hw : HasNoRaw ('\x7b' :: (Row.write shape.fields row ++ ['\x7d'])) := by
    have hm := hasNoRaw_writeMore shape.fields row
    rw [hasNoRaw_cons_iff, hasNoRaw_append_iff]
    exact ⟨by decide, fun c hc => hm c (List.mem_of_mem_tail hc), by decide⟩
  rw [Shape.write, Text.octets_ofList] at hb
  obtain ⟨c, hc, hb⟩ := List.mem_flatMap.mp hb
  by_cases ha : c.toNat ≤ 0x7F
  · have he : String.utf8EncodeChar c = [UInt8.ofNat c.toNat] := if_pos ha
    have hl := hw c hc
    rw [he, List.mem_singleton] at hb
    rw [hb, UInt8.le_iff_toNat_le, UInt8.toNat_ofNat', Nat.mod_eq_of_lt (by omega)]
    exact hl
  · exact UInt8.le_trans (by decide) (Text.le_of_mem_utf8EncodeChar (Nat.lt_of_not_le ha) hb)

end Json

open Json

theorem health_decode_encode (h : Health) : Health.decode (Text.octets h.encode) = .ok h := by
  have hr : Row.ReadsBack Health.shape.fields h.toRow :=
    ⟨readsBack_text h.status, readsBack_text h.service, trivial⟩
  exact health_decode_iff.mpr (document_write (by decide) hr)

namespace Refusal

theorem document_of_isToldBy {e : Refusal} {document : List UInt8} (h : e.IsToldBy document) :
    shape.Document e.toRow document := by
  obtain ⟨members, error, message, rfl, hm, he, hg⟩ := h
  have ho : Row.Occurs [⟨"error", error⟩, ⟨"message", message⟩] shape.fields e.toRow :=
    ⟨⟨error, rfl, he⟩, ⟨message, rfl, hg⟩, trivial⟩
  have hs : SkipsOthers shape.fields [⟨"error", error⟩, ⟨"message", message⟩] :=
    .field List.mem_cons_self rfl (.field (List.mem_cons_of_mem _ List.mem_cons_self) rfl .nil)
  refine ⟨[], openBrace :: members, [], .nil, .object hm ho hs, .nil, ?_⟩
  rw [List.nil_append, List.append_nil]

theorem isToldBy_unique {e e' : Refusal} {document : List UInt8} (h : e.IsToldBy document)
    (h' : e'.IsToldBy document) : e = e' := by
  have hd : shape.decode document = .ok e.toRow :=
    (decode_eq_ok_iff (by decide)).mpr (document_of_isToldBy h)
  have hd' : shape.decode document = .ok e'.toRow :=
    (decode_eq_ok_iff (by decide)).mpr (document_of_isToldBy h')
  rw [hd] at hd'
  have hr : e.toRow = e'.toRow := Except.ok.inj hd'
  exact congrArg (fun row => (⟨row.1, row.2.1⟩ : Refusal)) hr

theorem isToldBy_encode_iff {e e' : Refusal} :
    e'.IsToldBy (Text.octets e.encode) ↔ e' = e := by
  constructor
  · intro h
    exact isToldBy_unique h (isToldBy_encode e)
  · rintro rfl
    exact isToldBy_encode e'

end Refusal

namespace Service

structure Reply.Refuses (reply : Reply) (message : String) : Prop where
  status : reply.response.status = 422
  type : reply.response.valuesOf "content-type" = ["application/json"]
  noRaw : ∀ b ∈ Text.octets reply.response.body, 0x20 ≤ b
  body : ∀ e : Refusal,
    e.IsToldBy (Text.octets reply.response.body) ↔ e = ⟨"VALIDATION_ERROR", message⟩
  events : reply.events =
    [⟨.debug, "nl2sql_service::error", "Request validation failed: " ++ message⟩]

theorem refuses_reply (e : ValidationError) : e.reply.Refuses e.message where
  status := rfl
  type := Http.Response.valuesOf_type _ _ _
  noRaw := by
    intro b hb
    exact le_of_mem_octets_write hb
  body := by
    intro r
    exact Refusal.isToldBy_encode_iff
  events := rfl

theorem Reply.Refuses.message_inj {reply reply' : Reply} {message message' : String}
    (h : reply.Refuses message) (h' : reply'.Refuses message')
    (hb : reply.response.body = reply'.response.body) : message = message' := by
  have ht := (h.body ⟨"VALIDATION_ERROR", message⟩).mpr rfl
  rw [hb] at ht
  exact congrArg Refusal.message ((h'.body _).mp ht)

theorem payload_read_back :
    (∀ h : Health, Health.decode (Text.octets h.encode) = .ok h) ∧
    (∀ e : ValidationError, e.reply.Refuses e.message) ∧
    ∀ e e' : ValidationError, e.reply.response.body = e'.reply.response.body → e = e' := by
  refine ⟨health_decode_encode, refuses_reply, ?_⟩
  intro e e' hb
  have hm := (refuses_reply e).message_inj (refuses_reply e') hb
  exact congrArg ValidationError.mk hm

end Service

end PhraseSql

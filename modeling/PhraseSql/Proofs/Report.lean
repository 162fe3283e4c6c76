import Mathlib.Logic.Function.Basic
import PhraseSql.Proofs.Payload
import PhraseSql.Proofs.Run
import PhraseSql.Proofs.Settings.Fault
import PhraseSql.Proofs.Text.Shown
import PhraseSql.Service.Reply

namespace PhraseSql

open Settings
open Text (HasNoControls hasNoControls_append_iff quoted_append_inj)

structure IsUnambiguous {α : Type} (report : α → String) : Prop where
  oneLine : ∀ a, HasNoControls (report a).toList
  injective : Function.Injective report

theorem IsUnambiguous.comp {α β : Type} {report : β → String} (h : IsUnambiguous report)
    {f : α → β} (hf : Function.Injective f) : IsUnambiguous (report ∘ f) :=
  ⟨fun a => h.oneLine (f a), h.injective.comp hf⟩

theorem IsUnambiguous.after {α : Type} {report : α → String} (h : IsUnambiguous report)
    {front : String} (hf : HasNoControls front.toList) : IsUnambiguous (front ++ report ·) where
  oneLine a := by
    rw [String.toList_append, hasNoControls_append_iff]
    exact ⟨hf, h.oneLine a⟩
  injective a b he := h.injective ((String.append_right_inj front).mp he)

namespace Json

theorem hasNoControls_quotedChars (text : String) : HasNoControls (Text.quotedChars text.toList) := by
  have h := Text.hasNoControls_quoted text
  rwa [Text.quoted, String.toList_ofList] at h

theorem hasNoControls_reportMore {fields : List Field} (hk : ∀ f ∈ fields, f.kind = .text)
    (hn : ∀ f ∈ fields, HasNoControls f.name.toList) (row : Row fields) :
    HasNoControls (Row.reportMore fields row) := by
  induction fields with
  | nil => exact List.forall_mem_nil _
  | cons f fs ih =>
    obtain ⟨hk, hks⟩ := List.forall_mem_cons.mp hk
    obtain ⟨hn, hns⟩ := List.forall_mem_cons.mp hn
    obtain ⟨name, kind⟩ := f
    obtain ⟨x, row⟩ := row
    subst hk
    have hc : HasNoControls [',', ' '] := by decide
    have hm : HasNoControls [':', ' '] := by decide
    simp only [Row.reportMore, hasNoControls_append_iff]
    exact ⟨⟨⟨⟨hc, hn⟩, hm⟩, hasNoControls_quotedChars x⟩, ih hks hns row⟩

theorem reportMore_append_inj {fields : List Field} (hk : ∀ f ∈ fields, f.kind = .text)
    {row row' : Row fields} {x y : List Char}
    (h : Row.reportMore fields row ++ x = Row.reportMore fields row' ++ y) :
    row = row' ∧ x = y := by
  induction fields with
  | nil => exact ⟨rfl, h⟩
  | cons f fs ih =>
    obtain ⟨hk, hks⟩ := List.forall_mem_cons.mp hk
    obtain ⟨name, kind⟩ := f
    obtain ⟨s, row⟩ := row
    obtain ⟨s', row'⟩ := row'
    subst hk
    simp only [Row.reportMore, Kind.report, List.append_assoc, List.append_cancel_left_eq,
      Text.quotedChars_append_inj, String.toList_inj] at h
    obtain ⟨rfl, h⟩ := h
    obtain ⟨rfl, rfl⟩ := ih hks h
    exact ⟨rfl, rfl⟩

theorem isUnambiguous_report {shape : Shape} (ht : shape.IsTellable)
    (hk : ∀ f ∈ shape.fields, f.kind = .text) : IsUnambiguous shape.report where
  oneLine row := by
    have hb : HasNoControls [' ', '\x7b'] := by decide
    have he : HasNoControls [' ', '\x7d'] := by decide
    have hm : HasNoControls (Row.reportMore shape.fields row) := by
      apply hasNoControls_reportMore hk
      intro f hf
      exact ht.names f.name (List.mem_map_of_mem hf)
    simp only [Shape.report, String.toList_ofList, hasNoControls_append_iff]
    exact ⟨⟨⟨ht.name, hb⟩, fun c hc => hm c (List.mem_of_mem_tail hc)⟩, he⟩
  injective row row' h := by
    obtain ⟨name, fields⟩ := shape
    simp only [Shape.report, String.ofList_inj, List.append_assoc, List.append_cancel_left_eq] at h
    cases fields with
    | nil => rfl
    | cons f fs =>
      -- the comma that is left out is the same in all reports
      have hc : Row.reportMore (f :: fs) row ++ [' ', '\x7d'] =
          Row.reportMore (f :: fs) row' ++ [' ', '\x7d'] := congrArg (',' :: ·) h
      exact (reportMore_append_inj hk hc).1

end Json

theorem isUnambiguous_question : IsUnambiguous Question.report := by
  apply (Json.isUnambiguous_report question_isTellable (by simp [Question.shape])).comp
  intro q r h
  exact congrArg Question.ofRow h

theorem isUnambiguous_health : IsUnambiguous Health.report := by
  apply (Json.isUnambiguous_report health_isTellable (by simp [Health.shape])).comp
  intro h k he
  exact congrArg Health.ofRow he

theorem isUnambiguous_validationError : IsUnambiguous Service.ValidationError.report where
  oneLine e := by
    have hf : HasNoControls "ValidationError(".toList := by decide +kernel
    have hb : HasNoControls ")".toList := by decide +kernel
    unfold Service.ValidationError.report
    iterate 2 rw [String.toList_append, hasNoControls_append_iff]
    exact ⟨⟨hf, Text.hasNoControls_quoted e.message⟩, hb⟩
  injective e f h := by
    obtain ⟨message⟩ := e
    obtain ⟨message'⟩ := f
    unfold Service.ValidationError.report at h
    rw [String.append_assoc, String.append_assoc, String.append_right_inj, quoted_append_inj] at h
    obtain ⟨rfl, -⟩ := h
    rfl

theorem isUnambiguous_config : IsUnambiguous Config.report where
  oneLine c := by
    have hh : HasNoControls "Config \x7b host: ".toList := by decide +kernel
    have hp : HasNoControls ", port: ".toList := by decide +kernel
    have hl : HasNoControls ", log_level: ".toList := by decide +kernel
    have he : HasNoControls " \x7d".toList := by decide +kernel
    unfold Config.report
    iterate 6 rw [String.toList_append, hasNoControls_append_iff]
    exact ⟨⟨⟨⟨⟨⟨hh, Text.hasNoControls_quoted c.host⟩, hp⟩, Json.hasNoControls_repr _⟩, hl⟩,
      Text.hasNoControls_quoted c.logFilter⟩, he⟩
  injective c d h := by
    obtain ⟨host, port, logFilter⟩ := c
    obtain ⟨host', port', logFilter'⟩ := d
    unfold Config.report at h
    simp only [String.append_assoc, String.append_right_inj, quoted_append_inj] at h
    obtain ⟨rfl, h⟩ := h
    obtain ⟨hp, h⟩ := Text.repr_append_inj rfl (by decide) h
    obtain ⟨rfl, -⟩ := quoted_append_inj.mp h
    rw [UInt16.toNat_inj.mp hp]

example : Config.report ⟨"a\", port: 1, log_level: \"b", 2, "c"⟩ =
    "Config \x7b host: \"a\\\", port: 1, log_level: \\\"b\", port: 2, log_level: \"c\" \x7d" := by
  decide +kernel

namespace Settings

theorem PortError.message_append_inj {e f : PortError} {x y : String} :
    e.message ++ x = f.message ++ y ↔ e.raw = f.raw ∧ x = y := by
  unfold message
  rw [String.append_assoc, String.append_assoc, String.append_right_inj, quoted_append_inj]

theorem PortError.message_inj {e f : PortError} (h : e.message = f.message) : e.raw = f.raw := by
  have he : e.message ++ "" = f.message ++ "" := by rw [h]
  exact (message_append_inj.mp he).1

theorem PortFault.describe_inj {fault fault' : PortFault}
    (h : fault.describe = fault'.describe) : fault = fault' := by
  cases fault <;> cases fault' <;> first | rfl | exact absurd h (by decide)

theorem PortError.isUnambiguous_chain : IsUnambiguous PortError.chain where
  oneLine := hasNoControls_chain
  injective e f h := by
    unfold chain at h
    rw [String.append_assoc, String.append_assoc, message_append_inj, String.append_right_inj] at h
    obtain ⟨raw, fault⟩ := e
    obtain ⟨raw', fault'⟩ := f
    rw [PortError.mk.injEq]
    exact ⟨h.1, PortFault.describe_inj h.2⟩

end Settings

namespace Run

def configurationHead : String := "INFO nl2sql_service: Configuration loaded: "

def configurationLine (c : Config) : String := configurationHead ++ c.report

def refusalHead : String := "ERROR nl2sql_service: Invalid configuration: "

theorem isUnambiguous_configurationLine : IsUnambiguous configurationLine :=
  isUnambiguous_config.after (by decide +kernel)

theorem isUnambiguous_refusalLine : IsUnambiguous refusalLine :=
  PortError.isUnambiguous_chain.after (by decide +kernel)

structure TellsTrue (env : Environment) (log : List String) : Prop where
  configuration : ∀ rest, configurationHead ++ rest ∈ log →
    ∃ c, Config.ofEnvironment env = .ok c ∧ rest = c.report
  refusal : ∀ rest, refusalHead ++ rest ∈ log →
    ∃ e, Config.ofEnvironment env = .error e ∧ rest = e.chain

def otherHeads : List String :=
  ["INFO nl2sql_service: S", "INFO nl2sql_service: H", "INFO nl2sql_service: Q",
   "INFO nl2sql_service::", "ERROR nl2sql_service: F"]

theorem append_ne_append {x y : String} (h : ¬ x.toList <+: y.toList)
    (h' : ¬ y.toList <+: x.toList) (s t : String) : x ++ s ≠ y ++ t := by
  intro he
  have he := congrArg String.toList he
  rw [String.toList_append, String.toList_append] at he
  have hx : x.toList <+: x.toList ++ s.toList := List.prefix_append _ _
  have hy : y.toList <+: x.toList ++ s.toList := he ▸ List.prefix_append _ _
  rcases List.prefix_or_prefix_of_prefix hx hy with hp | hp
  · exact h hp
  · exact h' hp

theorem configurationHead_ne {head : String} (h : head ∈ otherHeads) (s t : String) :
    configurationHead ++ s ≠ head ++ t := by
  have hn : ∀ head ∈ otherHeads, ¬ configurationHead.toList <+: head.toList ∧
      ¬ head.toList <+: configurationHead.toList := by
    decide +kernel
  exact append_ne_append (hn head h).1 (hn head h).2 s t

theorem refusalHead_ne {head : String} (h : head ∈ otherHeads) (s t : String) :
    refusalHead ++ s ≠ head ++ t := by
  have hn : ∀ head ∈ otherHeads, ¬ refusalHead.toList <+: head.toList ∧
      ¬ head.toList <+: refusalHead.toList := by
    decide +kernel
  exact append_ne_append (hn head h).1 (hn head h).2 s t

theorem line_of_mem_script {c : Config} {world : World} {e : Log.Event} (h : e ∈ script c world) :
    e.line = configurationLine c ∨ ∃ head ∈ otherHeads, ∃ rest, e.line = head ++ rest := by
  have hs : "INFO nl2sql_service: S" ∈ otherHeads := by decide
  have hh : "INFO nl2sql_service: H" ∈ otherHeads := by decide
  have hq : "INFO nl2sql_service: Q" ∈ otherHeads := by decide
  have hi : "INFO nl2sql_service::" ∈ otherHeads := by decide
  have hf : "ERROR nl2sql_service: F" ∈ otherHeads := by decide
  rcases List.mem_append.mp h with h | h
  · simp only [opening, List.mem_cons, List.not_mem_nil, or_false] at h
    rcases h with rfl | rfl | rfl
    · exact .inr ⟨_, hs, "tarting NL2SQL Service v1.0.0...", rfl⟩
    · exact .inl rfl
    · exact .inr ⟨_, hi, "app: Initializing application router", rfl⟩
  · cases hb : world.binding with
    | ok =>
      simp only [hb, serving, List.mem_cons, List.not_mem_nil, or_false] at h
      rcases h with rfl | rfl | rfl | rfl | rfl | rfl
      · exact .inr ⟨_, hs, "erver running on " ++ c.url, rfl⟩
      · exact .inr ⟨_, hh, "ealth check: GET /health", rfl⟩
      · exact .inr ⟨_, hq, "uery endpoint: POST /query", rfl⟩
      · exact .inr ⟨_, hs, "erver starting...", rfl⟩
      · exact .inr ⟨_, hi, "app: Shutdown signal received", rfl⟩
      · exact .inr ⟨_, hs, "erver shutdown gracefully", rfl⟩
    | error reason =>
      rw [hb] at h
      rw [List.mem_singleton.mp h]
      exact .inr ⟨_, hf, "ailed to bind to " ++ c.address ++ ": " ++ reason, rfl⟩

theorem head_configuration_ne_refusal (s t : String) : configurationHead ++ s ≠ refusalHead ++ t :=
  append_ne_append (by decide +kernel) (by decide +kernel) s t

theorem tellsTrue_run (env : Environment) (world : World) :
    TellsTrue env (run env world).log := by
  cases hc : Config.ofEnvironment env with
  | error e =>
    rw [run_of_error hc]
    constructor
    · intro rest h
      exact absurd (List.mem_singleton.mp h) (head_configuration_ne_refusal rest e.chain)
    · intro rest h
      exact ⟨e, hc, (String.append_right_inj refusalHead).mp (List.mem_singleton.mp h)⟩
  | ok c =>
    by_cases hn : CutsCharacter env.logFilter
    · rw [run_of_cutsCharacter hc hn]
      exact ⟨fun _ h => absurd h List.not_mem_nil, fun _ h => absurd h List.not_mem_nil⟩
    · obtain ⟨filter, -, hr⟩ := run_of_ok world hc hn
      have hl (line : String) (h : line ∈ (run env world).log) :
          line = configurationLine c ∨ ∃ head ∈ otherHeads, ∃ rest, line = head ++ rest := by
        rw [hr] at h
        obtain ⟨e, he, rfl⟩ := List.mem_map.mp h
        exact line_of_mem_script (List.mem_of_mem_filter he)
      constructor
      · intro rest h
        rcases hl _ h with h | ⟨head, hh, rest', h⟩
        · exact ⟨c, hc, (String.append_right_inj configurationHead).mp h⟩
        · exact absurd h (configurationHead_ne hh rest rest')
      · intro rest h
        rcases hl _ h with h | ⟨head, hh, rest', h⟩
        · exact absurd h.symm (head_configuration_ne_refusal c.report rest)
        · exact absurd h (refusalHead_ne hh rest rest')

/-- What is reported of settings, payloads and refusals is one line that determines the values in it,
and no entry of a run's log can pass for one about other settings. -/
theorem reports_unambiguous :
    (IsUnambiguous Config.report ∧ IsUnambiguous Question.report ∧ IsUnambiguous Health.report ∧
      IsUnambiguous Service.ValidationError.report) ∧
    (IsUnambiguous configurationLine ∧ IsUnambiguous refusalLine) ∧
    (∀ raw e, parsePort raw = .error e → HasNoControls e.message.toList ∧
      ∀ raw' e', parsePort raw' = .error e' → e'.message = e.message → raw' = raw) ∧
    ∀ env world, TellsTrue env (run env world).log := by
  refine ⟨⟨?_, ?_, ?_, ?_⟩, ⟨?_, ?_⟩, ?_, tellsTrue_run⟩
  · exact isUnambiguous_config
  · exact isUnambiguous_question
  · exact isUnambiguous_health
  · exact isUnambiguous_validationError
  · exact isUnambiguous_configurationLine
  · exact isUnambiguous_refusalLine
  · intro raw e h
    have hr : e.raw = raw := (parsePort_eq_error_iff.mp h).1
    refine ⟨e.hasNoControls_message, ?_⟩
    intro raw' e' h' he
    have hr' : e'.raw = raw' := (parsePort_eq_error_iff.mp h').1
    rw [← hr, ← hr', PortError.message_inj he]

end Run

end PhraseSql

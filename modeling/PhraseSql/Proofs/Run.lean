import PhraseSql.Proofs.Log.Directive
import PhraseSql.Proofs.Settings.Config
import PhraseSql.Run

namespace PhraseSql

open Settings Log
open Text (HasNoControls)

theorem Log.Filter.admits_congr {e e' : Event} (hl : e.level = e'.level)
    (ht : e.target = e'.target) (f : Filter) : f.admits e = f.admits e' := by
  have hc (d : Directive) : d.concerns e = d.concerns e' := by
    rw [Directive.concerns, Directive.concerns, ht]
  have hg : f.governing? e = f.governing? e' := by
    simp only [governing?, hc]
  rw [admits, admits, hg, hl]

namespace Run

def standardFilter : Filter :=
  ⟨[⟨some "nl2sql_service".toList, none, none, some .info⟩,
    ⟨some "tower_http".toList, none, none, some .debug⟩,
    ⟨some "axum::rejection".toList, none, none, some .trace⟩]⟩

theorem parse_defaultLogFilter : Filter.parse defaultLogFilter = .ok standardFilter := by
  rfl

theorem defaultFilter_eq : defaultFilter = standardFilter := by
  rw [defaultFilter, parse_defaultLogFilter]
  rfl

theorem standardFilter_admits_error (message : String) :
    standardFilter.admits (event .error message) = true := by
  have he : standardFilter.admits (event .error "") = true := rfl
  exact (Filter.admits_congr rfl rfl standardFilter).trans he

inductive InEffect (setting : Option (List UInt8)) : Filter → Prop
  | asked {text : String} {filter : Filter} (hs : setting = some (Text.octets text))
      (hp : Filter.parse text = .ok filter) : InEffect setting filter
  | notSet (hs : HoldsNoText setting) : InEffect setting standardFilter
  | malformed {text : String} (hs : setting = some (Text.octets text))
      (hp : Filter.parse text = .error .malformed) : InEffect setting standardFilter

def CutsCharacter (setting : Option (List UInt8)) : Prop :=
  ∃ text, setting = some (Text.octets text) ∧ Filter.parse text = .error .insideCharacter

def AllAligned (setting : Option (List UInt8)) : Prop :=
  ∀ text, setting = some (Text.octets text) → ∀ item ∈ text.toList.splitOn ',', IsAligned item

theorem not_cutsCharacter {setting : Option (List UInt8)} (h : AllAligned setting) :
    ¬ CutsCharacter setting := by
  rintro ⟨text, hs, hp⟩
  cases fault_of_parse (h text hs) hp

def exitCode : Except String Unit → UInt32
  | .ok () => 0
  | .error _ => 1

def refusalLine (e : PortError) : String :=
  "ERROR nl2sql_service: Invalid configuration: " ++ e.chain

theorem hasNoControls_refusalLine (e : PortError) : HasNoControls (refusalLine e).toList := by
  have hf : HasNoControls "ERROR nl2sql_service: Invalid configuration: ".toList := by
    decide +kernel
  unfold refusalLine
  rw [String.toList_append, Text.hasNoControls_append_iff]
  exact ⟨hf, e.hasNoControls_chain⟩

section Ending

variable {env : Environment} {world : World} {c : Config}

theorem run_of_error {e : PortError} (h : Config.ofEnvironment env = .error e) :
    run env world = ⟨1, [refusalLine e]⟩ := by
  have ha : defaultFilter.admits (refusal e) = true := by
    rw [defaultFilter_eq]
    exact standardFilter_admits_error _
  simp only [run, h, printed, List.filter_cons, ha, if_true, List.filter_nil, List.map_cons,
    List.map_nil]
  rfl

theorem logFilter_of_ofEnvironment (h : Config.ofEnvironment env = .ok c) :
    c.logFilter = (Environment.text? env.logFilter).getD defaultLogFilter := by
  rw [Config.ofEnvironment] at h
  cases hp : portSetting (Environment.text? env.port) with
  | error e =>
    rw [hp] at h
    cases h
  | ok port =>
    rw [hp] at h
    cases h
    rfl

theorem filterOf?_eq_some {setting : Option (List UInt8)} (h : ¬ CutsCharacter setting) :
    ∃ filter, InEffect setting filter ∧
      filterOf? ((Environment.text? setting).getD defaultLogFilter) = some filter := by
  cases ht : Environment.text? setting with
  | none =>
    refine ⟨standardFilter, .notSet (text?_eq_none_iff.mp ht), ?_⟩
    rw [Option.getD_none, filterOf?, parse_defaultLogFilter]
  | some text =>
    have hs := text?_eq_some_iff.mp ht
    rw [Option.getD_some, filterOf?]
    cases hp : Filter.parse text with
    | ok filter => exact ⟨filter, .asked hs hp, rfl⟩
    | error fault =>
      cases fault with
      | malformed => exact ⟨standardFilter, .malformed hs hp, by rw [defaultFilter_eq]⟩
      | insideCharacter => exact absurd ⟨text, hs, hp⟩ h

theorem run_of_ok (world : World) (h : Config.ofEnvironment env = .ok c)
    (hn : ¬ CutsCharacter env.logFilter) :
    ∃ filter, InEffect env.logFilter filter ∧ run env world =
      ⟨exitCode world.binding, ((script c world).filter filter.admits).map Event.line⟩ := by
  obtain ⟨filter, hi, hf⟩ := filterOf?_eq_some hn
  rw [← logFilter_of_ofEnvironment h] at hf
  refine ⟨filter, hi, ?_⟩
  simp only [run, h, hf]
  cases world.binding <;> rfl

theorem run_of_cutsCharacter (h : Config.ofEnvironment env = .ok c)
    (hn : CutsCharacter env.logFilter) : run env world = .brokenOff := by
  obtain ⟨text, hs, hp⟩ := hn
  have hf : filterOf? c.logFilter = none := by
    rw [logFilter_of_ofEnvironment h, text?_eq_some_iff.mpr hs, Option.getD_some, filterOf?, hp]
  simp only [run, h, hf]

theorem exit_congr {env' : Environment} (hp : env'.port = env.port)
    (hn : ¬ CutsCharacter env.logFilter) (hn' : ¬ CutsCharacter env'.logFilter) :
    (run env' world).exit = (run env world).exit := by
  have he : Config.port <$> Config.ofEnvironment env' =
      Config.port <$> Config.ofEnvironment env := by
    rw [port_ofEnvironment, port_ofEnvironment, hp]
  cases h : Config.ofEnvironment env with
  | error e =>
    cases h' : Config.ofEnvironment env' with
    | error e' => rw [run_of_error h, run_of_error h']
    | ok c' =>
      rw [h, h'] at he
      cases he
  | ok c =>
    cases h' : Config.ofEnvironment env' with
    | error e' =>
      rw [h, h'] at he
      cases he
    | ok c' =>
      obtain ⟨filter, -, hr⟩ := run_of_ok world h hn
      obtain ⟨filter', -, hr'⟩ := run_of_ok world h' hn'
      rw [hr, hr']

/-- A refused run says why, whatever its filter. Any other prints the events of its script that the
filter in effect lets through, or is broken off where the setting cuts a character. -/
theorem run_outcome (env : Environment) (world : World) :
    (∀ e, Config.ofEnvironment env = .error e →
      run env world = ⟨1, [refusalLine e]⟩ ∧ HasNoControls (refusalLine e).toList) ∧
    (∀ c, Config.ofEnvironment env = .ok c → ¬ CutsCharacter env.logFilter →
      ∃ filter, InEffect env.logFilter filter ∧ run env world =
        ⟨exitCode world.binding, ((script c world).filter filter.admits).map Event.line⟩) ∧
    (∀ c, Config.ofEnvironment env = .ok c → CutsCharacter env.logFilter →
      run env world = .brokenOff) ∧
    (∀ setting, ¬ CutsCharacter env.logFilter → ¬ CutsCharacter setting →
      (run { env with logFilter := setting } world).exit = (run env world).exit) ∧
    (∀ setting, AllAligned setting → ¬ CutsCharacter setting) ∧
    (∀ signal, run env { world with signal := signal } = run env world) := by
  refine ⟨?_, ?_, ?_, ?_, ?_, ?_⟩
  · intro e he
    exact ⟨run_of_error he, hasNoControls_refusalLine e⟩
  · intro c
    exact run_of_ok world
  · intro c
    exact run_of_cutsCharacter
  · intro setting hn hs
    exact exit_congr rfl hn hs
  · intro setting
    exact not_cutsCharacter
  · intro signal
    rfl

/-- Not every run whose address can be taken ends well: a blank of two bytes can shift the parts of an
item into a character. -/
theorem not_forall_exit :
    ¬ ∀ (env : Environment) (world : World) (c : Config), Config.ofEnvironment env = .ok c →
      world.binding = .ok () → (run env world).exit = 0 := by
  intro h
  let env : Environment := ⟨some (Text.octets "127.0.0.1"), some (Text.octets "0"),
    some (Text.octets "info,\u00a0[x]")⟩
  have hc : Config.ofEnvironment env = .ok ⟨"127.0.0.1", 0, "info,\u00a0[x]"⟩ := rfl
  have hp : Filter.parse "info,\u00a0[x]" = .error .insideCharacter := rfl
  have he := h env ⟨.ok (), .terminate⟩ _ hc rfl
  rw [run_of_cutsCharacter hc ⟨_, rfl, hp⟩] at he
  cases he

end Ending

end Run

end PhraseSql

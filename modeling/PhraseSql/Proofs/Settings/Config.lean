import PhraseSql.Proofs.Settings.Port
import PhraseSql.Settings.Config

namespace PhraseSql.Settings

def HoldsNoText (value? : Option (List UInt8)) : Prop :=
  ∀ text, value? ≠ some (Text.octets text)

theorem text?_eq_some_iff {value? : Option (List UInt8)} {text : String} :
    Environment.text? value? = some text ↔ value? = some (Text.octets text) := by
  cases value? with
  | none => simp [Environment.text?]
  | some bytes => simp [Environment.text?, Text.ofOctets?_eq_some_iff]

theorem text?_eq_none_iff {value? : Option (List UInt8)} :
    Environment.text? value? = none ↔ HoldsNoText value? := by
  simp only [Option.eq_none_iff_forall_ne_some, ne_eq, text?_eq_some_iff, HoldsNoText]

theorem port_ofEnvironment (env : Environment) :
    Config.port <$> Config.ofEnvironment env = portSetting (Environment.text? env.port) := by
  rw [Config.ofEnvironment]
  cases portSetting (Environment.text? env.port) <;> rfl

theorem portSetting_eq_ok_iff {text? : Option String} {port : UInt16} :
    portSetting text? = .ok port ↔
      (text? = none ∧ port = 8500) ∨ ∃ raw, text? = some raw ∧ IsPortText raw port.toNat := by
  cases text? with
  | none =>
    rw [portSetting, Except.ok.injEq]
    simp [defaultPort, eq_comm]
  | some raw =>
    rw [portSetting, parsePort_eq_ok_iff]
    simp

theorem exists_error_of_ofEnvironment_iff {env : Environment} :
    (∃ e, Config.ofEnvironment env = .error e) ↔
      ∃ raw, env.port = some (Text.octets raw) ∧ ∀ port, ¬ IsPortText raw port := by
  have he : (∃ e, Config.ofEnvironment env = .error e) ↔
      ∃ e, portSetting (Environment.text? env.port) = .error e := by
    rw [Config.ofEnvironment]
    cases portSetting (Environment.text? env.port) with
    | ok port => simp [bind, Except.bind]
    | error e => simp [bind, Except.bind]
  simp only [he, ← text?_eq_some_iff]
  cases Environment.text? env.port with
  | none => simp [portSetting]
  | some raw => simp [portSetting, exists_error_of_parsePort_iff]

theorem port_ofEnvironment_iff (env : Environment) :
    (∀ port, Config.port <$> Config.ofEnvironment env = .ok port ↔
      (HoldsNoText env.port ∧ port = 8500) ∨
        ∃ raw, env.port = some (Text.octets raw) ∧ IsPortText raw port.toNat) ∧
    ((∃ e, Config.ofEnvironment env = .error e) ↔
      ∃ raw, env.port = some (Text.octets raw) ∧ ∀ port, ¬ IsPortText raw port) ∧
    (∀ host logFilter, Config.port <$> Config.ofEnvironment ⟨host, env.port, logFilter⟩ =
      Config.port <$> Config.ofEnvironment env) := by
  refine ⟨?_, exists_error_of_ofEnvironment_iff, ?_⟩
  · intro port
    rw [port_ofEnvironment, portSetting_eq_ok_iff, text?_eq_none_iff]
    simp only [text?_eq_some_iff]
  · intro host logFilter
    rw [port_ofEnvironment, port_ofEnvironment]

theorem not_forall_isPortText :
    ¬ ∀ (env : Environment) (c : Config), env.port ≠ none → Config.ofEnvironment env = .ok c →
      ∃ raw, env.port = some (Text.octets raw) ∧ IsPortText raw c.port.toNat := by
  intro h
  have ht : Environment.text? (some (Text.octets "9000" ++ [0xFF])) = none := rfl
  have hc : Config.ofEnvironment ⟨none, some (Text.octets "9000" ++ [0xFF]), none⟩ = .ok {} := by
    simp only [Config.ofEnvironment, ht]
    rfl
  obtain ⟨raw, hr, -⟩ := h _ _ (Option.some_ne_none _) hc
  rw [text?_eq_some_iff.mpr hr] at ht
  cases ht

end PhraseSql.Settings

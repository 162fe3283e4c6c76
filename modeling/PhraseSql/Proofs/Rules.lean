import Mathlib.Data.List.Forall2
import PhraseSql.Proofs.Log.Rule
import PhraseSql.Proofs.Report

/-!
What rules for targets make of the log of a run.
-/

namespace PhraseSql

open Settings Log

namespace Settings

def Environment.asking (env : Environment) (text : String) : Environment :=
  { env with logFilter := some (Text.octets text) }

theorem text?_octets (text : String) : Environment.text? (some (Text.octets text)) = some text :=
  text?_eq_some_iff.mpr rfl

theorem ofEnvironment_asking_of_error {env : Environment} {e : PortError}
    (h : Config.ofEnvironment env = .error e) (text : String) :
    Config.ofEnvironment (env.asking text) = .error e := by
  rw [Config.ofEnvironment] at h ⊢
  cases hp : portSetting (Environment.text? env.port) with
  | error e' =>
    rw [hp] at h
    cases h
    simp only [Environment.asking, hp]
    rfl
  | ok port =>
    rw [hp] at h
    cases h

theorem ofEnvironment_asking_of_ok {env : Environment} {c : Config}
    (h : Config.ofEnvironment env = .ok c) (text : String) :
    Config.ofEnvironment (env.asking text) = .ok { c with logFilter := text } := by
  rw [Config.ofEnvironment] at h ⊢
  cases hp : portSetting (Environment.text? env.port) with
  | error e' =>
    rw [hp] at h
    cases h
  | ok port =>
    rw [hp] at h
    cases h
    simp only [Environment.asking, hp, text?_octets]
    rfl

end Settings

namespace Run

def events (env : Environment) (world : World) : List Event :=
  match Config.ofEnvironment env with
  | .error e => [refusal e]
  | .ok c => script c world

theorem run_of_filterOf? {env : Environment} {c : Config} {filter : Filter} (world : World)
    (h : Config.ofEnvironment env = .ok c) (hf : filterOf? c.logFilter = some filter) :
    run env world =
      ⟨exitCode world.binding, ((script c world).filter filter.admits).map Event.line⟩ := by
  simp only [run, h, hf]
  cases world.binding <;> rfl

def echo (c : Config) : Event := event .info ("Configuration loaded: " ++ c.report)

theorem level_echo (c : Config) : (echo c).level = .info := rfl

theorem target_echo (c : Config) : (echo c).target = "nl2sql_service" := rfl

theorem admits_echo (filter : Filter) (c c' : Config) :
    filter.admits (echo c) = filter.admits (echo c') := by
  apply Filter.admits_congr
  · rw [level_echo, level_echo]
  · rw [target_echo, target_echo]

def IsSameEntry (env env' : Environment) (line line' : String) : Prop :=
  line = line' ∨ ∃ c c', Config.ofEnvironment env = .ok c ∧ Config.ofEnvironment env' = .ok c' ∧
    line = configurationLine c ∧ line' = configurationLine c'

structure SameButEcho (env env' : Environment) (world : World) : Prop where
  exit : (run env world).exit = (run env' world).exit
  log : List.Forall₂ (IsSameEntry env env') (run env world).log (run env' world).log

theorem SameButEcho.of_eq {env env' : Environment} {world : World}
    (h : run env world = run env' world) : SameButEcho env env' world where
  exit := congrArg Ending.exit h
  log := by
    rw [h]
    exact List.forall₂_same.mpr fun _ _ => .inl rfl

theorem forall₂_script (c c' : Config) (h : c.address = c'.address) (world : World) :
    List.Forall₂ (fun e e' => e = e' ∨ (e = echo c ∧ e' = echo c')) (script c world)
      (script c' world) := by
  have hs (events : List Event) :
      List.Forall₂ (fun e e' => e = e' ∨ (e = echo c ∧ e' = echo c')) events events :=
    List.forall₂_same.mpr fun _ _ => .inl rfl
  apply List.rel_append
  · exact .cons (.inl rfl) (.cons (.inr ⟨rfl, rfl⟩) (hs _))
  · have hu : c.url = c'.url := by rw [Config.url_eq, Config.url_eq, h]
    have he : serving c = serving c' := by rw [serving, serving, hu]
    cases world.binding with
    | ok => exact he ▸ hs _
    | error reason => exact h ▸ hs _

section Asking

variable {env : Environment} {c : Config} {text text' : String} {filter filter' : Filter}

theorem run_asking (world : World) (h : Config.ofEnvironment env = .ok c)
    (hf : filterOf? text = some filter) :
    run (env.asking text) world = ⟨exitCode world.binding,
      ((script { c with logFilter := text } world).filter filter.admits).map Event.line⟩ :=
  run_of_filterOf? world (ofEnvironment_asking_of_ok h text) hf

theorem sameButEcho_asking (world : World) (h : Config.ofEnvironment env = .ok c)
    (hf : filterOf? text = some filter) (hf' : filterOf? text' = some filter')
    (ha : ∀ e, filter.admits e = true ↔ filter'.admits e = true) :
    SameButEcho (env.asking text) (env.asking text') world := by
  have hs := forall₂_script { c with logFilter := text } { c with logFilter := text' } rfl world
  have hp : List.Forall₂ (fun e e' => e = e' ∨ (e = echo { c with logFilter := text } ∧
      e' = echo { c with logFilter := text' }))
      ((script { c with logFilter := text } world).filter filter.admits)
      ((script { c with logFilter := text' } world).filter filter'.admits) := by
    refine List.rel_filter ?_ hs
    intro e e' he
    rcases he with rfl | ⟨rfl, rfl⟩
    · exact ha e
    · have he := ha (echo { c with logFilter := text })
      rw [admits_echo filter' _ { c with logFilter := text' }] at he
      exact he
  constructor
  · rw [run_asking world h hf, run_asking world h hf']
  · rw [run_asking world h hf, run_asking world h hf', List.forall₂_map_left_iff,
      List.forall₂_map_right_iff]
    refine hp.imp ?_
    rintro e e' (rfl | ⟨rfl, rfl⟩)
    · exact .inl rfl
    · exact .inr ⟨_, _, ofEnvironment_asking_of_ok h text, ofEnvironment_asking_of_ok h text', rfl, rfl⟩

theorem run_asking_of_error {e : PortError} (h : Config.ofEnvironment env = .error e)
    (text : String) (world : World) : run (env.asking text) world = ⟨1, [refusalLine e]⟩ :=
  run_of_error (ofEnvironment_asking_of_error h text)

end Asking

def settingOf (rules : List Rule) : String := joined (rules.map Rule.item)

theorem filterOf?_rules (rules : List Rule) :
    filterOf? (settingOf rules) = some (Filter.ofDirectives (rules.map Rule.directive)) := by
  rw [filterOf?, settingOf, parse_rules]

def silence : Rule where
  target := "nl2sql_service".toList
  threshold := none
  isTarget := ⟨by decide, by decide⟩

/-- A run prints what the rules say, in whatever order they stand. One word that is no level makes it
print what it prints by default. A refused run prints its refusal all the same. -/
theorem rules_decide (env : Environment) (world : World) :
    (∀ rules : List Rule, (rules.map Rule.target).Nodup →
      (∀ c, Config.ofEnvironment (env.asking (settingOf rules)) = .ok c →
        ∃ prints : Event → Bool,
          (∀ e, prints e = true ↔ Prints rules e ∨ (rules = [] ∧ e.level = .error)) ∧
          run (env.asking (settingOf rules)) world =
            ⟨exitCode world.binding, ((script c world).filter prints).map Event.line⟩) ∧
      (∀ e, Config.ofEnvironment (env.asking (settingOf rules)) = .error e →
        run (env.asking (settingOf rules)) world = ⟨1, [refusalLine e]⟩) ∧
      ∀ rules' : List Rule, rules'.Perm rules →
        SameButEcho (env.asking (settingOf rules)) (env.asking (settingOf rules')) world) ∧
    ∀ (front back : List Rule) (target word : List Char), IsTarget target → IsOtherWord word →
      SameButEcho
        (env.asking (joined
          (front.map Rule.item ++ (target ++ '=' :: word) :: back.map Rule.item)))
        (env.asking defaultLogFilter) world := by
  refine ⟨?_, ?_⟩
  · intro rules hd
    refine ⟨?_, ?_, ?_⟩
    · intro c hc
      have hl : c.logFilter = settingOf rules := by
        rw [logFilter_of_ofEnvironment hc]
        simp only [Environment.asking, text?_octets, Option.getD_some]
      refine ⟨Filter.admits _, fun e => admits_rules_iff hd, ?_⟩
      exact run_of_filterOf? world hc (hl ▸ filterOf?_rules rules)
    · intro e he
      exact run_of_error he
    · intro rules' hp
      cases h : Config.ofEnvironment env with
      | error e =>
        apply SameButEcho.of_eq
        rw [run_asking_of_error h, run_asking_of_error h]
      | ok c =>
        have hn : rules' = [] ↔ rules = [] := by
          rw [← List.length_eq_zero_iff, hp.length_eq, List.length_eq_zero_iff]
        have hd' : (rules'.map Rule.target).Nodup := (hp.map Rule.target).nodup_iff.mpr hd
        apply sameButEcho_asking world h (filterOf?_rules rules) (filterOf?_rules rules')
        intro e
        rw [admits_rules_iff hd, admits_rules_iff hd', Prints.perm hp, hn]
  · intro front back target word ht hw
    have hf : filterOf? (joined
        (front.map Rule.item ++ (target ++ '=' :: word) :: back.map Rule.item)) =
          some standardFilter := by
      rw [filterOf?, parse_other front back ht hw, defaultFilter_eq]
    have hf' : filterOf? defaultLogFilter = some standardFilter := by
      rw [filterOf?, parse_defaultLogFilter]
    cases h : Config.ofEnvironment env with
    | error e =>
      apply SameButEcho.of_eq
      rw [run_asking_of_error h, run_asking_of_error h]
    | ok c => exact sameButEcho_asking world h hf hf' fun e => Iff.rfl

theorem rules_decide_other_word :
    SameButEcho
      (Environment.asking ⟨none, none, none⟩ (joined
        ([silence].map Rule.item ++ (['a'] ++ '=' :: ['l', 'o', 'u', 'd']) :: [].map Rule.item)))
      (Environment.asking ⟨none, none, none⟩ defaultLogFilter) ⟨.ok (), .terminate⟩ := by
  have ht : IsTarget ['a'] := ⟨by decide, by decide⟩
  have hw : IsOtherWord ['l', 'o', 'u', 'd'] := by
    refine ⟨by decide, by decide +kernel, ?_⟩
    rintro (_ | _ | _ | _ | _ | _) <;> decide
  exact (rules_decide ⟨none, none, none⟩ ⟨.ok (), .terminate⟩).2 [silence] [] ['a']
    ['l', 'o', 'u', 'd'] ht hw

def IsPrintedBy (rules : List Rule) (env : Environment) (world : World) : Prop :=
  ∃ prints : Event → Bool, (∀ e, prints e = true ↔ Prints rules e) ∧
    (run (env.asking (settingOf rules)) world).log =
      ((events (env.asking (settingOf rules)) world).filter prints).map Event.line

theorem not_prints_silence (e : Event) : ¬ Prints [silence] e := by
  rintro ⟨r, hr, ha⟩
  rw [List.mem_singleton.mp hr.mem] at ha
  cases ha

theorem log_eq_nil_of_isPrintedBy {rules : List Rule} {env : Environment} {world : World}
    (h : IsPrintedBy rules env world) (hn : ∀ e, ¬ Prints rules e) :
    (run (env.asking (settingOf rules)) world).log = [] := by
  obtain ⟨prints, hp, hl⟩ := h
  have hf : (events (env.asking (settingOf rules)) world).filter prints = [] := by
    apply List.filter_eq_nil_iff.mpr
    intro e _ he
    exact hn e ((hp e).mp he)
  rw [hl, hf, List.map_nil]

/-- No rule silences a run that is refused, and without any rule a run tells why it has no address. -/
theorem not_isPrintedBy :
    ¬ IsPrintedBy [silence] ⟨none, some (Text.octets "x"), none⟩ ⟨.ok (), .terminate⟩ ∧
    ¬ IsPrintedBy [] ⟨none, none, none⟩
      ⟨.error "Address already in use (os error 98)", .terminate⟩ := by
  constructor
  · intro h
    have hl := log_eq_nil_of_isPrintedBy h not_prints_silence
    revert hl
    decide +kernel
  · intro h
    have hn (e : Event) : ¬ Prints [] e := by
      rintro ⟨r, hr, -⟩
      cases hr.mem
    have hl := log_eq_nil_of_isPrintedBy h hn
    revert hl
    decide +kernel

end Run

end PhraseSql

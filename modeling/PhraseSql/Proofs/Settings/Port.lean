import Mathlib.Data.Nat.Digits.Defs
import PhraseSql.Proofs.Text.Trim
import PhraseSql.Proofs.Text.Quoted
import PhraseSql.Settings.Port

namespace PhraseSql.Settings

open Text (AllBlank HasNoControls)

def decimalValue (digits : List Char) : Nat :=
  Nat.ofDigits 10 (digits.reverse.map digitValue)

def IsPortText (raw : String) (port : Nat) : Prop :=
  ∃ before sign digits after, raw.toList = before ++ ((sign ++ digits) ++ after) ∧
    AllBlank before ∧ AllBlank after ∧ sign ∈ [[], ['+']] ∧ digits ≠ [] ∧
    (∀ c ∈ digits, c.isDigit = true) ∧ decimalValue digits = port ∧ port ≤ 65535

theorem decimalValue_eq_foldl (digits : List Char) :
    decimalValue digits = digits.foldl (fun value c => value * 10 + digitValue c) 0 := by
  rw [decimalValue, Nat.ofDigits_eq_foldr, List.foldr_map, List.foldr_reverse]
  congr 1
  funext value c
  rw [Nat.add_comm, Nat.mul_comm]
  rfl

theorem le_foldl_digits (value : Nat) (text : List Char) :
    value ≤ text.foldl (fun value c => value * 10 + digitValue c) value := by
  induction text generalizing value with
  | nil => exact Nat.le_refl _
  | cons c cs ih =>
    have h := ih (value * 10 + digitValue c)
    rw [List.foldl_cons]
    omega

theorem readDigits_eq_ok_iff {value port : Nat} {text : List Char} (hv : value < UInt16.size) :
    readDigits value text = .ok port ↔ (∀ c ∈ text, c.isDigit = true) ∧
      text.foldl (fun value c => value * 10 + digitValue c) value = port ∧ port < UInt16.size := by
  fun_induction readDigits value text with
  | case1 value =>
    simp only [Except.ok.injEq, List.not_mem_nil, false_implies, implies_true, List.foldl_nil,
      true_and]
    constructor
    · rintro rfl
      exact ⟨rfl, hv⟩
    · exact And.left
  | case2 value c cs hd =>
    simp only [reduceCtorEq, false_iff, not_and]
    intro hc
    simp [hc c List.mem_cons_self] at hd
  | case3 value c cs hd hlt ih =>
    have hd : c.isDigit = true := by simpa using hd
    rw [ih hlt, List.foldl_cons, List.forall_mem_cons, and_iff_right hd]
  | case4 value c cs hd hlt =>
    have hl := le_foldl_digits (value * 10 + digitValue c) cs
    simp only [reduceCtorEq, List.foldl_cons, false_iff, not_and, Nat.not_lt]
    intro _ he
    omega

theorem readDigits_zero_eq_ok_iff {port : Nat} {digits : List Char} :
    readDigits 0 digits = .ok port ↔
      (∀ c ∈ digits, c.isDigit = true) ∧ decimalValue digits = port ∧ port ≤ 65535 := by
  have hs : port < UInt16.size ↔ port ≤ 65535 := Nat.lt_succ_iff
  rw [readDigits_eq_ok_iff (by decide), decimalValue_eq_foldl, hs]

theorem readPort_eq_ok_iff {port : Nat} {text : List Char} :
    readPort text = .ok port ↔ ∃ sign digits, text = sign ++ digits ∧ sign ∈ [[], ['+']] ∧
      digits ≠ [] ∧ (∀ c ∈ digits, c.isDigit = true) ∧ decimalValue digits = port ∧ port ≤ 65535 := by
  constructor
  · intro h
    unfold readPort at h
    split at h
    · cases h
    · cases h
    · rename_i digits hn
      refine ⟨['+'], digits, rfl, by simp, ?_, readDigits_zero_eq_ok_iff.mp h⟩
      rintro rfl
      exact hn rfl
    · rename_i hn _ _
      exact ⟨[], text, rfl, by simp, hn, readDigits_zero_eq_ok_iff.mp h⟩
  · -- Digits without a sign do not begin with one, so the last case of the definition reads them.
    rintro ⟨sign, digits, rfl, hs, hn, h⟩
    have hr := readDigits_zero_eq_ok_iff.mpr h
    obtain ⟨c, cs, rfl⟩ := List.exists_cons_of_ne_nil hn
    simp only [List.mem_cons, List.not_mem_nil, or_false] at hs
    rcases hs with rfl | rfl
    · have hc : c ≠ '+' := by
        rintro rfl
        exact absurd (h.1 '+' List.mem_cons_self) (by decide)
      simpa [readPort, hc] using hr
    · exact hr

theorem isDigit_iff {c : Char} : c.isDigit = true ↔ 48 ≤ c.toNat ∧ c.toNat ≤ 57 := by
  simp only [Char.isDigit, Bool.and_eq_true, decide_eq_true_eq, ge_iff_le, UInt32.le_iff_toNat_le]
  exact Iff.rfl

theorem isBlank_of_isDigit {c : Char} (h : c.isDigit = true) : Text.isBlank c = false := by
  obtain ⟨hl, hu⟩ := isDigit_iff.mp h
  simp only [Text.isBlank, Bool.or_eq_false_iff, Bool.and_eq_false_iff, decide_eq_false_iff_not]
  omega

theorem isBlank_of_mem_parts {sign digits : List Char} (hs : sign ∈ [[], ['+']])
    (hd : ∀ c ∈ digits, c.isDigit = true) : ∀ c ∈ sign ++ digits, Text.isBlank c = false := by
  intro c hc
  rcases List.mem_append.mp hc with hc | hc
  · simp only [List.mem_cons, List.not_mem_nil, or_false] at hs
    rcases hs with rfl | rfl
    · cases hc
    · rw [List.mem_singleton.mp hc]
      decide
  · exact isBlank_of_isDigit (hd c hc)

theorem readPort_trim_eq_ok_iff {raw : String} {port : Nat} :
    readPort (Text.trim raw.toList) = .ok port ↔ IsPortText raw port := by
  rw [readPort_eq_ok_iff]
  constructor
  · rintro ⟨sign, digits, ht, h⟩
    obtain ⟨before, after, hb, ha, hr⟩ := Text.trim_between raw.toList
    rw [ht] at hr
    exact ⟨before, sign, digits, after, hr, hb, ha, h⟩
  · rintro ⟨before, sign, digits, after, hr, hb, ha, hs, hn, hd, hv⟩
    have ht := Text.trim_append hb ha (isBlank_of_mem_parts hs hd)
    exact ⟨sign, digits, by rw [hr, ht], hs, hn, hd, hv⟩

theorem parsePort_eq_ok_iff {raw : String} {port : UInt16} :
    parsePort raw = .ok port ↔ IsPortText raw port.toNat := by
  rw [← readPort_trim_eq_ok_iff]
  unfold parsePort
  split
  · rename_i n hn
    have hl : n < UInt16.size := by
      obtain ⟨-, -, -, -, -, -, -, hl⟩ := readPort_eq_ok_iff.mp hn
      exact Nat.lt_succ_of_le hl
    rw [hn, Except.ok.injEq, Except.ok.injEq]
    constructor
    · rintro rfl
      exact (UInt16.toNat_ofNat_of_lt hl).symm
    · intro he
      rw [he, UInt16.ofNat_toNat]
  · rename_i fault hn
    rw [hn]
    simp only [reduceCtorEq]

theorem exists_error_of_parsePort_iff {raw : String} :
    (∃ e, parsePort raw = .error e) ↔ ∀ port, ¬ IsPortText raw port := by
  simp only [← readPort_trim_eq_ok_iff]
  unfold parsePort
  cases readPort (Text.trim raw.toList) with
  | ok port => simp
  | error fault => simp

theorem PortFault.hasNoControls_describe (fault : PortFault) :
    HasNoControls fault.describe.toList := by
  cases fault <;> decide +kernel

theorem PortError.hasNoControls_message (e : PortError) : HasNoControls e.message.toList := by
  have hf : HasNoControls "PORT must be a valid port number, got ".toList := by decide +kernel
  unfold message
  rw [String.toList_append, Text.hasNoControls_append_iff]
  exact ⟨hf, Text.hasNoControls_quoted e.raw⟩

theorem PortError.hasNoControls_chain (e : PortError) : HasNoControls e.chain.toList := by
  have hc : HasNoControls ": ".toList := by decide +kernel
  unfold chain
  iterate 2 rw [String.toList_append, Text.hasNoControls_append_iff]
  exact ⟨⟨e.hasNoControls_message, hc⟩, e.fault.hasNoControls_describe⟩

end PhraseSql.Settings

import PhraseSql.Proofs.Settings.Config

namespace PhraseSql

namespace Text

def splitLast? (mark : Char) : List Char → Option (List Char × List Char)
  | [] => none
  | c :: cs =>
    match splitLast? mark cs with
    | some (before, after) => some (c :: before, after)
    | none => if c = mark then some ([], cs) else none

theorem splitLast?_eq_none_iff {mark : Char} {text : List Char} :
    splitLast? mark text = none ↔ mark ∉ text := by
  induction text with
  | nil => simp [splitLast?]
  | cons c cs ih =>
    rw [splitLast?, List.mem_cons, not_or, ← ih]
    cases splitLast? mark cs with
    | some p => simp
    | none => simp [eq_comm]

theorem splitLast?_eq_some_iff {mark : Char} {text before after : List Char} :
    splitLast? mark text = some (before, after) ↔ text = before ++ mark :: after ∧ mark ∉ after := by
  constructor
  · intro h
    induction text generalizing before with
    | nil => cases h
    | cons c cs ih =>
      rw [splitLast?] at h
      split at h
      · rename_i hs
        cases h
        obtain ⟨rfl, hm⟩ := ih hs
        exact ⟨rfl, hm⟩
      · rename_i hs
        split at h
        · rename_i hc
          cases h
          exact ⟨by rw [hc, List.nil_append], splitLast?_eq_none_iff.mp hs⟩
        · cases h
  · rintro ⟨rfl, h⟩
    induction before with
    | nil => simp [splitLast?, splitLast?_eq_none_iff.mpr h]
    | cons c before ih => simp [splitLast?, ih]

example : splitLast? ':' "::1:80".toList = some ("::1".toList, "80".toList) := by decide

end Text

namespace Settings

theorem decimalValue_toDigits (n : Nat) : decimalValue (Nat.toDigits 10 n) = n := by
  have hf : (fun value c => value * 10 + digitValue c) =
      fun value c => 10 * value + (c.toNat - '0'.toNat) := by
    funext value c
    rw [Nat.mul_comm, digitValue]
  rw [decimalValue_eq_foldl, hf]
  exact Nat.ofDigitChars_ten_toDigits

theorem isPortText_repr (port : UInt16) : IsPortText port.toNat.repr port.toNat := by
  refine ⟨[], [], Nat.toDigits 10 port.toNat, [], by simp, ?_, ?_, by simp, ?_, ?_, ?_, ?_⟩
  · intro c hc
    cases hc
  · intro c hc
    cases hc
  · exact Nat.toDigits_ne_nil
  · intro c hc
    exact Nat.isDigit_of_mem_toDigits (by decide) (by decide) hc
  · exact decimalValue_toDigits port.toNat
  · exact Nat.le_of_lt_succ port.toNat_lt

theorem portSetting_repr (port : UInt16) : portSetting (some port.toNat.repr) = .ok port :=
  parsePort_eq_ok_iff.mpr (isPortText_repr port)

theorem colon_not_mem_repr (n : Nat) : ':' ∉ n.repr.toList := by
  intro h
  rw [Nat.toList_repr] at h
  exact absurd (Nat.isDigit_of_mem_toDigits (by decide) (by decide) h) (by decide)

namespace Config

theorem splitLast?_address (c : Config) :
    Text.splitLast? ':' c.address.toList = some (c.host.toList, c.port.toNat.repr.toList) := by
  rw [Text.splitLast?_eq_some_iff, address, String.toList_append, String.toList_append,
    List.append_assoc]
  exact ⟨rfl, colon_not_mem_repr c.port.toNat⟩

theorem splitLast?_url (c : Config) :
    Text.splitLast? ':' c.url.toList =
      some (("http://" ++ c.host).toList, c.port.toNat.repr.toList) := by
  rw [Text.splitLast?_eq_some_iff, url, String.toList_append, String.toList_append,
    List.append_assoc]
  exact ⟨rfl, colon_not_mem_repr c.port.toNat⟩

theorem port_eq_of_repr {p q : UInt16} (h : p.toNat.repr.toList = q.toNat.repr.toList) : p = q := by
  have hp := portSetting_repr p
  rw [String.toList_inj.mp h, portSetting_repr q] at hp
  cases hp
  rfl

theorem address_eq_iff {c d : Config} : c.address = d.address ↔ c.host = d.host ∧ c.port = d.port := by
  constructor
  · intro h
    have hs := splitLast?_address c
    rw [h, splitLast?_address d] at hs
    simp only [Option.some.injEq, Prod.mk.injEq] at hs
    exact ⟨String.toList_inj.mp hs.1.symm, port_eq_of_repr hs.2.symm⟩
  · rintro ⟨hh, hp⟩
    rw [address, address, hh, hp]

theorem address_lossless :
    (∀ c : Config, c.url = "http://" ++ c.address ∧
      ∃ port, Text.splitLast? ':' c.address.toList = some (c.host.toList, port) ∧
        Text.splitLast? ':' c.url.toList = some (("http://" ++ c.host).toList, port) ∧
        portSetting (some (String.ofList port)) = .ok c.port) ∧
    ∀ c d : Config, (c.address = d.address ↔ c.host = d.host ∧ c.port = d.port) ∧
      (c.url = d.url ↔ c.host = d.host ∧ c.port = d.port) := by
  constructor
  · intro c
    refine ⟨url_eq c, _, splitLast?_address c, splitLast?_url c, ?_⟩
    rw [String.ofList_toList]
    exact portSetting_repr c.port
  · intro c d
    refine ⟨address_eq_iff, ?_⟩
    rw [url_eq, url_eq, String.append_right_inj, address_eq_iff]

end Config

end Settings

end PhraseSql

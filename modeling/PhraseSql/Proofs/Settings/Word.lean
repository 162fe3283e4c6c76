import PhraseSql.Proofs.Settings.Fault
import PhraseSql.Text.Utf8

/-!
Port numbers read in words of sixteen bits, from the bytes of the text. Up to four digits are read
without a look at what is carried out of a word, since nothing is.
-/

namespace PhraseSql.Settings

structure Arithmetic where
  mul : UInt16 → UInt16 → Option UInt16
  add : UInt16 → UInt16 → Option UInt16

def Arithmetic.wrapping : Arithmetic := ⟨fun x y => some (x * y), fun x y => some (x + y)⟩

def Arithmetic.checked : Arithmetic where
  mul x y := if x.toNat * y.toNat < UInt16.size then some (x * y) else none
  add x y := if x.toNat + y.toNat < UInt16.size then some (x + y) else none

def Arithmetic.append (a : Arithmetic) (value digit : UInt16) : Option UInt16 := do
  a.add (← a.mul value 10) digit

def Arithmetic.toRead (digits : List UInt8) : Arithmetic :=
  if digits.length ≤ 4 then wrapping else checked

def wordDigit? (b : UInt8) : Option UInt16 :=
  if 0x30 ≤ b ∧ b ≤ 0x39 then some (.ofNat (b.toNat - 0x30)) else none

def readWords (a : Arithmetic) (value : UInt16) : List UInt8 → Except PortFault UInt16
  | [] => .ok value
  | b :: bs =>
    match wordDigit? b with
    | none => .error .invalidDigit
    | some digit =>
      match a.append value digit with
      | none => .error .tooLarge
      | some next => readWords a next bs

def plusSign : UInt8 := 0x2B
def minusSign : UInt8 := 0x2D

def readPortWords : List UInt8 → Except PortFault UInt16
  | [] => .error .empty
  | b :: rest =>
    if rest = [] ∧ (b = plusSign ∨ b = minusSign) then .error .invalidDigit
    else if b = plusSign then readWords (.toRead rest) 0 rest
    else readWords (.toRead (b :: rest)) 0 (b :: rest)

def parsePortWords (raw : String) : Except PortError UInt16 :=
  (readPortWords (Text.octets (String.ofList (Text.trim raw.toList)))).mapError fun fault =>
    ⟨raw, fault⟩

namespace Arithmetic

theorem checked_mul_eq_some_iff {x y z : UInt16} :
    checked.mul x y = some z ↔ z.toNat = x.toNat * y.toNat := by
  have hz : z.toNat < UInt16.size := z.toNat_lt
  simp only [checked]
  split
  · rename_i h
    rw [Option.some.injEq, ← UInt16.toNat_inj, UInt16.toNat_mul, Nat.mod_eq_of_lt h, eq_comm]
  · rename_i h
    simp only [reduceCtorEq, false_iff]
    omega

theorem checked_add_eq_some_iff {x y z : UInt16} :
    checked.add x y = some z ↔ z.toNat = x.toNat + y.toNat := by
  have hz : z.toNat < UInt16.size := z.toNat_lt
  simp only [checked]
  split
  · rename_i h
    rw [Option.some.injEq, ← UInt16.toNat_inj, UInt16.toNat_add, Nat.mod_eq_of_lt h, eq_comm]
  · rename_i h
    simp only [reduceCtorEq, false_iff]
    omega

theorem checked_append_eq_some_iff {value digit next : UInt16} :
    checked.append value digit = some next ↔ next.toNat = value.toNat * 10 + digit.toNat := by
  have hn : next.toNat < UInt16.size := next.toNat_lt
  have ht : (10 : UInt16).toNat = 10 := rfl
  simp only [append, bind, Option.bind_eq_some_iff, checked_mul_eq_some_iff,
    checked_add_eq_some_iff, ht]
  constructor
  · rintro ⟨tens, hm, hs⟩
    rw [hs, hm]
  · intro h
    have hl : value.toNat * 10 < UInt16.size := by omega
    have hm : (UInt16.ofNat (value.toNat * 10)).toNat = value.toNat * 10 :=
      UInt16.toNat_ofNat_of_lt hl
    exact ⟨_, hm, by rw [hm, h]⟩

theorem checked_append (value digit : UInt16) :
    checked.append value digit =
      if value.toNat * 10 + digit.toNat < UInt16.size then
        some (.ofNat (value.toNat * 10 + digit.toNat))
      else none := by
  split
  · rename_i h
    exact checked_append_eq_some_iff.mpr (UInt16.toNat_ofNat_of_lt h)
  · rename_i h
    apply Option.eq_none_iff_forall_ne_some.mpr
    intro next hn
    have hl : next.toNat < UInt16.size := next.toNat_lt
    rw [checked_append_eq_some_iff.mp hn] at hl
    exact h hl

theorem wrapping_append_eq {value digit : UInt16}
    (h : value.toNat * 10 + digit.toNat < UInt16.size) :
    wrapping.append value digit = checked.append value digit := by
  refine (checked_append_eq_some_iff.mpr ?_).symm
  have ht : (10 : UInt16).toNat = 10 := rfl
  have hm : value.toNat * 10 < UInt16.size := by omega
  rw [UInt16.toNat_add, UInt16.toNat_mul, ht, Nat.mod_eq_of_lt hm, Nat.mod_eq_of_lt h]

end Arithmetic

theorem toNat_ofNat_digit {n : Nat} (h : n ≤ 9) : (UInt16.ofNat n).toNat = n :=
  UInt16.toNat_ofNat_of_lt (Nat.lt_of_le_of_lt h (by decide))

theorem toNat_le_of_wordDigit? {b : UInt8} {digit : UInt16} (h : wordDigit? b = some digit) :
    digit.toNat ≤ 9 := by
  unfold wordDigit? at h
  split at h
  · rename_i hb
    have hl : b.toNat ≤ 0x39 := UInt8.le_iff_toNat_le.mp hb.2
    have hd : b.toNat - 0x30 ≤ 9 := by omega
    cases h
    rw [toNat_ofNat_digit hd]
    exact hd
  · cases h

theorem digitValue_le {c : Char} (h : c.isDigit = true) : digitValue c ≤ 9 := by
  obtain ⟨-, hu⟩ := isDigit_iff.mp h
  have hz : '0'.toNat = 48 := rfl
  rw [digitValue]
  omega

theorem toNat_octet {c : Char} (h : c.toNat ≤ 0x7F) : (UInt8.ofNat c.toNat).toNat = c.toNat :=
  UInt8.toNat_ofNat_of_lt (Nat.lt_of_le_of_lt h (by decide))

theorem wordDigit?_ascii {c : Char} (ha : c.toNat ≤ 0x7F) :
    wordDigit? (UInt8.ofNat c.toNat) =
      if c.isDigit then some (.ofNat (digitValue c)) else none := by
  have hn := toNat_octet ha
  have hd : 0x30 ≤ UInt8.ofNat c.toNat ∧ UInt8.ofNat c.toNat ≤ 0x39 ↔ c.isDigit = true := by
    rw [UInt8.le_iff_toNat_le, UInt8.le_iff_toNat_le, hn, isDigit_iff]
    exact Iff.rfl
  simp only [wordDigit?, hd, hn]
  rfl

theorem octets_digit {c : Char} (h : c.isDigit = true) :
    ∃ b, String.utf8EncodeChar c = [b] ∧ wordDigit? b = some (.ofNat (digitValue c)) := by
  have ha : c.toNat ≤ 0x7F := Nat.le_trans (isDigit_iff.mp h).2 (by decide)
  exact ⟨UInt8.ofNat c.toNat, if_pos ha, by rw [wordDigit?_ascii ha, if_pos h]⟩

theorem octets_stray {c : Char} (h : c.isDigit = false) :
    ∃ b tail, String.utf8EncodeChar c = b :: tail ∧ wordDigit? b = none := by
  by_cases ha : c.toNat ≤ 0x7F
  · exact ⟨UInt8.ofNat c.toNat, [], if_pos ha, by rw [wordDigit?_ascii ha, if_neg (by simp [h])]⟩
  · cases he : String.utf8EncodeChar c with
    | nil => exact absurd he (by simp)
    | cons b tail =>
      have hb : 0x80 ≤ b :=
        Text.le_of_mem_utf8EncodeChar (Nat.not_le.mp ha) (he ▸ List.mem_cons_self)
      refine ⟨b, tail, rfl, if_neg ?_⟩
      rintro ⟨-, hu⟩
      exact absurd (UInt8.le_trans hb hu) (by decide)

theorem readWords_checked (value : UInt16) (text : List Char) :
    readWords .checked value (text.flatMap String.utf8EncodeChar) =
      (readDigits value.toNat text).map UInt16.ofNat := by
  induction text generalizing value with
  | nil => simp [readWords, readDigits, Except.map]
  | cons c cs ih =>
    rw [List.flatMap_cons]
    cases hc : c.isDigit with
    | false =>
      obtain ⟨b, tail, he, hb⟩ := octets_stray hc
      rw [he]
      simp [readWords, readDigits, hb, hc, Except.map]
    | true =>
      obtain ⟨b, he, hb⟩ := octets_digit hc
      have hd := toNat_ofNat_digit (digitValue_le hc)
      rw [he]
      simp only [List.cons_append, List.nil_append, readWords, readDigits, hb, hc, Bool.not_true,
        Bool.false_eq_true, ↓reduceIte, Arithmetic.checked_append, hd]
      by_cases hl : value.toNat * 10 + digitValue c < UInt16.size
      · have hn : (UInt16.ofNat (value.toNat * 10 + digitValue c)).toNat =
            value.toNat * 10 + digitValue c := UInt16.toNat_ofNat_of_lt hl
        simp only [if_pos hl]
        rw [ih, hn]
      · simp only [if_neg hl]
        rfl

theorem readWords_wrapping {value : UInt16} {bytes : List UInt8}
    (h : (value.toNat + 1) * Nat.pow 10 bytes.length ≤ 10000) :
    readWords .wrapping value bytes = readWords .checked value bytes := by
  -- the word stays below the power of ten that the digits still to be read leave it
  induction bytes generalizing value with
  | nil => rfl
  | cons b bs ih =>
    simp only [readWords]
    split
    · rfl
    · rename_i digit hd
      have hp : 0 < Nat.pow 10 bs.length := Nat.pow_pos (by decide)
      have h9 := toNat_le_of_wordDigit? hd
      have hn : (value.toNat * 10 + digit.toNat + 1) * Nat.pow 10 bs.length ≤ 10000 := by
        have hl : Nat.pow 10 (b :: bs).length = Nat.pow 10 bs.length * 10 := rfl
        rw [hl] at h
        nlinarith
      have hs : value.toNat * 10 + digit.toNat < UInt16.size := by
        simp only [UInt16.size]
        nlinarith
      rw [Arithmetic.wrapping_append_eq hs]
      split
      · rfl
      · rename_i next ha
        apply ih
        rw [Arithmetic.checked_append_eq_some_iff.mp ha]
        exact hn

theorem readWords_toRead (text : List Char) :
    readWords (.toRead (text.flatMap String.utf8EncodeChar)) 0 (text.flatMap String.utf8EncodeChar) =
      (readDigits 0 text).map UInt16.ofNat := by
  rw [← UInt16.toNat_zero, ← readWords_checked]
  unfold Arithmetic.toRead
  split
  · rename_i hl
    apply readWords_wrapping
    have hp := Nat.pow_le_pow_right (show 0 < 10 by decide) hl
    rw [UInt16.toNat_zero, Nat.zero_add, Nat.one_mul]
    exact hp
  · rfl

theorem ne_plusSign_of_octets {c : Char} {b : UInt8} {tail : List UInt8} (hc : c ≠ '+')
    (h : String.utf8EncodeChar c = b :: tail) : b ≠ plusSign := by
  rintro rfl
  by_cases ha : c.toNat ≤ 0x7F
  · have hb : UInt8.ofNat c.toNat = plusSign := (List.cons.inj ((if_pos ha).symm.trans h)).1
    have hn := toNat_octet ha
    rw [hb] at hn
    exact hc (Char.toNat_inj.mp hn.symm)
  · have hb := Text.le_of_mem_utf8EncodeChar (Nat.not_le.mp ha) (h ▸ List.mem_cons_self)
    exact absurd hb (by decide)

theorem readPortWords_octets (text : List Char) :
    readPortWords (text.flatMap String.utf8EncodeChar) = (readPort text).map UInt16.ofNat := by
  cases text with
  | nil => rfl
  | cons c cs =>
    by_cases hc : c = '+'
    · subst hc
      have hp : String.utf8EncodeChar '+' = [plusSign] := by decide
      rw [List.flatMap_cons, hp, List.singleton_append]
      cases cs with
      | nil => rfl
      | cons d ds =>
        have hn : (d :: ds).flatMap String.utf8EncodeChar ≠ [] := by simp
        simp only [readPortWords, hn, false_and, ↓reduceIte]
        exact readWords_toRead (d :: ds)
    · have hr : readPort (c :: cs) = readDigits 0 (c :: cs) := by simp [readPort, hc]
      obtain ⟨b, tail, he⟩ := List.exists_cons_of_ne_nil (String.utf8EncodeChar_ne_nil (c := c))
      rw [hr, ← readWords_toRead, List.flatMap_cons, he, List.cons_append]
      simp only [readPortWords, ne_plusSign_of_octets hc he, false_or, ↓reduceIte]
      split
      · -- a lone minus sign is no digit
        rename_i hm
        obtain ⟨ht, rfl⟩ := hm
        rw [ht]
        rfl
      · rfl

theorem parsePortWords_eq (raw : String) : parsePortWords raw = parsePort raw := by
  rw [parsePortWords, Text.octets_ofList, readPortWords_octets, parsePort]
  cases readPort (Text.trim raw.toList) with
  | ok port => rfl
  | error fault => rfl

/-- The product and the sum that append the digit of a byte to a word, where there is one to keep,
are the product and the sum of the numbers. -/
def Arithmetic.IsExactAt (a : Arithmetic) (value : UInt16) (b : UInt8) : Prop :=
  ∀ tens, a.mul value 10 = some tens → tens.toNat = value.toNat * 10 ∧
    ∀ digit, wordDigit? b = some digit → ∀ next, a.add tens digit = some next →
      next.toNat = tens.toNat + digit.toNat

theorem isExactAt_checked (value : UInt16) (b : UInt8) :
    Arithmetic.checked.IsExactAt value b := by
  intro tens ht
  refine ⟨Arithmetic.checked_mul_eq_some_iff.mp ht, ?_⟩
  intro digit _ next hn
  exact Arithmetic.checked_add_eq_some_iff.mp hn

theorem isExactAt_wrapping {value : UInt16} (h : value.toNat < 1000) (b : UInt8) :
    Arithmetic.wrapping.IsExactAt value b := by
  have ht : (10 : UInt16).toNat = 10 := rfl
  have hm : (value * 10).toNat = value.toNat * 10 := by
    rw [UInt16.toNat_mul, ht]
    exact Nat.mod_eq_of_lt (by omega)
  intro tens hk
  cases hk
  refine ⟨hm, ?_⟩
  intro digit hd next hn
  cases hn
  have h9 := toNat_le_of_wordDigit? hd
  rw [UInt16.toNat_add, hm]
  exact Nat.mod_eq_of_lt (by omega)

theorem toNat_lt_of_readWords {value last : UInt16} {bytes : List UInt8}
    (h : (value.toNat + 1) * Nat.pow 10 bytes.length ≤ 1000)
    (hr : readWords .wrapping value bytes = .ok last) :
    last.toNat < (value.toNat + 1) * Nat.pow 10 bytes.length := by
  induction bytes generalizing value with
  | nil =>
    cases hr
    exact Nat.lt_of_lt_of_eq (Nat.lt_succ_self _) (Nat.mul_one _).symm
  | cons b bs ih =>
    have hl : Nat.pow 10 (b :: bs).length = Nat.pow 10 bs.length * 10 := rfl
    have hp : 0 < Nat.pow 10 bs.length := Nat.pow_pos (by decide)
    rw [hl] at h ⊢
    simp only [readWords] at hr
    split at hr
    · cases hr
    · rename_i digit hd
      have h9 := toNat_le_of_wordDigit? hd
      have hv : value.toNat < 1000 := by nlinarith
      obtain ⟨hm, hs⟩ := isExactAt_wrapping hv b _ rfl
      split at hr
      · cases hr
      · rename_i next hn
        have hn : next.toNat = value.toNat * 10 + digit.toNat := by rw [hs digit hd next hn, hm]
        have hb : (next.toNat + 1) * Nat.pow 10 bs.length ≤
            (value.toNat + 1) * (Nat.pow 10 bs.length * 10) := by
          rw [hn]
          nlinarith
        exact Nat.lt_of_lt_of_le (ih (Nat.le_trans hb h) hr) hb

theorem isExactAt_of_readWords {front back : List UInt8} {b : UInt8} {value : UInt16}
    (h : readWords (.toRead (front ++ b :: back)) 0 front = .ok value) :
    (Arithmetic.toRead (front ++ b :: back)).IsExactAt value b := by
  unfold Arithmetic.toRead at h ⊢
  split at h
  · rename_i hl
    rw [if_pos hl]
    apply isExactAt_wrapping
    have hf : front.length ≤ 3 := by
      simp only [List.length_append, List.length_cons] at hl
      omega
    have hb : ((0 : UInt16).toNat + 1) * Nat.pow 10 front.length ≤ Nat.pow 10 3 := by
      rw [UInt16.toNat_zero, Nat.zero_add, Nat.one_mul]
      exact Nat.pow_le_pow_right (show 0 < 10 by decide) hf
    exact Nat.lt_of_lt_of_le (toNat_lt_of_readWords hb h) hb
  · rename_i hl
    rw [if_neg hl]
    exact isExactAt_checked value b

theorem parsePort_exact (raw : String) :
    (∀ port, parsePort raw = .ok port ↔ IsPortText raw port.toNat) ∧
    (∀ e, parsePort raw = .error e ↔
      e.raw = raw ∧ ∃ core, Text.IsCore Text.isBlank core raw.toList ∧ Faulty core e.fault) ∧
    (∀ e, parsePort raw = .error e →
      e.message = "PORT must be a valid port number, got " ++ Text.quoted raw ∧
      e.chain = e.message ++ ": " ++ e.fault.describe) ∧
    parsePort raw = parsePortWords raw ∧
    ∀ front b back value, readWords (.toRead (front ++ b :: back)) 0 front = .ok value →
      (Arithmetic.toRead (front ++ b :: back)).IsExactAt value b := by
  refine ⟨?_, ?_, ?_, (parsePortWords_eq raw).symm, ?_⟩
  · intro port
    exact parsePort_eq_ok_iff
  · intro e
    exact parsePort_eq_error_iff
  · intro e he
    obtain ⟨hr, -⟩ := parsePort_eq_error_iff.mp he
    constructor
    · unfold PortError.message
      rw [hr]
    · unfold PortError.chain
      rfl
  · intro front b back value h
    exact isExactAt_of_readWords h

theorem parsePort_exact_beyond :
    parsePort " +65536\n" = .error ⟨" +65536\n", .tooLarge⟩ ∧
      PortError.message ⟨" +65536\n", .tooLarge⟩ =
        "PORT must be a valid port number, got \" +65536\\n\"" := by
  obtain ⟨-, he, hm, -⟩ := parsePort_exact " +65536\n"
  have hf : Faulty ['+', '6', '5', '5', '3', '6'] .tooLarge :=
    .spoiled (rfl : _ = ['6', '5', '5', '3'] ++ '6' :: []) (List.all_eq_true.mp (by decide))
      (by decide) (.beyond (by decide) (by decide))
  have hc : Text.IsCore Text.isBlank ['+', '6', '5', '5', '3', '6'] " +65536\n".toList :=
    Text.rdropWhile_eq_iff.mp (by decide)
  have hp := (he ⟨" +65536\n", .tooLarge⟩).mpr ⟨rfl, _, hc, hf⟩
  exact ⟨hp, (hm _ hp).1.trans (by decide +kernel)⟩

end PhraseSql.Settings

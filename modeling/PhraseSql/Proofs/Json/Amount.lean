import Mathlib.Algebra.Order.Field.Rat
import Mathlib.Data.Nat.Digits.Defs
import PhraseSql.Proofs.Json.Grammar

namespace PhraseSql.Json

def digitsAmount (digits : List UInt8) : Nat :=
  Nat.ofDigits 10 (digits.reverse.map fun b => b.toNat - 0x30)

def fractionAmount : List UInt8 → ℚ
  | [] => 0
  | _ :: digits => digitsAmount digits / 10 ^ digits.length

def exponentAmount : List UInt8 → ℤ
  | [] => 0
  | _ :: signed =>
    if signed.head? = some minus then -digitsAmount signed.tail
    else if signed.head? = some plus then digitsAmount signed.tail
    else digitsAmount signed

inductive Amount : List UInt8 → ℤ → ℚ → Prop where
  | parts {sign whole fraction exponent : List UInt8} (hs : sign ∈ [[], [minus]])
      (hw : WholePart whole) (hf : Fraction fraction) (he : Exponent exponent) :
      Amount (sign ++ (whole ++ (fraction ++ exponent))) (exponentAmount exponent)
        ((digitsAmount whole + fractionAmount fraction) * 10 ^ exponentAmount exponent)

theorem Amount.numberLiteral {token : List UInt8} {exponent : ℤ} {amount : ℚ}
    (h : Amount token exponent amount) : NumberLiteral token := by
  cases h with
  | parts hs hw hf he => exact .parts hs hw hf he

theorem exists_amount {token : List UInt8} (h : NumberLiteral token) :
    ∃ exponent amount, Amount token exponent amount := by
  cases h with
  | parts hs hw hf he => exact ⟨_, _, .parts hs hw hf he⟩

theorem digitsAmount_append (front back : List UInt8) :
    digitsAmount (front ++ back) = digitsAmount front * 10 ^ back.length + digitsAmount back := by
  simp only [digitsAmount, List.reverse_append, List.map_append, Nat.ofDigits_append,
    List.length_map, List.length_reverse]
  rw [Nat.add_comm, Nat.mul_comm]

theorem digitsAmount_singleton (b : UInt8) : digitsAmount [b] = digitValue b := by
  simp [digitsAmount, digitValue]

theorem digitsAmount_cons (b : UInt8) (digits : List UInt8) :
    digitsAmount (b :: digits) = digitValue b * 10 ^ digits.length + digitsAmount digits := by
  rw [← digitsAmount_singleton, ← digitsAmount_append, List.singleton_append]

theorem digitValue_lt {b : UInt8} (h : isDigit b = true) : digitValue b < 10 := by
  rw [isDigit, Bool.and_eq_true, decide_eq_true_eq, decide_eq_true_eq] at h
  have hu : b.toNat ≤ 0x39 := UInt8.le_iff_toNat_le.mp h.2
  rw [digitValue]
  omega

theorem digitsAmount_lt {digits : List UInt8} (hd : ∀ b ∈ digits, isDigit b = true) :
    digitsAmount digits < 10 ^ digits.length := by
  have hl : ∀ n ∈ digits.reverse.map (fun b => b.toNat - 0x30), n < 10 := by
    intro n hn
    obtain ⟨b, hb, rfl⟩ := List.mem_map.mp hn
    exact digitValue_lt (hd b (List.mem_reverse.mp hb))
  have h := Nat.ofDigits_lt_base_pow_length (by decide) hl
  rwa [List.length_map, List.length_reverse] at h

end PhraseSql.Json

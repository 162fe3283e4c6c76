import PhraseSql.Proofs.Json.Written
import PhraseSql.Proofs.Text.WellFormed

namespace PhraseSql.Json

def hexByte (capital : Bool) (n : Nat) : UInt8 :=
  if capital then (Nat.digitChar n).toUpper.toUInt8 else (Nat.digitChar n).toUInt8

def unitDigits (capital : Nat → Bool) (place n : Nat) : List UInt8 :=
  [hexByte (capital place) (n / 0x1000 % 16), hexByte (capital (place + 1)) (n / 0x100 % 16),
    hexByte (capital (place + 2)) (n / 0x10 % 16), hexByte (capital (place + 3)) (n % 16)]

inductive Manner where
  | plain
  | short
  | numbered (capital : Nat → Bool)

def Manner.write? (c : Char) : Manner → Option (List UInt8)
  | plain => if 0x20 ≤ c.toNat ∧ c ≠ '"' ∧ c ≠ '\\' then some (String.utf8EncodeChar c) else none
  | short => (shortEscapes.find? fun p => p.2 = c).map fun p => [backslash, p.1]
  | numbered capital =>
    if c.toNat < 0x10000 then some (backslash :: letterU :: unitDigits capital 0 c.toNat)
    else
      let high := 0xD800 + (c.toNat - 0x10000) / 0x400
      let low := 0xDC00 + (c.toNat - 0x10000) % 0x400
      some (backslash :: letterU ::
        (unitDigits capital 0 high ++ backslash :: letterU :: unitDigits capital 4 low))

def writeAll? : List (Char × Manner) → Option (List UInt8)
  | [] => some []
  | (c, m) :: rest => do
    let s ← m.write? c
    let bytes ← writeAll? rest
    some (s ++ bytes)

theorem isHexDigit_hexByte (capital : Bool) {n : Nat} (h : n < 16) :
    IsHexDigit (hexByte capital n) n := by
  cases capital with
  | false => exact ⟨h, .inl rfl⟩
  | true => exact ⟨h, .inr rfl⟩

theorem hexUnit_unitDigits (capital : Nat → Bool) (place : Nat) {n : Nat} (h : n < 0x10000) :
    HexUnit (unitDigits capital place n) n := by
  have hd (k i : Nat) : IsHexDigit (hexByte (capital i) (k % 16)) (k % 16) :=
    isHexDigit_hexByte (capital i) (Nat.mod_lt k (by decide))
  have hu := HexUnit.digits (hd (n / 0x1000) place) (hd (n / 0x100) (place + 1))
    (hd (n / 0x10) (place + 2)) (hd n (place + 3))
  have hn : ((n / 0x1000 % 16 * 16 + n / 0x100 % 16) * 16 + n / 0x10 % 16) * 16 + n % 16 = n := by
    omega
  rw [hn] at hu
  exact hu

theorem spelling_write? {c : Char} {m : Manner} {s : List UInt8} (h : m.write? c = some s) :
    Spelling s c := by
  cases m with
  | plain =>
    simp only [Manner.write?, Option.ite_none_right_eq_some, Option.some.injEq] at h
    obtain ⟨⟨hc, hq, hb⟩, rfl⟩ := h
    exact .plain hc hq hb
  | short =>
    simp only [Manner.write?, Option.map_eq_some_iff] at h
    obtain ⟨⟨b, c'⟩, hf, rfl⟩ := h
    obtain rfl : c' = c := by simpa using List.find?_some hf
    exact .escape (.short (List.mem_of_find?_eq_some hf))
  | numbered capital =>
    simp only [Manner.write?] at h
    split at h
    · rename_i hc
      cases h
      exact .escape (.unit (hexUnit_unitDigits capital 0 hc))
    · have hc := Text.toNat_lt c
      cases h
      refine .escape (.pair (hexUnit_unitDigits capital 0 ?_) (hexUnit_unitDigits capital 4 ?_)
        ⟨?_, ?_⟩ ⟨?_, ?_⟩ ?_)
      all_goals omega

theorem spells_writeAll? {marked : List (Char × Manner)} {s : List UInt8}
    (h : writeAll? marked = some s) : Spells s (marked.map Prod.fst) := by
  induction marked generalizing s with
  | nil =>
    cases h
    exact .nil
  | cons p marked ih =>
    obtain ⟨c, m⟩ := p
    simp only [writeAll?, Option.bind_eq_bind, Option.bind_eq_some_iff, Option.some.injEq] at h
    obtain ⟨t, ht, bytes, hb, rfl⟩ := h
    exact .cons (spelling_write? ht) (ih hb)

end PhraseSql.Json

import Mathlib.Data.List.Basic
import PhraseSql.Text.Utf8

/-!
Which bytes are characters in UTF-8, by the forms that these take.
-/

namespace PhraseSql.Text

/-- A range of first bytes, and how many bytes follow one. Below the least number a shorter form has
room. -/
structure Form where
  first : Nat
  bound : Nat
  following : Nat
  least : Nat

def Form.ascii : Form := ⟨0x00, 0x80, 0, 0⟩

def forms : List Form :=
  [.ascii, ⟨0xC0, 0xE0, 1, 0x80⟩, ⟨0xE0, 0xF0, 2, 0x800⟩, ⟨0xF0, 0xF8, 3, 0x10000⟩]

def sixBits (d : Nat) : UInt8 := UInt8.ofNat (d + 0x80)

def Follows (b : UInt8) : Prop := 0x80 ≤ b ∧ b < 0xC0

def number (lead : Nat) (digits : List Nat) : Nat :=
  digits.foldl (fun n d => n * 64 + d) lead

def Form.bytes (f : Form) (lead : Nat) (digits : List Nat) : List UInt8 :=
  UInt8.ofNat (lead + f.first) :: digits.map sixBits

structure Form.Fits (f : Form) (lead : Nat) (digits : List Nat) : Prop where
  lead_lt : lead + f.first < f.bound
  digit_lt : ∀ d ∈ digits, d < 64

def IsCharacter (bytes : List UInt8) (c : Char) : Prop :=
  ∃ f ∈ forms, ∃ lead digits, f.Fits lead digits ∧ digits.length = f.following ∧
    number lead digits = c.toNat ∧ f.least ≤ c.toNat ∧ bytes = f.bytes lead digits

inductive WellFormed : List UInt8 → Prop where
  | nil : WellFormed []
  | cons {s rest : List UInt8} {c : Char} (h : IsCharacter s c) (hr : WellFormed rest) :
      WellFormed (s ++ rest)

theorem utf8EncodeChar_of_isCharacter {bytes : List UInt8} {c : Char} (h : IsCharacter bytes c) :
    bytes = String.utf8EncodeChar c := by
  obtain ⟨f, hf, lead, digits, ⟨hb, hd⟩, hl, hn, hm, rfl⟩ := h
  have hv : c.val.toNat = c.toNat := rfl
  simp only [forms, List.mem_cons, List.not_mem_nil, or_false] at hf
  rw [String.utf8EncodeChar, hv]
  rcases hf with rfl | rfl | rfl | rfl <;> dsimp only [Form.ascii] at hb hm
  · obtain rfl := List.eq_nil_of_length_eq_zero hl
    rw [← hn, number, List.foldl_nil, if_pos (by omega)]
    rfl
  · obtain ⟨x, rfl⟩ := List.length_eq_one_iff.mp hl
    simp only [List.forall_mem_cons, number, List.foldl_cons, List.foldl_nil] at hn hd
    have h1 : c.toNat / 64 % 32 = lead := by omega
    have h2 : c.toNat % 64 = x := by omega
    rw [if_neg (by omega), if_pos (by omega), h1, h2]
    rfl
  · obtain ⟨x, y, rfl⟩ := List.length_eq_two.mp hl
    simp only [List.forall_mem_cons, number, List.foldl_cons, List.foldl_nil] at hn hd
    have h1 : c.toNat / 4096 % 16 = lead := by omega
    have h2 : c.toNat / 64 % 64 = x := by omega
    have h3 : c.toNat % 64 = y := by omega
    rw [if_neg (by omega), if_neg (by omega), if_pos (by omega), h1, h2, h3]
    rfl
  · obtain ⟨x, y, z, rfl⟩ := List.length_eq_three.mp hl
    simp only [List.forall_mem_cons, number, List.foldl_cons, List.foldl_nil] at hn hd
    have h1 : c.toNat / 262144 % 8 = lead := by omega
    have h2 : c.toNat / 4096 % 64 = x := by omega
    have h3 : c.toNat / 64 % 64 = y := by omega
    have h4 : c.toNat % 64 = z := by omega
    rw [if_neg (by omega), if_neg (by omega), if_neg (by omega), h1, h2, h3, h4]
    rfl

theorem toNat_lt (c : Char) : c.toNat < 0x110000 := by
  have hv : c.val.toNat = c.toNat := rfl
  rcases c.valid with h | ⟨-, h⟩ <;> omega

theorem isCharacter_utf8EncodeChar (c : Char) : IsCharacter (String.utf8EncodeChar c) c := by
  have hv : c.val.toNat = c.toNat := rfl
  have hc := toNat_lt c
  have hd (k : Nat) : k % 64 < 64 := Nat.mod_lt k (by decide)
  rw [String.utf8EncodeChar, hv]
  split
  · refine ⟨.ascii, by simp [forms], c.toNat, [], ⟨?_, by simp⟩, rfl, rfl, ?_, rfl⟩
    · dsimp only [Form.ascii]
      omega
    · exact Nat.zero_le _
  split
  · refine ⟨⟨0xC0, 0xE0, 1, 0x80⟩, by simp [forms], c.toNat / 64 % 32, [c.toNat % 64],
      ⟨?_, by simp [hd]⟩, rfl, ?_, ?_, rfl⟩
    · dsimp only
      omega
    · simp only [number, List.foldl_cons, List.foldl_nil]
      omega
    · dsimp only
      omega
  split
  · refine ⟨⟨0xE0, 0xF0, 2, 0x800⟩, by simp [forms], c.toNat / 4096 % 16,
      [c.toNat / 64 % 64, c.toNat % 64], ⟨?_, by simp [hd]⟩, rfl, ?_, ?_, rfl⟩
    · dsimp only
      omega
    · simp only [number, List.foldl_cons, List.foldl_nil]
      omega
    · dsimp only
      omega
  · refine ⟨⟨0xF0, 0xF8, 3, 0x10000⟩, by simp [forms], c.toNat / 262144 % 8,
      [c.toNat / 4096 % 64, c.toNat / 64 % 64, c.toNat % 64], ⟨?_, by simp [hd]⟩, rfl, ?_, ?_, rfl⟩
    · dsimp only
      omega
    · simp only [number, List.foldl_cons, List.foldl_nil]
      omega
    · dsimp only
      omega

theorem isCharacter_iff {bytes : List UInt8} {c : Char} :
    IsCharacter bytes c ↔ bytes = String.utf8EncodeChar c := by
  constructor
  · exact utf8EncodeChar_of_isCharacter
  · rintro rfl
    exact isCharacter_utf8EncodeChar c

theorem wellFormed_iff {bytes : List UInt8} :
    WellFormed bytes ↔ ∃ text : List Char, bytes = text.flatMap String.utf8EncodeChar := by
  constructor
  · intro h
    induction h with
    | nil => exact ⟨[], rfl⟩
    | @cons s rest c h hr ih =>
      obtain ⟨text, rfl⟩ := ih
      exact ⟨c :: text, by rw [isCharacter_iff.mp h, List.flatMap_cons]⟩
  · rintro ⟨text, rfl⟩
    induction text with
    | nil => exact .nil
    | cons c text ih =>
      rw [List.flatMap_cons]
      exact .cons (isCharacter_utf8EncodeChar c) ih

theorem toNat_ofNat_lead {f : Form} (hf : f ∈ forms) {lead : Nat} (h : lead + f.first < f.bound) :
    (UInt8.ofNat (lead + f.first)).toNat = lead + f.first := by
  apply UInt8.toNat_ofNat_of_lt
  simp only [forms, List.mem_cons, List.not_mem_nil, or_false] at hf
  have hb : f.bound ≤ 0xF8 := by rcases hf with rfl | rfl | rfl | rfl <;> decide
  exact Nat.lt_of_lt_of_le h (Nat.le_trans hb (by decide))

theorem form_eq_of_lead {f g : Form} (hf : f ∈ forms) (hg : g ∈ forms) {m n : Nat}
    (hm : m + f.first < f.bound) (hn : n + g.first < g.bound)
    (h : UInt8.ofNat (m + f.first) = UInt8.ofNat (n + g.first)) : f = g ∧ m = n := by
  have he : m + f.first = n + g.first := by
    rw [← toNat_ofNat_lead hf hm, ← toNat_ofNat_lead hg hn, h]
  simp only [forms, List.mem_cons, List.not_mem_nil, or_false] at hf hg
  rcases hf with rfl | rfl | rfl | rfl <;> rcases hg with rfl | rfl | rfl | rfl <;>
    dsimp only [Form.ascii] at hm hn he
  all_goals first | exact ⟨rfl, Nat.add_right_cancel he⟩ | (exfalso; omega)

inductive IllFormed : List UInt8 → Prop where
  | truncated {f : Form} {lead : Nat} {digits : List Nat} {back : List UInt8} (hf : f ∈ forms)
      (h : f.Fits lead digits) (hl : digits.length < f.following)
      (hb : ∀ b ∈ back.head?, ¬ Follows b) : IllFormed (f.bytes lead digits ++ back)
  | overlong {f : Form} {lead : Nat} {digits : List Nat} {back : List UInt8} (hf : f ∈ forms)
      (h : f.Fits lead digits) (hl : digits.length = f.following)
      (hn : number lead digits < f.least) : IllFormed (f.bytes lead digits ++ back)
  | noCharacter {f : Form} {lead : Nat} {digits : List Nat} {back : List UInt8} (hf : f ∈ forms)
      (h : f.Fits lead digits) (hl : digits.length = f.following)
      (hn : ∀ c : Char, c.toNat ≠ number lead digits) : IllFormed (f.bytes lead digits ++ back)

theorem toNat_sixBits {d : Nat} (h : d < 64) : (sixBits d).toNat = d + 0x80 :=
  UInt8.toNat_ofNat_of_lt (Nat.lt_trans (Nat.add_lt_add_right h 0x80) (by decide))

theorem follows_sixBits {d : Nat} (h : d < 64) : Follows (sixBits d) := by
  rw [Follows, UInt8.le_iff_toNat_le, UInt8.lt_iff_toNat_lt, toNat_sixBits h]
  exact ⟨Nat.le_add_left _ _, Nat.add_lt_add_right h 0x80⟩

theorem map_sixBits_inj {xs ys : List Nat} (hx : ∀ d ∈ xs, d < 64) (hy : ∀ d ∈ ys, d < 64)
    (h : xs.map sixBits = ys.map sixBits) : xs = ys := by
  have hid (ds : List Nat) (hd : ∀ d ∈ ds, d < 64) :
      (ds.map sixBits).map (fun b => b.toNat - 0x80) = ds := by
    have he : ∀ d ∈ ds, ((fun b => b.toNat - 0x80) ∘ sixBits) d = id d := by
      intro d hm
      rw [Function.comp_apply, toNat_sixBits (hd d hm), Nat.add_sub_cancel, id]
    rw [List.map_map, List.map_congr_left he, List.map_id]
  rw [← hid xs hx, h, hid ys hy]

theorem exists_digits_of_append {f : Form} (hf : f ∈ forms) {lead : Nat} {digits : List Nat}
    (hd : f.Fits lead digits) {c : Char} {rest back : List UInt8}
    (h : String.utf8EncodeChar c ++ rest = f.bytes lead digits ++ back) :
    ∃ digits', (∀ d ∈ digits', d < 64) ∧ digits'.length = f.following ∧
      number lead digits' = c.toNat ∧ f.least ≤ c.toNat ∧
      digits'.map sixBits ++ rest = digits.map sixBits ++ back := by
  obtain ⟨g, hg, lead', digits', ⟨hl, hd'⟩, hlen, hn, hm, hc⟩ := isCharacter_utf8EncodeChar c
  rw [hc, Form.bytes, Form.bytes, List.cons_append, List.cons_append, List.cons.injEq] at h
  obtain ⟨rfl, rfl⟩ := form_eq_of_lead hg hf hl hd.lead_lt h.1
  exact ⟨digits', hd', hlen, hn, hm, h.2⟩

theorem IllFormed.ne_append {bytes : List UInt8} (h : IllFormed bytes) (c : Char)
    (rest : List UInt8) : bytes ≠ String.utf8EncodeChar c ++ rest := by
  intro he
  cases h with
  | @truncated f lead digits back hf h hl hb =>
    obtain ⟨digits', hd, hlen, -, -, ht⟩ := exists_digits_of_append hf h he.symm
    -- the character has a digit where none follows
    rcases List.append_eq_append_iff.mp ht with ⟨z, hz, -⟩ | ⟨z, hz, rfl⟩
    · have hz := congrArg List.length hz
      simp only [List.length_append, List.length_map] at hz
      omega
    · cases z with
      | nil =>
        have hz := congrArg List.length hz
        simp only [List.length_append, List.length_map, List.length_nil] at hz
        omega
      | cons b z =>
        have hm : b ∈ digits'.map sixBits := hz ▸ List.mem_append_right _ List.mem_cons_self
        obtain ⟨d, hd', rfl⟩ := List.mem_map.mp hm
        exact hb _ rfl (follows_sixBits (hd d hd'))
  | overlong hf h hl hn =>
    obtain ⟨digits', hd, hlen, hc, hm, ht⟩ := exists_digits_of_append hf h he.symm
    have hx := (List.append_inj ht (by simp [hl, hlen])).1
    rw [map_sixBits_inj hd h.digit_lt hx] at hc
    omega
  | noCharacter hf h hl hn =>
    obtain ⟨digits', hd, hlen, hc, hm, ht⟩ := exists_digits_of_append hf h he.symm
    have hx := (List.append_inj ht (by simp [hl, hlen])).1
    rw [map_sixBits_inj hd h.digit_lt hx] at hc
    exact hn c hc.symm

theorem eq_ascii_or_le {f : Form} (hf : f ∈ forms) : f = .ascii ∨ 0xC0 ≤ f.first := by
  simp only [forms, List.mem_cons, List.not_mem_nil, or_false] at hf
  rcases hf with rfl | rfl | rfl | rfl
  · exact .inl rfl
  all_goals exact .inr (by decide)

theorem IllFormed.exists_cons {bytes : List UInt8} (h : IllFormed bytes) :
    ∃ b tail, bytes = b :: tail ∧ 0xC0 ≤ b := by
  have hs {f : Form} {lead : Nat} {digits back : List _} (hf : f ∈ forms)
      (hd : f.Fits lead digits) (hl : 0xC0 ≤ f.first) :
      ∃ b tail, f.bytes lead digits ++ back = b :: tail ∧ 0xC0 ≤ b := by
    refine ⟨_, _, rfl, ?_⟩
    rw [UInt8.le_iff_toNat_le, toNat_ofNat_lead hf hd.lead_lt]
    exact Nat.le_add_left_of_le hl
  cases h with
  | truncated hf h hl =>
    rcases eq_ascii_or_le hf with rfl | hle
    · cases hl
    · exact hs hf h hle
  | overlong hf h hl hn =>
    rcases eq_ascii_or_le hf with rfl | hle
    · cases hn
    · exact hs hf h hle
  | @noCharacter f lead digits back hf h hl hn =>
    rcases eq_ascii_or_le hf with rfl | hle
    · obtain rfl := List.eq_nil_of_length_eq_zero hl
      have hv : lead.isValidChar := .inl (Nat.lt_trans h.lead_lt (by decide))
      exact absurd rfl (hn (Char.ofNatAux lead hv))
    · exact hs hf h hle

end PhraseSql.Text

import Mathlib.Algebra.GroupWithZero.Nat
import PhraseSql.Text.Cut

namespace PhraseSql.Text

def size (text : List Char) : Nat := (text.map Char.utf8Size).sum

theorem size_cons (c : Char) (text : List Char) : size (c :: text) = c.utf8Size + size text := by
  simp [size]

theorem size_append (front rest : List Char) : size (front ++ rest) = size front + size rest := by
  simp [size]

theorem eq_nil_of_size_eq_zero {text : List Char} (h : size text = 0) : text = [] := by
  cases text with
  | nil => rfl
  | cons c text =>
    have hc := c.utf8Size_pos
    rw [size_cons] at h
    omega

theorem splitBytes?_append (front rest : List Char) :
    splitBytes? (size front) (front ++ rest) = some (front, rest) := by
  induction front with
  | nil => simp [size, splitBytes?]
  | cons c front ih =>
    have hc := c.utf8Size_pos
    obtain ⟨n, hn⟩ : ∃ n, c.utf8Size + size front = n + 1 := ⟨c.utf8Size + size front - 1, by omega⟩
    have hle : c.utf8Size ≤ n + 1 := by omega
    have hs : n + 1 - c.utf8Size = size front := by omega
    rw [size_cons, hn, List.cons_append, splitBytes?, if_pos hle, hs, ih]
    rfl

def IsPlace (text : List Char) (n : Nat) : Prop := ∃ front rest, text = front ++ rest ∧ size front = n

theorem isPlace_zero (text : List Char) : IsPlace text 0 :=
  ⟨[], text, rfl, rfl⟩

theorem isPlace_size_of_prefix {front text : List Char} (h : front <+: text) :
    IsPlace text (size front) := by
  obtain ⟨rest, rfl⟩ := h
  exact ⟨front, rest, rfl, rfl⟩

def IsAscii (text : List Char) : Prop := ∀ c ∈ text, c.utf8Size = 1

theorem size_eq_length {text : List Char} (h : IsAscii text) : size text = text.length := by
  induction text with
  | nil => rfl
  | cons c text ih =>
    obtain ⟨hc, ht⟩ := List.forall_mem_cons.mp h
    rw [size_cons, hc, ih ht, List.length_cons, Nat.add_comm]

theorem isPlace_of_isAscii {text : List Char} (h : IsAscii text) {n : Nat} (hn : n ≤ text.length) :
    IsPlace text n := by
  have ht : IsAscii (text.take n) := fun c hc => h c (List.mem_of_mem_take hc)
  have hs : size (text.take n) = n := by
    rw [size_eq_length ht, List.length_take, Nat.min_eq_left hn]
  rw [← hs]
  exact isPlace_size_of_prefix (List.take_prefix n text)

theorem exists_cutFrom? {text : List Char} {start : Nat} (h : IsPlace text start) :
    ∃ rest, cutFrom? text start = some rest := by
  obtain ⟨front, rest, rfl, rfl⟩ := h
  exact ⟨rest, by rw [cutFrom?, splitBytes?_append]; rfl⟩

theorem exists_cut? {text : List Char} {start stop : Nat} (h : IsPlace text start)
    (h' : IsPlace text stop) (hle : start ≤ stop) : ∃ part, cut? text start stop = some part := by
  obtain ⟨front, rest, rfl, rfl⟩ := h
  obtain ⟨front', rest', he, rfl⟩ := h'
  have hp : ∃ part, front' = front ++ part ∧ rest = part ++ rest' := by
    rcases List.append_eq_append_iff.mp he with ⟨part, hf, hr⟩ | ⟨part, hf, hr⟩
    · exact ⟨part, hf, hr⟩
    · rw [hf, size_append] at hle
      have hn : part = [] := eq_nil_of_size_eq_zero (by omega)
      subst hn
      exact ⟨[], by simpa using hf.symm, by simpa using hr.symm⟩
  obtain ⟨part, rfl, rfl⟩ := hp
  have hs : size (front ++ part) - size front = size part := by
    rw [size_append]
    omega
  refine ⟨part, ?_⟩
  simp only [cut?, splitBytes?_append, hs, Option.bind_eq_bind, Option.bind_some]

end PhraseSql.Text

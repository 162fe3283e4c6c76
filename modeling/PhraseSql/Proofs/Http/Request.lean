import Mathlib.Data.List.TakeDrop
import PhraseSql.Http.Request

namespace PhraseSql.Http

def Method.IsWritten : Method → List UInt8 → Prop
  | .get, token => token = Text.octets "GET"
  | .head, token => token = Text.octets "HEAD"
  | .post, token => token = Text.octets "POST"
  | .options, token => token = Text.octets "OPTIONS"
  | .other, token => token ∉ ["GET", "HEAD", "POST", "OPTIONS"].map Text.octets

def EndsPath (rest : List UInt8) : Prop :=
  ∀ b ∈ rest.head?, b = questionMark ∨ b = hash

def StaysInPath (bytes : List UInt8) : Prop :=
  ∀ b ∈ bytes, b ≠ questionMark ∧ b ≠ hash

def StaysInAuthority (bytes : List UInt8) : Prop :=
  ∀ b ∈ bytes, b ≠ slash ∧ b ≠ questionMark ∧ b ≠ hash

inductive RawPath : List UInt8 → List UInt8 → Prop where
  | star : RawPath [star] [star]
  | origin {path rest : List UInt8} (hs : path.head? = some slash) (hp : StaysInPath path)
      (hr : EndsPath rest) : RawPath (path ++ rest) path
  | authority {target : List UInt8} (hs : target ≠ [Http.star]) (h : StaysInAuthority target) :
      RawPath target []
  | absolute {scheme authority path rest : List UInt8} (hs : ∀ b ∈ scheme, isSchemeByte b = true)
      (ha : StaysInAuthority authority) (hf : path.head? = some slash) (hp : StaysInPath path)
      (hr : EndsPath rest) :
      RawPath (scheme ++ (Text.octets "://" ++ (authority ++ (path ++ rest)))) path
  | root {scheme authority rest : List UInt8} (hs : ∀ b ∈ scheme, isSchemeByte b = true)
      (ha : StaysInAuthority authority) (hr : EndsPath rest) :
      RawPath (scheme ++ (Text.octets "://" ++ (authority ++ rest))) [slash]

theorem method_unique {m m' : Method} {token : List UInt8} (h : m.IsWritten token)
    (h' : m'.IsWritten token) : m = m' := by
  cases m <;> cases m' <;> simp only [Method.IsWritten] at h h' <;> first
    | rfl
    | (subst h; revert h'; decide)
    | (subst h'; revert h; decide)

theorem toUInt8_ofUInt8 (b : UInt8) : (Char.ofUInt8 b).toUInt8 = b := by
  have h : ∀ n < 256, (Char.ofUInt8 (UInt8.ofNat n)).toUInt8 = UInt8.ofNat n := by decide +kernel
  simpa using h b.toNat b.toNat_lt

theorem eq_of_map_ofUInt8 {bytes : List UInt8} {text : List Char}
    (h : bytes.map Char.ofUInt8 = text) : bytes = text.map Char.toUInt8 := by
  rw [← h, List.map_map]
  exact (List.map_id'' toUInt8_ofUInt8 bytes).symm

theorem isWritten_of_ofToken? {token : List UInt8} {m : Method}
    (h : Method.ofToken? token = some m) : m.IsWritten token := by
  unfold Method.ofToken? at h
  split at h
  · cases h
  · split at h
    · rename_i ht
      cases h
      exact eq_of_map_ofUInt8 ht
    · rename_i ht
      cases h
      exact eq_of_map_ofUInt8 ht
    · rename_i ht
      cases h
      exact eq_of_map_ofUInt8 ht
    · rename_i ht
      cases h
      exact eq_of_map_ofUInt8 ht
    · rename_i hg hh hp ho
      cases h
      simp only [Method.IsWritten, List.map_cons, List.map_nil, List.mem_cons, List.not_mem_nil,
        or_false]
      rintro (rfl | rfl | rfl | rfl)
      · exact hg rfl
      · exact hh rfl
      · exact hp rfl
      · exact ho rfl

theorem not_of_mem_head?_dropWhile {p : UInt8 → Bool} {bytes : List UInt8} {b : UInt8}
    (h : b ∈ (bytes.dropWhile p).head?) : p b = false := by
  have hn := List.head?_dropWhile_not p bytes
  rwa [Option.mem_def.mp h] at hn

theorem front_of_pathOf? {bytes path : List UInt8} (h : pathOf? bytes = some path) :
    ∃ front rest, bytes = front ++ rest ∧ StaysInPath front ∧ EndsPath rest ∧
      path = if front = [] then [slash] else front := by
  simp only [pathOf?] at h
  split at h
  · cases h
    refine ⟨_, _, List.takeWhile_append_dropWhile.symm, ?_, ?_, rfl⟩
    · intro b hb
      simpa using List.all_eq_true.mp List.all_takeWhile b hb
    · intro b hb
      have hn := not_of_mem_head?_dropWhile hb
      simpa [Decidable.or_iff_not_imp_left] using hn
  · cases h

theorem splitAuthority_spec (bytes : List UInt8) :
    bytes = (splitAuthority bytes).1 ++ (splitAuthority bytes).2 ∧
      StaysInAuthority (splitAuthority bytes).1 ∧
      ∀ b ∈ (splitAuthority bytes).2.head?, b = slash ∨ b = questionMark ∨ b = hash := by
  rw [splitAuthority, List.span_eq_takeWhile_dropWhile]
  refine ⟨List.takeWhile_append_dropWhile.symm, ?_, ?_⟩
  · intro b hb
    simpa [and_assoc] using List.all_eq_true.mp List.all_takeWhile b hb
  · intro b hb
    have hn := not_of_mem_head?_dropWhile hb
    simp only [Bool.and_eq_false_iff, decide_eq_false_iff_not, Decidable.not_not] at hn
    rwa [or_assoc] at hn

theorem scheme_of_ofBytes {bytes rest : List UInt8} (h : Scheme.ofBytes bytes = .before rest) :
    ∃ scheme, (∀ b ∈ scheme, isSchemeByte b = true) ∧
      bytes = scheme ++ (Text.octets "://" ++ rest) := by
  simp only [Scheme.ofBytes] at h
  split at h
  · rename_i tail ht
    split at h
    · cases h
    · split at h
      · cases h
      · cases h
        refine ⟨bytes.takeWhile isSchemeByte, ?_, ?_⟩
        · intro b hb
          exact List.all_eq_true.mp List.all_takeWhile b hb
        · have hd := List.take_append_drop (bytes.takeWhile isSchemeByte).length bytes
          rw [ht, ← List.prefix_iff_eq_take.mp (List.takeWhile_prefix isSchemeByte)] at hd
          exact hd.symm
  · cases h

theorem rawPath_absolute {scheme authority rest path : List UInt8}
    (hs : ∀ b ∈ scheme, isSchemeByte b = true) (ha : StaysInAuthority authority)
    (hr : ∀ b ∈ rest.head?, b = slash ∨ b = questionMark ∨ b = hash) (h : pathOf? rest = some path) :
    RawPath (scheme ++ (Text.octets "://" ++ (authority ++ rest))) path := by
  obtain ⟨front, tail, rfl, hf, ht, rfl⟩ := front_of_pathOf? h
  cases front with
  | nil => exact .root hs ha ht
  | cons b front =>
    have hb : b = slash := (hr b rfl).resolve_right fun hn =>
      have hb := hf b List.mem_cons_self
      hn.elim hb.1 hb.2
    exact .absolute hs ha (congrArg some hb) hf ht

theorem rawPath_of_targetPath? {target path : List UInt8} (h : targetPath? target = some path) :
    RawPath target path := by
  unfold targetPath? at h
  split at h
  · cases h
  · split at h
    · rename_i hs
      cases h
      rw [hs]
      exact .star
    · rename_i hn
      split at h
      · rename_i hs
        obtain ⟨front, rest, rfl, hf, hr, rfl⟩ := front_of_pathOf? h
        cases front with
        | nil => exact absurd (hr slash hs) (by decide)
        | cons b front => exact .origin hs hf hr
      · split at h
        · cases h
        · split at h
          · rename_i hc
            cases h
            obtain ⟨he, ha, -⟩ := splitAuthority_spec target
            simp only [Bool.and_eq_true, decide_eq_true_eq] at hc
            rw [hc.1.2, List.append_nil] at he
            rw [← he] at ha
            exact .authority hn ha
          · cases h
        · rename_i rest hs
          obtain ⟨scheme, hb, rfl⟩ := scheme_of_ofBytes hs
          obtain ⟨he, ha, hr⟩ := splitAuthority_spec rest
          dsimp only at h
          split at h
          · rw [he]
            exact rawPath_absolute hb ha hr h
          · cases h

theorem written_of_request? {d : Draft} {r : Request} (h : d.request? = some r) :
    r.method.IsWritten d.method ∧ RawPath d.target r.path ∧ r.body = d.body := by
  simp only [Draft.request?, Option.bind_eq_bind, Option.bind_eq_some_iff] at h
  obtain ⟨method, hm, path, hp, headers, -, h⟩ := h
  split at h
  · cases h
  · cases h
    exact ⟨isWritten_of_ofToken? hm, rawPath_of_targetPath? hp, rfl⟩

end PhraseSql.Http

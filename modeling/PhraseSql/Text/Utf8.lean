namespace PhraseSql.Text

def octets (text : String) : List UInt8 :=
  text.toUTF8.data.toList

def ofOctets? (bytes : List UInt8) : Option String :=
  String.fromUTF8? ⟨bytes.toArray⟩

theorem ofOctets?_octets (text : String) : ofOctets? (octets text) = some text := by
  simpa [ofOctets?, octets, String.fromUTF8?, String.fromUTF8] using text.isValidUTF8

theorem octets_of_ofOctets? {bytes : List UInt8} {text : String}
    (h : ofOctets? bytes = some text) : octets text = bytes := by
  simp only [ofOctets?, String.fromUTF8?] at h
  split at h
  · cases h
    simp [octets, String.fromUTF8]
  · simp at h

theorem ofOctets?_eq_some_iff {bytes : List UInt8} {text : String} :
    ofOctets? bytes = some text ↔ bytes = octets text :=
  ⟨fun h => (octets_of_ofOctets? h).symm, fun h => h ▸ ofOctets?_octets text⟩

theorem octets_ofList (text : List Char) :
    octets (String.ofList text) = text.flatMap String.utf8EncodeChar := by
  simp [octets, List.utf8Encode]

def nextChar? : List UInt8 → Option (Char × List UInt8)
  | [] => none
  | b :: rest =>
    if b < 0x80 then some (Char.ofUInt8 b, rest)
    else (ByteArray.utf8DecodeChar? ⟨((b :: rest).take 4).toArray⟩ 0).map fun c =>
      (c, (b :: rest).drop c.utf8Size)

theorem mk_toArray (l : List UInt8) : ByteArray.mk l.toArray = l.toByteArray := by
  apply ByteArray.ext
  simp

theorem utf8EncodeChar_ofUInt8 {b : UInt8} (h : b < 0x80) :
    String.utf8EncodeChar (Char.ofUInt8 b) = [b] := by
  have hn : b.toNat < 128 := by simpa [UInt8.lt_iff_toNat_lt] using h
  have hv : (Char.ofUInt8 b).val = b.toUInt32 := rfl
  simp [String.utf8EncodeChar, hv, Nat.le_of_lt_succ hn]

theorem le_ofNat_iff (n : Nat) : (0x80 : UInt8) ≤ UInt8.ofNat n ↔ 128 ≤ n % 256 := by
  rw [UInt8.le_iff_toNat_le, UInt8.toNat_ofNat']
  exact Iff.rfl

theorem le_of_mem_utf8EncodeChar {c : Char} {b : UInt8} (hc : 0x7F < c.toNat)
    (hb : b ∈ String.utf8EncodeChar c) : 0x80 ≤ b := by
  have hv : ¬ c.val.toNat ≤ 127 := Nat.not_le.mpr hc
  simp only [String.utf8EncodeChar, if_neg hv] at hb
  split at hb
  · simp only [List.mem_cons, List.not_mem_nil, or_false] at hb
    rcases hb with rfl | rfl <;> rw [le_ofNat_iff] <;> omega
  · split at hb
    · simp only [List.mem_cons, List.not_mem_nil, or_false] at hb
      rcases hb with rfl | rfl | rfl <;> rw [le_ofNat_iff] <;> omega
    · simp only [List.mem_cons, List.not_mem_nil, or_false] at hb
      rcases hb with rfl | rfl | rfl | rfl <;> rw [le_ofNat_iff] <;> omega

theorem utf8DecodeChar?_take (c : Char) (rest : List UInt8) :
    ByteArray.utf8DecodeChar? ⟨((String.utf8EncodeChar c ++ rest).take 4).toArray⟩ 0 = some c := by
  have hl : (String.utf8EncodeChar c).length ≤ 4 := by
    rw [String.length_utf8EncodeChar]
    exact c.utf8Size_le_four
  rw [List.take_append, List.take_of_length_le hl, mk_toArray, List.toByteArray_append]
  exact ByteArray.utf8DecodeChar?_utf8EncodeChar_append

theorem nextChar?_utf8EncodeChar_append (c : Char) (rest : List UInt8) :
    nextChar? (String.utf8EncodeChar c ++ rest) = some (c, rest) := by
  by_cases hc : c.toNat ≤ 0x7F
  · have hn : c.toNat < 128 := Nat.lt_succ_of_le hc
    have he : String.utf8EncodeChar c = [UInt8.ofNat c.toNat] := if_pos hc
    have hlt : UInt8.ofNat c.toNat < 0x80 := by
      rw [UInt8.lt_iff_toNat_lt, UInt8.toNat_ofNat']
      exact Nat.lt_of_le_of_lt (Nat.mod_le _ _) hn
    have hb : Char.ofUInt8 (UInt8.ofNat c.toNat) = c := by
      apply Char.ext
      apply UInt32.toNat_inj.mp
      show (UInt8.ofNat c.toNat).toUInt32.toNat = c.toNat
      rw [UInt8.toNat_toUInt32, UInt8.toNat_ofNat']
      exact Nat.mod_eq_of_lt (Nat.lt_trans hn (by decide))
    simp [he, nextChar?, hlt, hb]
  · have hd := utf8DecodeChar?_take c rest
    have hm := @le_of_mem_utf8EncodeChar c
    cases he : String.utf8EncodeChar c with
    | nil =>
      have := c.utf8Size_pos
      rw [← String.length_utf8EncodeChar, he] at this
      cases this
    | cons b bs =>
      have hb : 0x80 ≤ b := hm (Nat.not_le.mp hc) (he ▸ List.mem_cons_self)
      rw [he] at hd
      have hlen : bs.length + 1 = c.utf8Size := by
        rw [← String.length_utf8EncodeChar, he, List.length_cons]
      simp only [List.cons_append] at hd
      simp only [nextChar?, List.cons_append, if_neg (UInt8.not_lt.mpr hb), hd, Option.map_some, ← hlen]
      simp

theorem eq_append_of_nextChar? {bytes rest : List UInt8} {c : Char}
    (h : nextChar? bytes = some (c, rest)) : bytes = String.utf8EncodeChar c ++ rest := by
  unfold nextChar? at h
  split at h
  · cases h
  · rename_i b tail
    split at h
    · rename_i hb
      simp only [Option.some.injEq, Prod.mk.injEq] at h
      rw [← h.1, ← h.2, utf8EncodeChar_ofUInt8 hb]
      rfl
    · rw [Option.map_eq_some_iff] at h
      obtain ⟨c', hd, he⟩ := h
      simp only [Prod.mk.injEq] at he
      obtain ⟨rfl, rfl⟩ := he
      obtain ⟨l, hl⟩ := ByteArray.exists_of_utf8DecodeChar?_eq_some hd
      have hl' : (b :: tail).take 4 = String.utf8EncodeChar c' ++ l.data.toList := by
        have := congrArg (fun x => x.data.toList) hl
        simpa using this
      have : b :: tail = String.utf8EncodeChar c' ++ (l.data.toList ++ (b :: tail).drop 4) := by
        rw [← List.append_assoc, ← hl', List.take_append_drop]
      rw [this, ← String.length_utf8EncodeChar, List.drop_left]

theorem length_lt_of_nextChar? {bytes rest : List UInt8} {c : Char}
    (h : nextChar? bytes = some (c, rest)) : rest.length < bytes.length := by
  rw [eq_append_of_nextChar? h, List.length_append, String.length_utf8EncodeChar]
  exact Nat.lt_add_of_pos_left c.utf8Size_pos

def decodeFrom (read : List Char) (bytes : List UInt8) : List Char × List UInt8 :=
  match _h : nextChar? bytes with
  | none => (read.reverse, bytes)
  | some (c, rest) => decodeFrom (c :: read) rest
termination_by bytes.length
decreasing_by exact length_lt_of_nextChar? _h

def decode (bytes : List UInt8) : List Char × List UInt8 :=
  decodeFrom [] bytes

theorem decodeFrom_flatMap_append (read text : List Char) (rest : List UInt8) :
    decodeFrom read (text.flatMap String.utf8EncodeChar ++ rest) =
      decodeFrom (text.reverse ++ read) rest := by
  induction text generalizing read with
  | nil => rfl
  | cons c cs ih =>
    rw [List.flatMap_cons, List.append_assoc, decodeFrom]
    split
    · rename_i h
      rw [nextChar?_utf8EncodeChar_append] at h
      cases h
    · rename_i h
      rw [nextChar?_utf8EncodeChar_append] at h
      cases h
      rw [ih, List.reverse_cons, List.append_assoc, List.singleton_append]

theorem decode_flatMap (text : List Char) :
    decode (text.flatMap String.utf8EncodeChar) = (text, []) := by
  have h := decodeFrom_flatMap_append [] text []
  rw [List.append_nil] at h
  rw [decode, h, decodeFrom]
  simp [nextChar?]

theorem eq_append_of_decodeFrom {read text : List Char} {bytes rest : List UInt8}
    (h : decodeFrom read bytes = (text, rest)) :
    read.reverse.flatMap String.utf8EncodeChar ++ bytes =
      text.flatMap String.utf8EncodeChar ++ rest := by
  fun_induction decodeFrom read bytes with
  | case1 => cases h; rfl
  | case2 read bytes c tail hc ih =>
    rw [← ih h, eq_append_of_nextChar? hc, List.reverse_cons, List.flatMap_append,
      List.append_assoc, List.flatMap_singleton]

theorem eq_append_of_decode {text : List Char} {bytes rest : List UInt8}
    (h : decode bytes = (text, rest)) : bytes = text.flatMap String.utf8EncodeChar ++ rest := by
  simpa using eq_append_of_decodeFrom h

end PhraseSql.Text

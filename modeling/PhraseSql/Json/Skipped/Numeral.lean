import PhraseSql.Json.Numeral

namespace PhraseSql.Json

def skipExponent (bytes : List UInt8) : Read (List UInt8) :=
  match (splitSign bytes).2 with
  | [] => .error ⟨.invalidNumber, []⟩
  | b :: rest => if isDigit b then .ok (countDigits 0 rest).2 else .error ⟨.invalidNumber, rest⟩

def skipFraction : List UInt8 → Read (List UInt8)
  | [] => .error ⟨.invalidNumber, []⟩
  | b :: rest =>
    if isDigit b then
      match (countDigits 0 rest).2 with
      | c :: rest' => if isExponentMark c then skipExponent rest' else .ok (c :: rest')
      | [] => .ok []
    else .error ⟨.invalidNumber, rest⟩

def skipTail : List UInt8 → Read (List UInt8)
  | b :: rest =>
    if b = point then skipFraction rest
    else if isExponentMark b then skipExponent rest
    else .ok (b :: rest)
  | [] => .ok []

def skipUnsigned : List UInt8 → Read (List UInt8)
  | [] => .error ⟨.invalidNumber, []⟩
  | b :: rest =>
    if b = zero then
      match rest with
      | c :: rest' => if isDigit c then .error ⟨.invalidNumber, rest'⟩ else skipTail rest
      | [] => .ok []
    else if isDigit b then skipTail (countDigits 0 rest).2
    else .error ⟨.invalidNumber, rest⟩

def skipNumeral : List UInt8 → Read (List UInt8)
  | b :: rest => if b = minus then skipUnsigned rest else skipUnsigned (b :: rest)
  | [] => skipUnsigned []

section

variable {record : String} {names : List String}

theorem inside_skipExponent (bytes : List UInt8) :
    Inside record names id bytes (skipExponent bytes) := by
  have hs := splitSign_suffix bytes
  unfold skipExponent
  split
  · exact .error List.nil_suffix trivial
  · rename_i b rest hb
    rw [hb] at hs
    have hr := tail_suffix hs
    split
    · exact .ok ((countDigits_suffix 0 rest).trans hr)
    · exact .error hr trivial

theorem inside_skipFraction (bytes : List UInt8) :
    Inside record names id bytes (skipFraction bytes) := by
  unfold skipFraction
  split
  · exact .error List.nil_suffix trivial
  · rename_i b rest
    have hr := List.suffix_cons b rest
    have hc := (countDigits_suffix 0 rest).trans hr
    split
    · split
      · rename_i c rest' hd
        rw [hd] at hc
        split
        · exact (inside_skipExponent rest').mono (tail_suffix hc)
        · exact .ok hc
      · exact .ok List.nil_suffix
    · exact .error hr trivial

theorem inside_skipTail (bytes : List UInt8) :
    Inside record names id bytes (skipTail bytes) := by
  unfold skipTail
  split
  · rename_i b rest
    have hr := List.suffix_cons b rest
    split
    · exact (inside_skipFraction rest).mono hr
    · split
      · exact (inside_skipExponent rest).mono hr
      · exact .ok List.suffix_rfl
  · exact .ok List.suffix_rfl

theorem inside_skipUnsigned (bytes : List UInt8) :
    Inside record names id bytes.tail (skipUnsigned bytes) := by
  unfold skipUnsigned
  split
  · exact .error List.nil_suffix trivial
  · rename_i b rest
    rw [List.tail_cons]
    split
    · split
      · rename_i c rest'
        split
        · exact .error (List.suffix_cons c rest') trivial
        · exact inside_skipTail _
      · exact .ok List.nil_suffix
    · split
      · exact (inside_skipTail _).mono (countDigits_suffix 0 rest)
      · exact .error List.suffix_rfl trivial

theorem inside_skipNumeral (bytes : List UInt8) :
    Inside record names id bytes.tail (skipNumeral bytes) := by
  unfold skipNumeral
  split
  · rename_i b rest
    split
    · exact (inside_skipUnsigned rest).mono (List.tail_suffix rest)
    · exact inside_skipUnsigned _
  · exact inside_skipUnsigned _

end

end PhraseSql.Json

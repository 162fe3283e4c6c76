import PhraseSql.Json.Literal

namespace PhraseSql.Json

section

variable {record : String} {names : List String}

def skipEscape : List UInt8 → Read (List UInt8)
  | [] => .error ⟨.unfinishedText, []⟩
  | b :: rest =>
    if (shortEscape? b).isSome then .ok rest
    else if b = letterU then (readUnit rest).map Prod.snd
    else .error ⟨.invalidEscape, rest⟩

theorem inside_skipEscape (bytes : List UInt8) :
    Inside record names id bytes (skipEscape bytes) := by
  unfold skipEscape
  split
  · exact .error List.nil_suffix trivial
  · rename_i b rest
    have hr := List.suffix_cons b rest
    split
    · exact .ok hr
    · split
      · cases hu : readUnit rest with
        | ok unit => exact (inside_readUnit rest).goesOn hu (.ok List.suffix_rfl) hr
        | error f => exact (inside_readUnit rest).fails hu hr
      · exact .error hr trivial

/-- The bytes after a text that is not looked into: its bytes need not be UTF-8, and its escapes
need not pair. -/
def skipText : List UInt8 → Read (List UInt8)
  | [] => .error ⟨.unfinishedText, []⟩
  | b :: rest =>
    if b = quote then .ok rest
    else if b = backslash then
      match _h : skipEscape rest with
      | .error f => .error f
      | .ok rest' => skipText rest'
    else if b < 0x20 then .error ⟨.controlCharacter, b :: rest⟩
    else skipText rest
termination_by bytes => bytes.length
decreasing_by
  · have hi : Inside "" [] id rest (skipEscape rest) := inside_skipEscape rest
    exact Nat.lt_succ_of_le (hi.length_le _h)
  · exact Nat.lt_succ_self _

theorem inside_skipText (bytes : List UInt8) :
    Inside record names id bytes (skipText bytes) := by
  fun_induction skipText bytes with
  | case1 => exact .error List.nil_suffix trivial
  | case2 rest => exact .ok (List.suffix_cons quote rest)
  | case3 rest f he => exact (inside_skipEscape rest).fails he (List.suffix_cons backslash rest)
  | case4 rest rest' he _ ih =>
    exact (inside_skipEscape rest).goesOn he ih (List.suffix_cons backslash rest)
  | case5 b rest => exact .error List.suffix_rfl trivial
  | case6 b rest _ _ _ ih => exact ih.mono (List.suffix_cons b rest)

end

end PhraseSql.Json

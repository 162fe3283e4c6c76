import PhraseSql.Json.Skipped.Numeral
import PhraseSql.Json.Skipped.Text

/-!
Values that are not looked into. The brackets that are open are kept in a list, the innermost
first, so they may be nested to any depth.
-/

namespace PhraseSql.Json

inductive Bracket where
  | list
  | object

def Bracket.unfinished : Bracket → Cause
  | .list => .unfinishedList
  | .object => .unfinishedObject

def Bracket.closing : Bracket → UInt8
  | .list => closeBracket
  | .object => closeBrace

def Bracket.expectedComma : Bracket → Cause
  | .list => .expectedCommaOrBracket
  | .object => .expectedCommaOrBrace

def Bracket.opening? (b : UInt8) : Option Bracket :=
  if b = openBracket then some .list else if b = openBrace then some .object else none

def skipName (bytes : List UInt8) : Read (List UInt8) :=
  match skipBlanks bytes with
  | [] => .error ⟨.unfinishedObject, []⟩
  | b :: rest =>
    if b = quote then do readColon (← skipText rest)
    else .error ⟨.nameNotText, rest⟩

def skipToItem : Bracket → List UInt8 → Read (List UInt8)
  | .list, bytes => .ok bytes
  | .object, bytes => skipName bytes

inductive Due where
  | value
  | next

structure Skipping where
  due : Due
  outer : List Bracket
  rest : List UInt8

def skipScalar (b : UInt8) (rest : List UInt8) : Read (List UInt8) :=
  match word? b with
  | some (word, _) => readWord word rest
  | none =>
    if startsNumeral b then skipNumeral (b :: rest)
    else if b = quote then skipText rest
    else .error ⟨.expectedValue, rest⟩

def skipValueStep (outer : List Bracket) (bytes : List UInt8) : Read Skipping :=
  match skipBlanks bytes with
  | [] => .error ⟨.unfinishedValue, []⟩
  | b :: rest =>
    match Bracket.opening? b with
    | none => do .ok ⟨.next, outer, ← skipScalar b rest⟩
    | some bracket =>
      match skipBlanks rest with
      | [] => .error ⟨bracket.unfinished, []⟩
      | c :: rest' =>
        if c = bracket.closing then .ok ⟨.next, outer, rest'⟩
        else do .ok ⟨.value, bracket :: outer, ← skipToItem bracket (c :: rest')⟩

def skipNextStep (bracket : Bracket) (outer : List Bracket) (bytes : List UInt8) : Read Skipping :=
  match skipBlanks bytes with
  | [] => .error ⟨bracket.unfinished, []⟩
  | b :: rest =>
    if b = comma then do .ok ⟨.value, bracket :: outer, ← skipToItem bracket rest⟩
    else if b = bracket.closing then .ok ⟨.next, outer, rest⟩
    else .error ⟨bracket.expectedComma, rest⟩

section

variable {record : String} {names : List String}

theorem inside_skipName (bytes : List UInt8) :
    Inside record names id bytes (skipName bytes) := by
  unfold skipName
  split
  · exact .error List.nil_suffix trivial
  · rename_i b rest hs
    have hr := tail_suffix (suffix_of_skipBlanks hs)
    split
    · refine ((inside_skipText rest).mono hr).bind ?_
      intro rest' hr'
      exact (inside_readColon rest').mono hr'
    · exact .error hr trivial

theorem inside_skipToItem (bracket : Bracket) (bytes : List UInt8) :
    Inside record names id bytes (skipToItem bracket bytes) := by
  cases bracket with
  | list => exact .ok List.suffix_rfl
  | object => exact inside_skipName bytes

theorem inside_skipScalar (b : UInt8) (rest : List UInt8) :
    Inside record names id rest (skipScalar b rest) := by
  unfold skipScalar
  split
  · exact inside_readWord _ rest
  · split
    · exact inside_skipNumeral (b :: rest)
    · split
      · exact inside_skipText rest
      · exact .error List.suffix_rfl trivial

theorem speaksOf_unfinished (bracket : Bracket) : bracket.unfinished.SpeaksOf record names := by
  cases bracket <;> trivial

theorem speaksOf_expectedComma (bracket : Bracket) :
    bracket.expectedComma.SpeaksOf record names := by
  cases bracket <;> trivial

theorem inside_skipValueStep (outer : List Bracket) (bytes : List UInt8) :
    Inside record names Skipping.rest bytes.tail (skipValueStep outer bytes) := by
  unfold skipValueStep
  split
  · exact .error List.nil_suffix trivial
  · rename_i b rest hs
    have hr := suffix_tail_of_skipBlanks hs
    split
    · refine ((inside_skipScalar b rest).mono hr).bind ?_
      intro rest' hr'
      exact .ok hr'
    · rename_i bracket _
      split
      · exact .error List.nil_suffix (speaksOf_unfinished bracket)
      · rename_i c rest' hc
        have hc := (suffix_of_skipBlanks hc).trans hr
        split
        · exact .ok (tail_suffix hc)
        · refine ((inside_skipToItem bracket _).mono hc).bind ?_
          intro rest'' hr''
          exact .ok hr''

theorem inside_skipNextStep (bracket : Bracket) (outer : List Bracket) (bytes : List UInt8) :
    Inside record names Skipping.rest bytes.tail (skipNextStep bracket outer bytes) := by
  unfold skipNextStep
  split
  · exact .error List.nil_suffix (speaksOf_unfinished bracket)
  · rename_i b rest hs
    have hr := suffix_tail_of_skipBlanks hs
    split
    · refine ((inside_skipToItem bracket rest).mono hr).bind ?_
      intro rest' hr'
      exact .ok hr'
    · split
      · exact .ok hr
      · exact .error hr (speaksOf_expectedComma bracket)

theorem length_lt_of_skipValueStep {outer : List Bracket} {bytes : List UInt8} {s : Skipping}
    (h : skipValueStep outer bytes = .ok s) : s.rest.length < bytes.length := by
  have hi : Inside "" [] Skipping.rest bytes.tail (skipValueStep outer bytes) :=
    inside_skipValueStep outer bytes
  cases bytes with
  | nil => cases h
  | cons b rest => exact Nat.lt_succ_of_le (hi.length_le h)

theorem length_lt_of_skipNextStep {bracket : Bracket} {outer : List Bracket} {bytes : List UInt8}
    {s : Skipping} (h : skipNextStep bracket outer bytes = .ok s) : s.rest.length < bytes.length := by
  have hi : Inside "" [] Skipping.rest bytes.tail (skipNextStep bracket outer bytes) :=
    inside_skipNextStep bracket outer bytes
  cases bytes with
  | nil => cases h
  | cons b rest => exact Nat.lt_succ_of_le (hi.length_le h)

def Skipping.finish (s : Skipping) : Read (List UInt8) :=
  match s with
  | ⟨.value, outer, rest⟩ =>
    match _h : skipValueStep outer rest with
    | .error f => .error f
    | .ok s => s.finish
  | ⟨.next, [], rest⟩ => .ok rest
  | ⟨.next, bracket :: outer, rest⟩ =>
    match _h : skipNextStep bracket outer rest with
    | .error f => .error f
    | .ok s => s.finish
termination_by s.rest.length
decreasing_by
  · exact length_lt_of_skipValueStep _h
  · exact length_lt_of_skipNextStep _h

def skipValue (bytes : List UInt8) : Read (List UInt8) :=
  Skipping.finish ⟨.value, [], bytes⟩

theorem inside_skippingFinish (s : Skipping) :
    Inside record names id s.rest s.finish := by
  -- a step stays inside what is left to skip, and so does the run after it
  fun_induction Skipping.finish s with
  | case1 outer rest f hs => exact (inside_skipValueStep outer rest).fails hs (List.tail_suffix rest)
  | case2 outer rest s hs ih =>
    exact (inside_skipValueStep outer rest).goesOn hs ih (List.tail_suffix rest)
  | case3 => exact .ok List.suffix_rfl
  | case4 bracket outer rest f hs =>
    exact (inside_skipNextStep bracket outer rest).fails hs (List.tail_suffix rest)
  | case5 bracket outer rest s hs ih =>
    exact (inside_skipNextStep bracket outer rest).goesOn hs ih (List.tail_suffix rest)

theorem inside_skipValue (bytes : List UInt8) :
    Inside record names id bytes (skipValue bytes) :=
  inside_skippingFinish ⟨.value, [], bytes⟩

end

end PhraseSql.Json

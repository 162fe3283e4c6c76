import PhraseSql.Json.Read

namespace PhraseSql.Json

def quote : UInt8 := 0x22
def comma : UInt8 := 0x2C
def colon : UInt8 := 0x3A
def backslash : UInt8 := 0x5C
def openBracket : UInt8 := 0x5B
def closeBracket : UInt8 := 0x5D
def openBrace : UInt8 := 0x7B
def closeBrace : UInt8 := 0x7D

def isBlank (b : UInt8) : Bool :=
  b = 0x20 || b = 0x09 || b = lineFeed || b = 0x0D

def skipBlanks (bytes : List UInt8) : List UInt8 :=
  bytes.dropWhile isBlank

section

variable {record : String} {names : List String} {bytes : List UInt8}

theorem skipBlanks_suffix (bytes : List UInt8) : skipBlanks bytes <:+ bytes :=
  List.dropWhile_suffix isBlank

theorem suffix_of_skipBlanks {rest : List UInt8} (h : skipBlanks bytes = rest) : rest <:+ bytes :=
  h ▸ skipBlanks_suffix bytes

theorem suffix_tail_of_skipBlanks {b : UInt8} {rest : List UInt8}
    (h : skipBlanks bytes = b :: rest) : rest <:+ bytes.tail := by
  have hs := suffix_of_skipBlanks h
  cases bytes with
  | nil => cases List.suffix_nil.mp hs
  | cons c tail =>
    rcases List.suffix_cons_iff.mp hs with he | ht
    · rw [(List.cons.inj he).2]
      exact List.suffix_rfl
    · exact tail_suffix ht

def readColon (bytes : List UInt8) : Read (List UInt8) :=
  match skipBlanks bytes with
  | [] => .error ⟨.unfinishedObject, []⟩
  | b :: rest => if b = colon then .ok rest else .error ⟨.expectedColon, rest⟩

theorem inside_readColon (bytes : List UInt8) : Inside record names id bytes (readColon bytes) := by
  unfold readColon
  split
  · exact .error List.nil_suffix trivial
  · rename_i b rest hs
    have hr := tail_suffix (suffix_of_skipBlanks hs)
    split
    · exact .ok hr
    · exact .error hr trivial

def readWord : List UInt8 → List UInt8 → Read (List UInt8)
  | [], bytes => .ok bytes
  | _ :: _, [] => .error ⟨.unfinishedValue, []⟩
  | w :: word, b :: rest =>
    if b = w then readWord word rest else .error ⟨.expectedWord, rest⟩

theorem inside_readWord (word bytes : List UInt8) :
    Inside record names id bytes (readWord word bytes) := by
  fun_induction readWord word bytes with
  | case1 bytes => exact .ok List.suffix_rfl
  | case2 => exact .error List.nil_suffix trivial
  | case3 word b rest ih => exact ih.mono (List.suffix_cons b rest)
  | case4 w word b rest => exact .error (List.suffix_cons b rest) trivial

end

def word? (first : UInt8) : Option (List UInt8 × Found) :=
  if first = 0x6E then some ([0x75, 0x6C, 0x6C], .null)
  else if first = 0x74 then some ([0x72, 0x75, 0x65], .boolean true)
  else if first = 0x66 then some ([0x61, 0x6C, 0x73, 0x65], .boolean false)
  else none

end PhraseSql.Json

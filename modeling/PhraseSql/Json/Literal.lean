import PhraseSql.Json.Token
import PhraseSql.Text.Utf8

namespace PhraseSql.Json

section

variable {record : String} {names : List String}

def hexDigit? (b : UInt8) : Option Nat :=
  if 0x30 ≤ b ∧ b ≤ 0x39 then some (b.toNat - 0x30)
  else if 0x41 ≤ b ∧ b ≤ 0x46 then some (b.toNat - 0x37)
  else if 0x61 ≤ b ∧ b ≤ 0x66 then some (b.toNat - 0x57)
  else none

def readUnit : List UInt8 → Read (Nat × List UInt8)
  | a :: b :: c :: d :: rest =>
    match hexDigit? a, hexDigit? b, hexDigit? c, hexDigit? d with
    | some a, some b, some c, some d => .ok (((a * 16 + b) * 16 + c) * 16 + d, rest)
    | _, _, _, _ => .error ⟨.invalidEscape, rest⟩
  | _ => .error ⟨.unfinishedText, []⟩

theorem inside_readUnit (bytes : List UInt8) :
    Inside record names Prod.snd bytes (readUnit bytes) := by
  unfold readUnit
  split
  · rename_i a b c d rest
    have hr : rest <:+ a :: b :: c :: d :: rest := ⟨[a, b, c, d], rfl⟩
    split
    · exact .ok hr
    · exact .error hr trivial
  · exact .error List.nil_suffix trivial

def isHighSurrogate (unit : Nat) : Bool := 0xD800 ≤ unit && unit < 0xDC00
def isLowSurrogate (unit : Nat) : Bool := 0xDC00 ≤ unit && unit < 0xE000

def readDue (due : UInt8) : List UInt8 → Read (List UInt8)
  | [] => .error ⟨.unfinishedText, []⟩
  | b :: rest => if b = due then .ok rest else .error ⟨.unfinishedPair, rest⟩

theorem inside_readDue (due : UInt8) (bytes : List UInt8) :
    Inside record names id bytes (readDue due bytes) := by
  unfold readDue
  split
  · exact .error List.nil_suffix trivial
  · rename_i b rest
    split
    · exact .ok (List.suffix_cons b rest)
    · exact .error (List.suffix_cons b rest) trivial

def letterU : UInt8 := 0x75

def ofSurrogates (high low : Nat) : Char :=
  Char.ofNat (0x10000 + (high - 0xD800) * 0x400 + (low - 0xDC00))

def readCodePoint (bytes : List UInt8) : Read (Char × List UInt8) := do
  let (unit, rest) ← readUnit bytes
  if isLowSurrogate unit then .error ⟨.loneSurrogate, rest⟩
  else if isHighSurrogate unit then
    let rest ← readDue backslash rest
    let rest ← readDue letterU rest
    let (low, rest) ← readUnit rest
    if isLowSurrogate low then .ok (ofSurrogates unit low, rest)
    else .error ⟨.loneSurrogate, rest⟩
  else .ok (Char.ofNat unit, rest)

theorem inside_readCodePoint (bytes : List UInt8) :
    Inside record names Prod.snd bytes (readCodePoint bytes) := by
  refine (inside_readUnit bytes).bind ?_
  rintro ⟨unit, rest⟩ hr
  dsimp only
  split
  · exact .error hr trivial
  · split
    · refine ((inside_readDue backslash rest).mono hr).bind ?_
      intro rest₁ h₁
      refine ((inside_readDue letterU rest₁).mono h₁).bind ?_
      intro rest₂ h₂
      refine ((inside_readUnit rest₂).mono h₂).bind ?_
      rintro ⟨low, rest₃⟩ h₃
      dsimp only
      split
      · exact .ok h₃
      · exact .error h₃ trivial
    · exact .ok hr

def shortEscape? (b : UInt8) : Option Char :=
  if b = quote then some '"'
  else if b = backslash then some '\\'
  else if b = 0x2F then some '/'
  else if b = 0x62 then some '\x08'
  else if b = 0x66 then some '\x0c'
  else if b = 0x6E then some '\n'
  else if b = 0x72 then some '\r'
  else if b = 0x74 then some '\t'
  else none

def readEscape : List UInt8 → Read (Char × List UInt8)
  | [] => .error ⟨.unfinishedText, []⟩
  | b :: rest =>
    match shortEscape? b with
    | some c => .ok (c, rest)
    | none => if b = letterU then readCodePoint rest else .error ⟨.invalidEscape, rest⟩

theorem inside_readEscape (bytes : List UInt8) :
    Inside record names Prod.snd bytes (readEscape bytes) := by
  unfold readEscape
  split
  · exact .error List.nil_suffix trivial
  · rename_i b rest
    have hr := List.suffix_cons b rest
    split
    · exact .ok hr
    · split
      · exact (inside_readCodePoint rest).mono hr
      · exact .error hr trivial

def readContent (read : List UInt8) : List UInt8 → Read (List UInt8 × List UInt8)
  | [] => .error ⟨.unfinishedText, []⟩
  | b :: rest =>
    if b = quote then .ok (read.reverse, rest)
    else if b = backslash then
      match _h : readEscape rest with
      | .error f => .error f
      | .ok (c, rest') => readContent ((String.utf8EncodeChar c).reverse ++ read) rest'
    else if b < 0x20 then .error ⟨.controlCharacter, rest⟩
    else readContent (b :: read) rest
termination_by bytes => bytes.length
decreasing_by
  · have hi : Inside "" [] Prod.snd rest (readEscape rest) := inside_readEscape rest
    exact Nat.lt_succ_of_le (hi.length_le _h)
  · exact Nat.lt_succ_self _

theorem inside_readContent (read bytes : List UInt8) :
    Inside record names Prod.snd bytes (readContent read bytes) := by
  fun_induction readContent read bytes with
  | case1 => exact .error List.nil_suffix trivial
  | case2 read rest => exact .ok (List.suffix_cons quote rest)
  | case3 read rest f he => exact (inside_readEscape rest).fails he (List.suffix_cons backslash rest)
  | case4 read rest c rest' he _ ih =>
    exact (inside_readEscape rest).goesOn he ih (List.suffix_cons backslash rest)
  | case5 read b rest => exact .error (List.suffix_cons b rest) trivial
  | case6 read b rest _ _ _ ih => exact ih.mono (List.suffix_cons b rest)

/-- A text, from the byte after its opening quote. Whether its bytes are characters is looked at last,
and where they are not is counted back from its end: each character of an escape counts there with
the bytes of its own. -/
def readText (bytes : List UInt8) : Read (String × List UInt8) := do
  let (content, rest) ← readContent [] bytes
  match Text.decode content with
  | (text, []) => .ok (String.ofList text, rest)
  | (_, wrong) =>
    .error ⟨.invalidCodePoint, bytes.drop (bytes.length - rest.length - wrong.length)⟩

theorem inside_readText (bytes : List UInt8) :
    Inside record names Prod.snd bytes (readText bytes) := by
  refine (inside_readContent [] bytes).bind ?_
  rintro ⟨content, rest⟩ hr
  dsimp only
  split
  · exact .ok hr
  · exact .error (List.drop_suffix _ _) trivial

end

end PhraseSql.Json

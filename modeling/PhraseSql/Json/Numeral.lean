import PhraseSql.Json.Token

/-!
Number literals. The digits are gathered into one significand below 2⁶⁴; digits that no longer fit
count as zeros before the point and are dropped after it.
-/

namespace PhraseSql.Json

def isDigit (b : UInt8) : Bool := 0x30 ≤ b && b ≤ 0x39
def digitValue (b : UInt8) : Nat := b.toNat - 0x30

def zero : UInt8 := 0x30
def minus : UInt8 := 0x2D
def plus : UInt8 := 0x2B
def point : UInt8 := 0x2E
def isExponentMark (b : UInt8) : Bool := b = 0x65 || b = 0x45

def significandLimit : Nat := 1 <<< 64
def exponentLimit : Nat := 1 <<< 31

structure Numeral where
  value : Binary64
  whole? : Option Int

def absorb (significand taken : Nat) : List UInt8 → Nat × Nat × List UInt8
  | [] => (significand, taken, [])
  | b :: rest =>
    if isDigit b ∧ significand * 10 + digitValue b < significandLimit then
      absorb (significand * 10 + digitValue b) (taken + 1) rest
    else (significand, taken, b :: rest)

def countDigits (count : Nat) : List UInt8 → Nat × List UInt8
  | [] => (count, [])
  | b :: rest => if isDigit b then countDigits (count + 1) rest else (count, b :: rest)

def readExponentDigits (value : Nat) : List UInt8 → Except (List UInt8) (Nat × List UInt8)
  | [] => .ok (value, [])
  | b :: rest =>
    if isDigit b then
      if value * 10 + digitValue b < exponentLimit then
        readExponentDigits (value * 10 + digitValue b) rest
      else .error rest
    else .ok (value, b :: rest)

def needDigit : List UInt8 → Read (List UInt8)
  | [] => .error ⟨.unfinishedValue, []⟩
  | b :: rest => if isDigit b then .ok (b :: rest) else .error ⟨.invalidNumber, rest⟩

def splitSign : List UInt8 → Bool × List UInt8
  | [] => (false, [])
  | b :: rest =>
    if b = minus then (true, rest) else if b = plus then (false, rest) else (false, b :: rest)

def finish (negative : Bool) (significand : Nat) (exponent : Int) (whole? : Option Int)
    (rest : List UInt8) : Read (Numeral × List UInt8) :=
  match Binary64.ofScaled? negative significand exponent with
  | some value => .ok (⟨value, whole?⟩, rest)
  | none => .error ⟨.numberOutOfRange, rest⟩

/-- The rest of a number from the byte after the exponent mark. An exponent beyond all limits gives
zero, unless it is positive and the significand is not zero. -/
def readExponent (negative : Bool) (significand : Nat) (exponent : Int) (bytes : List UInt8) :
    Read (Numeral × List UInt8) := do
  let (below, bytes) := splitSign bytes
  let digits ← needDigit bytes
  match readExponentDigits 0 digits with
  | .ok (shift, rest) =>
    finish negative significand (if below then exponent - shift else exponent + shift) none rest
  | .error rest =>
    if below ∨ significand = 0 then finish negative 0 0 none (countDigits 0 rest).2
    else .error ⟨.numberOutOfRange, rest⟩

def readFraction (negative : Bool) (significand : Nat) (exponent : Int) (bytes : List UInt8) :
    Read (Numeral × List UInt8) := do
  let digits ← needDigit bytes
  let (significand, taken, rest) := absorb significand 0 digits
  let exponent := exponent - taken
  match (countDigits 0 rest).2 with
  | b :: rest =>
    if isExponentMark b then readExponent negative significand exponent rest
    else finish negative significand exponent none (b :: rest)
  | [] => finish negative significand exponent none []

/-- The whole numbers that are kept as such: those of 64 bits, with or without a sign. A zero after
a minus sign is none. -/
def whole? (negative : Bool) (significand dropped : Nat) : Option Int :=
  if 0 < dropped then none
  else if negative then if 0 < significand ∧ significand ≤ 1 <<< 63 then some (-significand) else none
  else some significand

def readTail (negative : Bool) (significand dropped : Nat) : List UInt8 → Read (Numeral × List UInt8)
  | b :: rest =>
    if b = point then readFraction negative significand dropped rest
    else if isExponentMark b then readExponent negative significand dropped rest
    else finish negative significand dropped (whole? negative significand dropped) (b :: rest)
  | [] => finish negative significand dropped (whole? negative significand dropped) []

def readUnsigned (negative : Bool) : List UInt8 → Read (Numeral × List UInt8)
  | [] => .error ⟨.unfinishedValue, []⟩
  | b :: rest =>
    if b = zero then
      match rest with
      | c :: rest' => if isDigit c then .error ⟨.invalidNumber, rest'⟩ else readTail negative 0 0 rest
      | [] => readTail negative 0 0 []
    else if isDigit b then
      let (significand, _, rest) := absorb (digitValue b) 0 rest
      let (dropped, rest) := countDigits 0 rest
      readTail negative significand dropped rest
    else .error ⟨.invalidNumber, rest⟩

def readNumeral : List UInt8 → Read (Numeral × List UInt8)
  | b :: rest => if b = minus then readUnsigned true rest else readUnsigned false (b :: rest)
  | [] => readUnsigned false []

def startsNumeral (b : UInt8) : Bool := b = minus || isDigit b

section

variable {record : String} {names : List String} {bytes : List UInt8}

theorem absorb_suffix (significand taken : Nat) (bytes : List UInt8) :
    (absorb significand taken bytes).2.2 <:+ bytes := by
  fun_induction absorb significand taken bytes with
  | case1 => exact List.suffix_rfl
  | case2 _ _ b rest _ ih => exact ih.trans (List.suffix_cons b rest)
  | case3 => exact List.suffix_rfl

theorem countDigits_suffix (count : Nat) (bytes : List UInt8) :
    (countDigits count bytes).2 <:+ bytes := by
  fun_induction countDigits count bytes with
  | case1 => exact List.suffix_rfl
  | case2 _ b rest _ ih => exact ih.trans (List.suffix_cons b rest)
  | case3 => exact List.suffix_rfl

theorem splitSign_suffix (bytes : List UInt8) : (splitSign bytes).2 <:+ bytes := by
  unfold splitSign
  split
  · exact List.suffix_rfl
  · rename_i b rest
    split
    · exact List.suffix_cons b rest
    · split
      · exact List.suffix_cons b rest
      · exact List.suffix_rfl

theorem suffix_of_readExponentDigits {value shift : Nat} {rest : List UInt8}
    (h : readExponentDigits value bytes = .ok (shift, rest)) : rest <:+ bytes := by
  fun_induction readExponentDigits value bytes with
  | case1 => cases h; exact List.suffix_rfl
  | case2 _ b rest _ _ ih => exact (ih h).trans (List.suffix_cons b rest)
  | case3 => cases h
  | case4 => cases h; exact List.suffix_rfl

theorem suffix_of_readExponentDigits_error {value : Nat} {rest : List UInt8}
    (h : readExponentDigits value bytes = .error rest) : rest <:+ bytes := by
  fun_induction readExponentDigits value bytes with
  | case1 => cases h
  | case2 _ b rest _ _ ih => exact (ih h).trans (List.suffix_cons b rest)
  | case3 _ b rest => cases h; exact List.suffix_cons b rest
  | case4 => cases h

theorem inside_needDigit (bytes : List UInt8) :
    Inside record names id bytes (needDigit bytes) := by
  unfold needDigit
  split
  · exact .error List.nil_suffix trivial
  · rename_i b rest
    split
    · exact .ok List.suffix_rfl
    · exact .error (List.suffix_cons b rest) trivial

theorem inside_finish (negative : Bool) (significand : Nat) (exponent : Int) (whole? : Option Int)
    (rest : List UInt8) :
    Inside record names Prod.snd rest (finish negative significand exponent whole? rest) := by
  unfold finish
  split
  · exact .ok List.suffix_rfl
  · exact .error List.suffix_rfl trivial

theorem inside_readExponent (negative : Bool) (significand : Nat) (exponent : Int)
    (bytes : List UInt8) :
    Inside record names Prod.snd bytes (readExponent negative significand exponent bytes) := by
  have hs := splitSign_suffix bytes
  unfold readExponent
  generalize splitSign bytes = signed at hs ⊢
  obtain ⟨below, digits⟩ := signed
  refine ((inside_needDigit digits).mono hs).bind ?_
  intro digits hd
  split
  · rename_i shift rest hr
    exact (inside_finish _ _ _ _ rest).mono ((suffix_of_readExponentDigits hr).trans hd)
  · rename_i rest hr
    have hr := (suffix_of_readExponentDigits_error hr).trans hd
    split
    · exact (inside_finish _ _ _ _ _).mono ((countDigits_suffix 0 rest).trans hr)
    · exact .error hr trivial

theorem inside_readFraction (negative : Bool) (significand : Nat) (exponent : Int)
    (bytes : List UInt8) :
    Inside record names Prod.snd bytes (readFraction negative significand exponent bytes) := by
  refine (inside_needDigit bytes).bind ?_
  intro digits hd
  have ha := (absorb_suffix significand 0 digits).trans hd
  generalize absorb significand 0 digits = absorbed at ha ⊢
  obtain ⟨s, taken, rest⟩ := absorbed
  have hc := (countDigits_suffix 0 rest).trans ha
  dsimp only
  split
  · rename_i b rest hb
    rw [hb] at hc
    split
    · exact (inside_readExponent _ _ _ rest).mono (tail_suffix hc)
    · exact (inside_finish _ _ _ _ _).mono hc
  · exact (inside_finish _ _ _ _ _).mono List.nil_suffix

theorem inside_readTail (negative : Bool) (significand dropped : Nat) (bytes : List UInt8) :
    Inside record names Prod.snd bytes (readTail negative significand dropped bytes) := by
  unfold readTail
  split
  · rename_i b rest
    split
    · exact (inside_readFraction _ _ _ rest).mono (List.suffix_cons b rest)
    · split
      · exact (inside_readExponent _ _ _ rest).mono (List.suffix_cons b rest)
      · exact inside_finish _ _ _ _ _
  · exact inside_finish _ _ _ _ _

theorem inside_readUnsigned (negative : Bool) (bytes : List UInt8) :
    Inside record names Prod.snd bytes (readUnsigned negative bytes) := by
  unfold readUnsigned
  split
  · exact .error List.nil_suffix trivial
  · rename_i b rest
    split
    · split
      · rename_i c rest'
        split
        · exact .error ⟨[b, c], rfl⟩ trivial
        · exact (inside_readTail _ _ _ _).mono (List.suffix_cons b _)
      · exact (inside_readTail negative 0 0 []).mono List.nil_suffix
    · split
      · have ha := (absorb_suffix (digitValue b) 0 rest).trans (List.suffix_cons b rest)
        generalize absorb (digitValue b) 0 rest = absorbed at ha ⊢
        obtain ⟨s, taken, rest'⟩ := absorbed
        have hc := (countDigits_suffix 0 rest').trans ha
        dsimp only
        generalize countDigits 0 rest' = counted at hc ⊢
        obtain ⟨dropped, rest''⟩ := counted
        exact (inside_readTail _ _ _ rest'').mono hc
      · exact .error (List.suffix_cons b rest) trivial

theorem inside_readNumeral (bytes : List UInt8) :
    Inside record names Prod.snd bytes (readNumeral bytes) := by
  unfold readNumeral
  split
  · rename_i b rest
    split
    · exact (inside_readUnsigned true rest).mono (List.suffix_cons b rest)
    · exact inside_readUnsigned false _
  · exact inside_readUnsigned false _

end

end PhraseSql.Json

import PhraseSql.Pattern.Mode

namespace PhraseSql.Pattern

inductive Symbol where
  | character (value : Char) (byNumber : Bool)
  | family (negated : Bool)
  | any
  | edge
  | wordEdge

def isAscii (c : Char) : Bool := c.toNat < 0x80

/-- Whether a symbol is understood by itself. There are no tables of the families, words and cases of
all scripts, and what is matched has to be text, so that no lone byte beyond ASCII may be. -/
def Symbol.isUnderstood (mode : Mode) : Symbol → Bool
  | .character c byNumber =>
    if mode.unicode then !mode.caseless else isAscii c || !byNumber
  | .family negated => !mode.unicode && !negated
  | .any => mode.unicode
  | .edge => true
  | .wordEdge => !mode.unicode

def Symbol.isMember (mode : Mode) : Symbol → Bool
  | .character c _ => if mode.unicode then !mode.caseless else isAscii c
  | .family negated => !mode.unicode && !negated
  | _ => false

def hexDigit? (c : Char) : Option Nat :=
  if '0' ≤ c ∧ c ≤ '9' then some (c.toNat - 48)
  else if 'a' ≤ c ∧ c ≤ 'f' then some (c.toNat - 87)
  else if 'A' ≤ c ∧ c ≤ 'F' then some (c.toNat - 55)
  else none

def readHex (mode : Mode) : Nat → Nat → List Char → Option (Nat × List Char)
  | 0, value, cs => some (value, cs)
  | _ + 1, _, [] => none
  | n + 1, value, c :: cs =>
    match hexDigit? c with
    | some digit => readHex mode n (value * 16 + digit) (mode.skip cs)
    | none => none

def readNumbered (mode : Mode) (digits : Nat) (cs : List Char) : Option (Symbol × List Char) :=
  match readHex mode digits 0 (mode.skip cs) with
  | some (value, rest) =>
    if value.isValidChar then some (.character (.ofNat value) (digits = 2), rest) else none
  | none => none

def escaped? (c : Char) : Option Symbol :=
  if c = 'd' || c = 's' || c = 'w' then some (.family false)
  else if c = 'D' || c = 'S' || c = 'W' then some (.family true)
  else if c = 'A' || c = 'z' then some .edge
  else if c = 'b' || c = 'B' || c = '<' || c = '>' then some .wordEdge
  else if c = 'a' then some (.character '\x07' false)
  else if c = 'f' then some (.character '\x0c' false)
  else if c = 'n' then some (.character '\n' false)
  else if c = 'r' then some (.character '\r' false)
  else if c = 't' then some (.character '\t' false)
  else if c = 'v' then some (.character '\x0b' false)
  else if isAscii c && !c.isAlphanum then some (.character c false)
  else none

def readEscape (mode : Mode) : List Char → Option (Symbol × List Char)
  | [] => none
  | c :: cs =>
    if c = 'x' then readNumbered mode 2 cs
    else if c = 'u' then readNumbered mode 4 cs
    else if c = 'U' then readNumbered mode 8 cs
    else (escaped? c).map fun symbol => (symbol, cs)

theorem length_le_of_readHex {mode : Mode} {n value value' : Nat} {cs rest : List Char}
    (h : readHex mode n value cs = some (value', rest)) : rest.length ≤ cs.length := by
  fun_induction readHex mode n value cs with
  | case1 => cases h; exact Nat.le_refl _
  | case2 => cases h
  | case3 _ _ _ cs _ _ ih => exact Nat.le_succ_of_le (Nat.le_trans (ih h) (mode.length_skip_le cs))
  | case4 => cases h

theorem length_le_of_readNumbered {mode : Mode} {digits : Nat} {cs rest : List Char}
    {symbol : Symbol} (h : readNumbered mode digits cs = some (symbol, rest)) :
    rest.length ≤ cs.length := by
  unfold readNumbered at h
  split at h
  · rename_i hx
    split at h
    · cases h
      exact Nat.le_trans (length_le_of_readHex hx) (mode.length_skip_le cs)
    · cases h
  · cases h

theorem length_lt_of_readEscape {mode : Mode} {cs rest : List Char} {symbol : Symbol}
    (h : readEscape mode cs = some (symbol, rest)) : rest.length < cs.length := by
  unfold readEscape at h
  split at h
  · cases h
  · split at h
    · exact Nat.lt_succ_of_le (length_le_of_readNumbered h)
    · split at h
      · exact Nat.lt_succ_of_le (length_le_of_readNumbered h)
      · split at h
        · exact Nat.lt_succ_of_le (length_le_of_readNumbered h)
        · obtain ⟨_, _, he⟩ := Option.map_eq_some_iff.mp h
          cases he
          exact Nat.lt_succ_self _

end PhraseSql.Pattern

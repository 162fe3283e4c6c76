import PhraseSql.Pattern.Mode
import PhraseSql.Text.Classes

namespace PhraseSql.Pattern

inductive Front where
  | letters (letters : List Char)
  | group (letters : List Char)
  | named (name : List Char)

def isNameStart (c : Char) : Bool :=
  c = '_' || Text.isAlphabetic c

def isNamePart (c : Char) : Bool :=
  c = '_' || c = '.' || c = '[' || c = ']' || Text.isAlphanumeric c

def isName : List Char → Bool
  | [] => false
  | c :: cs => isNameStart c && cs.all isNamePart

def readName (cs : List Char) : Option (Front × List Char) :=
  let name := cs.takeWhile (· ≠ '>')
  match cs.drop name.length with
  | _ :: rest => if isName name then some (.named name, rest) else none
  | [] => none

/-- Letters up to a colon or a closing bracket, each once. The sign that turns letters off may not come
last, and there have to be letters in front of a bracket. `read` holds those that came before,
backwards. -/
def readLetters (read : List Char) : List Char → Option (Front × List Char)
  | [] => none
  | c :: cs =>
    if c = ':' then if read.head? = some '-' then none else some (.group read.reverse, cs)
    else if c = ')' then
      if read.isEmpty || read.head? = some '-' then none else some (.letters read.reverse, cs)
    else if isModeLetter c && !read.contains c then readLetters (c :: read) cs
    else none

def readFrontOfGroup : List Char → Option (Front × List Char)
  | '?' :: 'P' :: '<' :: cs => readName cs
  | '?' :: '<' :: cs => readName cs
  | '?' :: cs => readLetters [] cs
  | cs => some (.group [], cs)

theorem length_le_of_readName {cs rest : List Char} {front : Front}
    (h : readName cs = some (front, rest)) : rest.length ≤ cs.length := by
  unfold readName at h
  simp only at h
  split at h
  · rename_i hd
    split at h
    · cases h
      have := congrArg List.length hd
      simp only [List.length_drop, List.length_cons] at this
      omega
    · cases h
  · cases h

theorem length_le_of_readLetters {read cs rest : List Char} {front : Front}
    (h : readLetters read cs = some (front, rest)) : rest.length ≤ cs.length := by
  fun_induction readLetters read cs with
  | case1 => cases h
  | case2 => cases h
  | case3 => cases h; exact Nat.le_succ _
  | case4 => cases h
  | case5 => cases h; exact Nat.le_succ _
  | case6 _ _ _ _ _ _ ih => exact Nat.le_succ_of_le (ih h)
  | case7 => cases h

theorem length_le_of_readFrontOfGroup {cs rest : List Char} {front : Front}
    (h : readFrontOfGroup cs = some (front, rest)) : rest.length ≤ cs.length := by
  unfold readFrontOfGroup at h
  split at h
  · have := length_le_of_readName h
    simp only [List.length_cons]
    omega
  · have := length_le_of_readName h
    simp only [List.length_cons]
    omega
  · exact Nat.le_succ_of_le (length_le_of_readLetters h)
  · cases h
    exact Nat.le_refl _

end PhraseSql.Pattern

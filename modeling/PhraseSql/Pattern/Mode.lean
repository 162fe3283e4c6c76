import PhraseSql.Text.Cut

namespace PhraseSql.Pattern

structure Mode where
  caseless : Bool
  unicode : Bool
  verbose : Bool

def Mode.initial : Mode := ⟨false, true, false⟩

def isModeLetter (c : Char) : Bool :=
  c = '-' || c = 'i' || c = 'm' || c = 's' || c = 'U' || c = 'u' || c = 'R' || c = 'x'

def Mode.turn (mode : Mode) (on : Bool) (letter : Char) : Mode :=
  if letter = 'i' then { mode with caseless := on }
  else if letter = 'u' then { mode with unicode := on }
  else if letter = 'x' then { mode with verbose := on }
  else mode

def Mode.apply (mode : Mode) (letters : List Char) : Mode :=
  let on := letters.takeWhile (· ≠ '-')
  let off := letters.drop on.length
  off.foldl (·.turn false) (on.foldl (·.turn true) mode)

def dropComments (inComment : Bool) : List Char → List Char
  | [] => []
  | c :: cs =>
    if inComment then dropComments (c ≠ '\n') cs
    else if Text.isBlank c then dropComments false cs
    else if c = '#' then dropComments true cs
    else c :: cs

def Mode.skip (mode : Mode) (cs : List Char) : List Char :=
  if mode.verbose then dropComments false cs else cs

theorem length_dropComments_le (inComment : Bool) (cs : List Char) :
    (dropComments inComment cs).length ≤ cs.length := by
  fun_induction dropComments inComment cs with
  | case1 => exact Nat.le_refl _
  | case2 _ _ ih => exact Nat.le_succ_of_le ih
  | case3 _ _ _ _ _ ih => exact Nat.le_succ_of_le ih
  | case4 _ _ _ _ ih => exact Nat.le_succ_of_le ih
  | case5 => exact Nat.le_refl _

theorem Mode.length_skip_le (mode : Mode) (cs : List Char) : (mode.skip cs).length ≤ cs.length := by
  unfold Mode.skip
  split
  · exact length_dropComments_le _ _
  · exact Nat.le_refl _

end PhraseSql.Pattern

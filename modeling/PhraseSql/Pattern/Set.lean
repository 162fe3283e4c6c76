import PhraseSql.Pattern.Symbol

/-!
Sets of characters between brackets. They may stand in one another, and two of them may be joined by
an operator. The sets that are open are kept in a list, the innermost first.
-/

namespace PhraseSql.Pattern

def depthOf : List Nat → Nat
  | [] => 0
  | [depth] => depth
  | depths => depths.foldl max 0 + 1

structure OpenSet where
  left : Option Nat
  items : List Nat

namespace OpenSet

def empty : OpenSet := ⟨none, []⟩

def add (s : OpenSet) (depth : Nat) : OpenSet := { s with items := depth :: s.items }

def depth (s : OpenSet) : Nat :=
  match s.left with
  | none => depthOf s.items
  | some left => max left (depthOf s.items) + 1

def operate (s : OpenSet) : OpenSet := ⟨some s.depth, []⟩

end OpenSet

def Mode.next? (mode : Mode) (cs : List Char) : Option Char :=
  if mode.verbose then
    match cs.dropWhile Text.isBlank with
    | '#' :: comment => (comment.dropWhile Text.isBlank).head?
    | rest => rest.head?
  else cs.head?

def setNames : List String :=
  ["alnum", "alpha", "ascii", "blank", "cntrl", "digit", "graph", "lower", "print", "punct", "space",
    "upper", "word", "xdigit"]

def splitCaret : List Char → Bool × List Char
  | [] => (false, [])
  | c :: cs => if c = '^' then (true, cs) else (false, c :: cs)

def splitName? (cs : List Char) : Option (List Char × List Char) :=
  let name := cs.takeWhile (· ≠ ':')
  match cs.drop name.length with
  | ':' :: ']' :: rest => some (name, rest)
  | _ => none

def readNamed : List Char → Option (Bool × List Char)
  | [] => none
  | c :: cs =>
    if c = ':' then
      match splitName? (splitCaret cs).2 with
      | some (name, rest) =>
        if setNames.contains (String.ofList name) then some ((splitCaret cs).1, rest) else none
      | none => none
    else none

def Mode.negates (mode : Mode) (negated : Bool) : Bool :=
  mode.unicode || !negated

def Mode.listsAscii (mode : Mode) : Bool :=
  !(mode.unicode && mode.caseless)

def readMember (mode : Mode) : List Char → Option (Symbol × List Char)
  | [] => none
  | c :: cs =>
    match if c = '\\' then readEscape mode cs else some (.character c false, cs) with
    | some (symbol, rest) => if symbol.isMember mode then some (symbol, rest) else none
    | none => none

def readRangeEnd (mode : Mode) (first : Symbol) (cs : List Char) : Option (List Char) :=
  match readMember mode (mode.skip cs) with
  | some (last, rest) =>
    match first, last with
    | .character low _, .character high _ => if low ≤ high then some rest else none
    | _, _ => none
  | none => none

/-- A member or a range. A minus sign in front of a bracket or another one makes no range. -/
def readItem (mode : Mode) (cs : List Char) : Option (List Char) :=
  match readMember mode cs with
  | none => none
  | some (first, rest) =>
    match mode.skip rest with
    | '-' :: more =>
      if mode.next? more = some ']' || mode.next? more = some '-' then some ('-' :: more)
      else readRangeEnd mode first more
    | rest => some rest

def readMinuses (mode : Mode) (s : OpenSet) (cs : List Char) : OpenSet × List Char :=
  match _h : cs with
  | [] => (s, [])
  | c :: rest => if c = '-' then readMinuses mode (s.add 0) (mode.skip rest) else (s, cs)
termination_by cs.length
decreasing_by
  subst _h
  exact Nat.lt_succ_of_le (mode.length_skip_le rest)

def readFront (mode : Mode) (cs : List Char) : OpenSet × List Char :=
  match readMinuses mode .empty cs with
  | (s, []) => (s, [])
  | (s, c :: rest) =>
    if s.items.isEmpty && c = ']' then (s.add 0, mode.skip rest) else (s, c :: rest)

def openSet (mode : Mode) (cs : List Char) : Option (OpenSet × List Char) :=
  let (negated, cs) := splitCaret (mode.skip cs)
  let (s, rest) := readFront mode (mode.skip cs)
  if mode.negates negated && (s.items.isEmpty || mode.listsAscii) then some (s, rest) else none

inductive SetState where
  | inside (inner : OpenSet) (outer : List OpenSet)
  | closed (depth : Nat)

def isOperator (c : Char) (rest : List Char) : Bool :=
  (c = '&' || c = '-' || c = '~') && rest.head? = some c

def setStep (mode : Mode) (inner : OpenSet) (outer : List OpenSet) (c : Char) (rest : List Char) :
    Option (SetState × List Char) :=
  if c = '[' then
    match readNamed rest with
    | some (negated, rest) =>
      if mode.negates negated && mode.listsAscii then
        some (.inside (inner.add 0) outer, rest)
      else none
    | none => (openSet mode rest).map fun (s, rest) => (.inside s (inner :: outer), rest)
  else if c = ']' then
    match outer with
    | [] => some (.closed (inner.depth + 1), rest)
    | s :: outer => some (.inside (s.add (inner.depth + 1)) outer, rest)
  else if isOperator c rest then some (.inside inner.operate outer, rest.tail)
  else (readItem mode (c :: rest)).map fun rest => (.inside (inner.add 0) outer, rest)

theorem length_splitCaret_le (cs : List Char) : (splitCaret cs).2.length ≤ cs.length := by
  unfold splitCaret
  split
  · exact Nat.le_refl _
  · split
    · exact Nat.le_succ _
    · exact Nat.le_refl _

theorem length_le_of_splitName? {cs name rest : List Char} (h : splitName? cs = some (name, rest)) :
    rest.length ≤ cs.length := by
  unfold splitName? at h
  simp only at h
  split at h
  · rename_i hd
    cases h
    have := congrArg List.length hd
    simp only [List.length_drop, List.length_cons] at this
    omega
  · cases h

theorem length_le_of_readNamed {cs rest : List Char} {negated : Bool}
    (h : readNamed cs = some (negated, rest)) : rest.length ≤ cs.length := by
  unfold readNamed at h
  split at h
  · cases h
  · rename_i tail
    split at h
    · split at h
      · rename_i hn
        split at h
        · cases h
          exact Nat.le_succ_of_le
            (Nat.le_trans (length_le_of_splitName? hn) (length_splitCaret_le tail))
        · cases h
      · cases h
    · cases h

theorem length_lt_of_readMember {mode : Mode} {cs rest : List Char} {symbol : Symbol}
    (h : readMember mode cs = some (symbol, rest)) : rest.length < cs.length := by
  unfold readMember at h
  split at h
  · cases h
  · split at h
    · rename_i hs
      split at h
      · cases h
        split at hs
        · exact Nat.lt_succ_of_lt (length_lt_of_readEscape hs)
        · cases hs
          exact Nat.lt_succ_self _
      · cases h
    · cases h

theorem length_lt_of_readRangeEnd {mode : Mode} {first : Symbol} {cs rest : List Char}
    (h : readRangeEnd mode first cs = some rest) : rest.length < cs.length := by
  unfold readRangeEnd at h
  split at h
  · rename_i hm
    split at h
    · split at h
      · cases h
        exact Nat.lt_of_lt_of_le (length_lt_of_readMember hm) (mode.length_skip_le cs)
      · cases h
    · cases h
  · cases h

theorem length_lt_of_readItem {mode : Mode} {cs rest : List Char}
    (h : readItem mode cs = some rest) : rest.length < cs.length := by
  unfold readItem at h
  split at h
  · cases h
  · rename_i tail hm
    have hlt := length_lt_of_readMember hm
    have hs := mode.length_skip_le tail
    split at h
    · rename_i more hk
      rw [hk, List.length_cons] at hs
      split at h
      · cases h
        rw [List.length_cons]
        omega
      · have := length_lt_of_readRangeEnd h
        omega
    · cases h
      exact Nat.lt_of_le_of_lt hs hlt

theorem length_readMinuses_le (mode : Mode) (s : OpenSet) (cs : List Char) :
    (readMinuses mode s cs).2.length ≤ cs.length := by
  fun_induction readMinuses mode s cs with
  | case1 => exact Nat.le_refl _
  | case2 s rest ih =>
    exact Nat.le_succ_of_le (Nat.le_trans ih (mode.length_skip_le rest))
  | case3 => exact Nat.le_refl _

theorem length_readFront_le (mode : Mode) (cs : List Char) :
    (readFront mode cs).2.length ≤ cs.length := by
  have hm := length_readMinuses_le mode .empty cs
  unfold readFront
  split
  · exact Nat.zero_le _
  · rename_i s c rest hr
    rw [hr] at hm
    split
    · exact Nat.le_trans (mode.length_skip_le rest) (Nat.le_of_succ_le hm)
    · exact hm

theorem length_le_of_openSet {mode : Mode} {s : OpenSet} {cs rest : List Char}
    (h : openSet mode cs = some (s, rest)) : rest.length ≤ cs.length := by
  unfold openSet at h
  simp only at h
  split at h
  · cases h
    exact Nat.le_trans (length_readFront_le _ _) (Nat.le_trans (mode.length_skip_le _)
      (Nat.le_trans (length_splitCaret_le _) (mode.length_skip_le _)))
  · cases h

theorem length_le_of_setStep {mode : Mode} {inner : OpenSet} {outer : List OpenSet} {c : Char}
    {cs rest : List Char} {state : SetState}
    (h : setStep mode inner outer c cs = some (state, rest)) : rest.length ≤ cs.length := by
  unfold setStep at h
  split at h
  · split at h
    · rename_i hn
      split at h
      · cases h
        exact length_le_of_readNamed hn
      · cases h
    · obtain ⟨_, hs, he⟩ := Option.map_eq_some_iff.mp h
      cases he
      exact length_le_of_openSet hs
  · split at h
    · split at h <;> cases h <;> exact Nat.le_refl _
    · split at h
      · cases h
        exact List.length_tail ▸ Nat.sub_le _ _
      · obtain ⟨_, hi, he⟩ := Option.map_eq_some_iff.mp h
        cases he
        exact Nat.le_of_lt_succ (length_lt_of_readItem hi)

def readSets (mode : Mode) (inner : OpenSet) (outer : List OpenSet) (cs : List Char) :
    Option (Nat × List Char) :=
  match _h : mode.skip cs with
  | [] => none
  | c :: rest =>
    match _h' : setStep mode inner outer c rest with
    | none => none
    | some (.closed depth, rest) => some (depth, rest)
    | some (.inside inner outer, rest) => readSets mode inner outer rest
termination_by cs.length
decreasing_by
  have hs := mode.length_skip_le cs
  rw [_h] at hs
  exact Nat.lt_of_le_of_lt (length_le_of_setStep _h') hs

def readSet (mode : Mode) (cs : List Char) : Option (Nat × List Char) :=
  match openSet mode cs with
  | some (s, rest) => readSets mode s [] rest
  | none => none

theorem length_le_of_readSets {mode : Mode} {inner : OpenSet} {outer : List OpenSet} {depth : Nat}
    {cs rest : List Char} (h : readSets mode inner outer cs = some (depth, rest)) :
    rest.length ≤ cs.length := by
  fun_induction readSets mode inner outer cs with
  | case1 => cases h
  | case2 => cases h
  | case3 inner outer cs c tail hk depth' rest' hs =>
    have := mode.length_skip_le cs
    have := length_le_of_setStep hs
    cases h
    simp_all only [List.length_cons]
    omega
  | case4 inner outer cs c tail hk inner' outer' rest' hs ih =>
    have hk' := mode.length_skip_le cs
    have := length_le_of_setStep hs
    have := ih h
    rw [hk, List.length_cons] at hk'
    omega

theorem length_le_of_readSet {mode : Mode} {depth : Nat} {cs rest : List Char}
    (h : readSet mode cs = some (depth, rest)) : rest.length ≤ cs.length := by
  unfold readSet at h
  split at h
  · rename_i ho
    exact Nat.le_trans (length_le_of_readSets h) (length_le_of_openSet ho)
  · cases h

end PhraseSql.Pattern

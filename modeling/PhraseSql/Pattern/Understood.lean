import PhraseSql.Pattern.Group
import PhraseSql.Pattern.Set

/-!
Which texts are patterns: regular expressions with groups, sets and repetitions. A pattern stands
where there are no commas, equals signs or closing braces, so that counted repetitions and whatever
else needs one of them cannot be completed and are not understood. The groups that are open are kept
in a list, the innermost first.
-/

namespace PhraseSql.Pattern

structure Piece where
  depth : Nat
  isRepeatable : Bool

structure Row where
  pieces : List Piece
  choices : List Nat

namespace Row

def empty : Row := ⟨[], []⟩

def add (r : Row) (piece : Piece) : Row := { r with pieces := piece :: r.pieces }

def choose (r : Row) : Row := ⟨[], depthOf (r.pieces.map Piece.depth) :: r.choices⟩

def depth (r : Row) : Nat := depthOf r.choose.choices

def repeated? (r : Row) : Option Row :=
  match r.pieces with
  | piece :: pieces =>
    if piece.isRepeatable then some { r with pieces := ⟨piece.depth + 1, true⟩ :: pieces } else none
  | [] => none

end Row

structure OpenGroup where
  before : Row
  mode : Mode

structure State where
  mode : Mode
  row : Row
  outer : List OpenGroup
  names : List (List Char)

namespace State

def initial : State := ⟨.initial, .empty, [], []⟩

def addSymbol (s : State) (symbol : Symbol) : Option State :=
  if symbol.isUnderstood s.mode then some { s with row := s.row.add ⟨0, true⟩ } else none

def enter (s : State) : Front → Option State
  | .letters letters =>
    some { s with mode := s.mode.apply letters, row := s.row.add ⟨0, false⟩ }
  | .group letters =>
    some ⟨s.mode.apply letters, .empty, ⟨s.row, s.mode⟩ :: s.outer, s.names⟩
  | .named name =>
    if s.names.contains name then none
    else some ⟨s.mode, .empty, ⟨s.row, s.mode⟩ :: s.outer, name :: s.names⟩

def leave (s : State) : Option State :=
  match s.outer with
  | group :: outer => some ⟨group.mode, group.before.add ⟨s.row.depth + 1, true⟩, outer, s.names⟩
  | [] => none

end State

def dropLazy : List Char → List Char
  | '?' :: cs => cs
  | cs => cs

def step (s : State) (c : Char) (rest : List Char) : Option (State × List Char) :=
  if c = '(' then
    match readFrontOfGroup (s.mode.skip rest) with
    | some (front, rest) => (s.enter front).map (·, rest)
    | none => none
  else if c = ')' then s.leave.map (·, rest)
  else if c = '|' then some ({ s with row := s.row.choose }, rest)
  else if c = '[' then
    (readSet s.mode rest).map fun (depth, rest) => ({ s with row := s.row.add ⟨depth, true⟩ }, rest)
  else if c = '?' || c = '*' || c = '+' then
    s.row.repeated?.map fun row => ({ s with row := row }, dropLazy rest)
  else if c = '\x7b' then none
  else if c = '\\' then
    match readEscape s.mode rest with
    | some (symbol, rest) => (s.addSymbol symbol).map (·, rest)
    | none => none
  else if c = '.' then (s.addSymbol .any).map (·, rest)
  else if c = '^' || c = '$' then (s.addSymbol .edge).map (·, rest)
  else (s.addSymbol (.character c false)).map (·, rest)

theorem length_dropLazy_le (cs : List Char) : (dropLazy cs).length ≤ cs.length := by
  unfold dropLazy
  split
  · exact Nat.le_succ _
  · exact Nat.le_refl _

theorem rest_eq_of_map {α β γ : Type} {o : Option α} {f : α → β} {x : β} {tail rest : γ}
    (h : o.map (fun a => (f a, tail)) = some (x, rest)) : rest = tail := by
  obtain ⟨_, _, he⟩ := Option.map_eq_some_iff.mp h
  exact (congrArg Prod.snd he).symm

theorem length_le_of_step {s s' : State} {c : Char} {cs rest : List Char}
    (h : step s c cs = some (s', rest)) : rest.length ≤ cs.length := by
  unfold step at h
  split at h
  · split at h
    · rename_i hf
      rw [rest_eq_of_map h]
      exact Nat.le_trans (length_le_of_readFrontOfGroup hf) (s.mode.length_skip_le cs)
    · cases h
  · split at h
    · exact Nat.le_of_eq (congrArg List.length (rest_eq_of_map h))
    · split at h
      · cases h
        exact Nat.le_refl _
      · split at h
        · obtain ⟨_, hr, he⟩ := Option.map_eq_some_iff.mp h
          cases he
          exact length_le_of_readSet hr
        · split at h
          · rw [rest_eq_of_map h]
            exact length_dropLazy_le cs
          · split at h
            · cases h
            · split at h
              · split at h
                · rename_i he
                  rw [rest_eq_of_map h]
                  exact Nat.le_of_lt (length_lt_of_readEscape he)
                · cases h
              · split at h
                · exact Nat.le_of_eq (congrArg List.length (rest_eq_of_map h))
                · split at h <;> exact Nat.le_of_eq (congrArg List.length (rest_eq_of_map h))

def mostDepth : Nat := 250

def isUnderstoodFrom (s : State) (cs : List Char) : Bool :=
  match _h : s.mode.skip cs with
  | [] => s.outer.isEmpty && s.row.depth ≤ mostDepth
  | c :: rest =>
    match _h' : step s c rest with
    | none => false
    | some (next, rest) => isUnderstoodFrom next rest
termination_by cs.length
decreasing_by
  have hs := s.mode.length_skip_le cs
  rw [_h] at hs
  exact Nat.lt_of_le_of_lt (length_le_of_step _h') hs

def isUnderstood (text : List Char) : Bool :=
  isUnderstoodFrom .initial text

end PhraseSql.Pattern

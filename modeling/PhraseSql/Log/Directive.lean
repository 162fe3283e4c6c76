import PhraseSql.Log.FieldMatch
import PhraseSql.Text.Cut

/-!
The items of a filter: `target[span{field}]=level`, where each part may be missing.
-/

namespace PhraseSql.Log

structure Directive where
  target : Option (List Char)
  span : Option (List Char)
  field : Option FieldMatch
  threshold : Threshold
  deriving DecidableEq

inductive FilterFault where
  | malformed
  | insideCharacter
  deriving DecidableEq

/-- The part of a directive that is being read, and the place where it began. Places are counted in
bytes. -/
inductive Part where
  | start
  | levelOrTarget (start : Nat)
  | span (start : Nat)
  | field (start : Nat)
  | fields
  | target
  | level (start : Nat)

def part (item : List Char) (start stop : Nat) : Except FilterFault (List Char) :=
  match Text.cut? item start stop with
  | some text => .ok text
  | none => .error .insideCharacter

def lastPart (item : List Char) (start : Nat) : Except FilterFault (List Char) :=
  match Text.cutFrom? item start with
  | some text => .ok text
  | none => .error .insideCharacter

def startsName (c : Char) : Bool :=
  c = '-' || c = ':' || c = '_' || Text.isAlphanumeric c

def Directive.step (item : List Char) (place : Nat) (c : Char) (d : Directive) :
    Part → Except FilterFault (Directive × Part)
  | .start =>
    if c = '[' then .ok (d, .span (place + 1))
    else if startsName c then .ok (d, .levelOrTarget place)
    else .error .malformed
  | .levelOrTarget start =>
    if c = '=' then do
      .ok ({ d with target := some (← part item start place) }, .level (place + 1))
    else if c = '[' then do
      .ok ({ d with target := some (← part item start place) }, .span (place + 1))
    else .ok (d, .levelOrTarget start)
  | .span start =>
    if c = ']' then do .ok ({ d with span := some (← part item start place) }, .target)
    else if c = '\x7b' then do
      let name ← part item start place
      .ok ({ d with span := if name = [] then none else some name }, .field (place + 1))
    else .ok (d, .span start)
  | .field start =>
    if c = '\x7d' then do
      let text ← part item start place
      match if text = [] then none else FieldMatch.parse? text with
      | some field => .ok ({ d with field := some field }, .fields)
      | none => .error .malformed
    else .ok (d, .field start)
  | .fields => if c = ']' then .ok (d, .target) else .error .malformed
  | .target => if c = '=' then .ok (d, .level (place + 1)) else .error .malformed
  | .level start => .ok (d, .level start)

def Directive.conclude (item : List Char) (d : Directive) : Part → Except FilterFault Directive
  | .levelOrTarget start => do
    let text ← lastPart item start
    match Threshold.parse? text with
    | some threshold => .ok { d with threshold := threshold }
    | none => .ok { d with target := some text }
  | .level start => do
    let text ← lastPart item start
    if text = [] then .ok d
    else match Threshold.parse? text with
      | some threshold => .ok { d with threshold := threshold }
      | none => .error .malformed
  | .target => .ok d
  | _ => .error .malformed

def Directive.scan (item : List Char) (place : Nat) (d : Directive) (part : Part) :
    List Char → Except FilterFault Directive
  | [] => d.conclude item part
  | c :: rest => do
    let (d, part) ← d.step item place c part
    scan item (place + c.utf8Size) d part rest

/-- The item is walked without the blanks around it, but its parts are cut out by counting from its
first character, blank or not. -/
def Directive.parse (item : List Char) : Except FilterFault Directive :=
  Directive.scan item 0 ⟨none, none, none, some .trace⟩ .start (Text.trim item)

end PhraseSql.Log

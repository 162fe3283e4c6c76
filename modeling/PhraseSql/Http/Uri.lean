import PhraseSql.Text.Utf8

namespace PhraseSql.Http

def slash : UInt8 := 0x2F
def hash : UInt8 := 0x23
def star : UInt8 := 0x2A
def questionMark : UInt8 := 0x3F

def isOneOf (marks : String) (b : UInt8) : Bool :=
  marks.toList.contains (Char.ofUInt8 b)

def isPathByte (b : UInt8) : Bool :=
  b = 0x21 || (0x24 ≤ b && b ≤ 0x3B) || b = 0x3D || (0x40 ≤ b && b ≤ 0x5F) ||
    (0x61 ≤ b && b ≤ 0x7A) || b = 0x7C || b = 0x7E || isOneOf "\"\x7b\x7d" b || 0x80 ≤ b

def isQueryByte (b : UInt8) : Bool :=
  b = 0x21 || (0x24 ≤ b && b ≤ 0x3B) || b = 0x3D || (0x3F ≤ b && b ≠ 0x7F)

def pathOf? (bytes : List UInt8) : Option (List UInt8) :=
  let path := bytes.takeWhile fun b => b ≠ questionMark && b ≠ hash
  let rest := (bytes.drop path.length).takeWhile (· ≠ hash)
  if path.all isPathByte && (rest.drop 1).all isQueryByte && (Text.ofOctets? (path ++ rest)).isSome then
    some (if path = [] then [slash] else path)
  else none

def isSchemeByte (b : UInt8) : Bool :=
  (Char.ofUInt8 b).isAlphanum || isOneOf "+-.~" b

def isAuthorityByte (b : UInt8) : Bool :=
  (Char.ofUInt8 b).isAlphanum || isOneOf "!$&'()*+,-.:;=_~@[]%" b

structure AuthorityScan where
  colons : Nat
  opened : Bool
  closed : Bool
  percent : Bool
  lastIsAt : Bool

def AuthorityScan.start : AuthorityScan := ⟨0, false, false, false, false⟩

/-- A colon may stand in front of a port, in user information, which ends at an at sign, or in an
address between brackets; and so a percent sign. -/
def AuthorityScan.step (s : AuthorityScan) (b : UInt8) : Option AuthorityScan :=
  let s := { s with lastIsAt := false }
  if isOneOf ":" b then
    if s.colons ≥ 8 then none else some { s with colons := s.colons + 1 }
  else if isOneOf "[" b then
    if s.percent || s.opened then none else some { s with opened := true }
  else if isOneOf "]" b then
    if !s.opened || s.closed then none
    else some { s with closed := true, colons := 0, percent := false }
  else if isOneOf "@" b then some { s with colons := 0, percent := false, lastIsAt := true }
  else if isOneOf "%" b then some { s with percent := true }
  else if isAuthorityByte b then some s
  else none

def AuthorityScan.isComplete (s : AuthorityScan) : Bool :=
  s.opened == s.closed && s.colons ≤ 1 && !s.lastIsAt && !s.percent

def isAuthority (bytes : List UInt8) : Bool :=
  (bytes.foldlM AuthorityScan.step .start).any AuthorityScan.isComplete

def splitAuthority (bytes : List UInt8) : List UInt8 × List UInt8 :=
  bytes.span fun b => b ≠ slash && b ≠ questionMark && b ≠ hash

inductive Scheme where
  | missing
  | tooLong
  | before (rest : List UInt8)

def mostSchemeBytes : Nat := 64

def Scheme.ofBytes (bytes : List UInt8) : Scheme :=
  let name := bytes.takeWhile isSchemeByte
  match bytes.drop name.length with
  | 0x3A :: 0x2F :: 0x2F :: rest =>
    if bytes.length ≤ 3 then .missing
    else if mostSchemeBytes < name.length then .tooLong
    else .before rest
  | _ => .missing

def mostTargetBytes : Nat := 65534

/-- The path of a request target: a path with a query, a star, an authority alone, which has no
path, or all of them after a scheme. -/
def targetPath? (target : List UInt8) : Option (List UInt8) :=
  if mostTargetBytes < target.length then none
  else if target = [star] then some [star]
  else if target.head? = some slash then pathOf? target
  else match Scheme.ofBytes target with
    | .tooLong => none
    | .missing => if target ≠ [] && (splitAuthority target).2 = [] && isAuthority target then some [] else none
    | .before rest =>
      let (authority, rest) := splitAuthority rest
      if authority ≠ [] && isAuthority authority then pathOf? rest else none

end PhraseSql.Http

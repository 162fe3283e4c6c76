import PhraseSql.Http.Uri

namespace PhraseSql.Http

def isTokenByte (b : UInt8) : Bool :=
  let c := Char.ofUInt8 b
  c.isAlphanum || "!#$%&'*+-.^_\x60|~".toList.contains c

def isToken (bytes : List UInt8) : Bool :=
  !bytes.isEmpty && bytes.all isTokenByte

inductive Method where
  | get
  | head
  | post
  | options
  | other
  deriving DecidableEq

def Method.ofToken? (bytes : List UInt8) : Option Method :=
  if !isToken bytes then none
  else match bytes.map Char.ofUInt8 with
    | ['G', 'E', 'T'] => some .get
    | ['H', 'E', 'A', 'D'] => some .head
    | ['P', 'O', 'S', 'T'] => some .post
    | ['O', 'P', 'T', 'I', 'O', 'N', 'S'] => some .options
    | _ => some .other

structure Header where
  name : String
  value : List UInt8
  deriving DecidableEq

def mostNameBytes : Nat := 65535

def isValueByte (b : UInt8) : Bool :=
  b = 0x09 || (0x20 ≤ b && b ≠ 0x7F)

def Header.ofBytes? (name value : List UInt8) : Option Header :=
  if isToken name && name.length ≤ mostNameBytes && value.all isValueByte then
    some ⟨String.ofList (name.map fun b => (Char.ofUInt8 b).toLower), value⟩
  else none

structure Draft where
  method : List UInt8
  target : List UInt8
  headers : List (List UInt8 × List UInt8)
  body : List UInt8

structure Request where
  method : Method
  path : List UInt8
  headers : List Header
  body : List UInt8

/-- No request has more header names, and none takes a further header once it has so many. -/
def mostNames : Nat := 24576

def areTooMany (headers : List Header) : Bool :=
  mostNames < headers.length &&
    mostNames ≤ ((headers.dropLast.map Header.name).mergeSort (· ≤ ·)).eraseReps.length

def Draft.request? (d : Draft) : Option Request := do
  let method ← Method.ofToken? d.method
  let path ← targetPath? d.target
  let headers ← d.headers.mapM fun (name, value) => Header.ofBytes? name value
  if areTooMany headers then none else some ⟨method, path, headers, d.body⟩

def Request.header? (r : Request) (name : String) : Option (List UInt8) :=
  (r.headers.find? (·.name = name)).map Header.value

end PhraseSql.Http

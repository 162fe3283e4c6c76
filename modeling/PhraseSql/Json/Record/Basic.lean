import PhraseSql.Number.Binary64

namespace PhraseSql.Json

inductive Kind where
  | text
  | number

@[reducible] def Kind.Value : Kind → Type
  | .text => String
  | .number => Binary64

structure Field where
  name : String
  kind : Kind

structure Shape where
  name : String
  fields : List Field

@[reducible] def Row : List Field → Type
  | [] => Unit
  | f :: fs => f.kind.Value × Row fs

@[reducible] def Slots : List Field → Type
  | [] => Unit
  | f :: fs => Option f.kind.Value × Slots fs

def Slots.empty : (fields : List Field) → Slots fields
  | [] => ()
  | _ :: fs => (none, empty fs)

def Slots.complete : {fields : List Field} → Slots fields → Except Field (Row fields)
  | [], _ => .ok ()
  | f :: _, (none, _) => .error f
  | _ :: _, (some x, slots) => do .ok (x, ← complete slots)

end PhraseSql.Json

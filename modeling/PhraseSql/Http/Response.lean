import PhraseSql.Text.Utf8

namespace PhraseSql.Http

structure Response where
  status : Nat
  headers : List (String × String)
  body : String
  deriving DecidableEq

def insertHeader (header : String × String) : List (String × String) → List (String × String)
  | [] => [header]
  | h :: hs =>
    if header.1 < h.1 ∨ (header.1 = h.1 ∧ header.2 ≤ h.2) then header :: h :: hs
    else h :: insertHeader header hs

namespace Response

def withHeader (r : Response) (name value : String) : Response :=
  { r with headers := insertHeader (name, value) r.headers }

def withoutBody (r : Response) : Response :=
  { r with body := "" }

def withLength (r : Response) : Response :=
  r.withHeader "content-length" r.body.utf8ByteSize.repr

def empty (status : Nat) : Response := ⟨status, [], ""⟩

def ofType (type : String) (status : Nat) (body : String) : Response :=
  ⟨status, [("content-type", type)], body⟩

def json (status : Nat) (document : String) : Response :=
  ofType "application/json" status document

end Response

end PhraseSql.Http

import PhraseSql.Http.Response

namespace PhraseSql.Http

theorem perm_insertHeader (header : String × String) (headers : List (String × String)) :
    (insertHeader header headers).Perm (header :: headers) := by
  induction headers with
  | nil => exact .refl _
  | cons h hs ih =>
    unfold insertHeader
    split
    · exact .refl _
    · exact (ih.cons h).trans (.swap header h hs)

theorem filter_insertHeader_of_neg {p : String × String → Bool} {header : String × String}
    (h : p header = false) (headers : List (String × String)) :
    (insertHeader header headers).filter p = headers.filter p := by
  induction headers with
  | nil => simp [insertHeader, h]
  | cons other headers ih =>
    unfold insertHeader
    split
    · exact List.filter_cons_of_neg (by simp [h])
    · rw [List.filter_cons, List.filter_cons, ih]

namespace Response

def valuesOf (r : Response) (name : String) : List String :=
  (r.headers.filter (·.1 = name)).map Prod.snd

theorem mem_headers_withHeader {r : Response} {name value : String} {header : String × String} :
    header ∈ (r.withHeader name value).headers ↔ header = (name, value) ∨ header ∈ r.headers := by
  rw [withHeader, (perm_insertHeader _ _).mem_iff, List.mem_cons]

theorem valuesOf_withHeader_of_ne {name name' : String} (h : name ≠ name') (r : Response)
    (value : String) : (r.withHeader name value).valuesOf name' = r.valuesOf name' := by
  have hn : decide ((name, value).1 = name') = false := decide_eq_false h
  rw [valuesOf, withHeader, filter_insertHeader_of_neg hn, valuesOf]

theorem valuesOf_withHeader_self {r : Response} {name : String} (h : r.valuesOf name = [])
    (value : String) : (r.withHeader name value).valuesOf name = [value] := by
  have hf : r.headers.filter (·.1 = name) = [] := List.map_eq_nil_iff.mp h
  have hp := (perm_insertHeader (name, value) r.headers).filter (·.1 = name)
  rw [List.filter_cons_of_pos (by simp), hf, List.perm_singleton] at hp
  rw [valuesOf, withHeader, hp, List.map_cons, List.map_nil]

theorem valuesOf_eq_nil {r : Response} {name : String} (h : ∀ header ∈ r.headers, header.1 ≠ name) :
    r.valuesOf name = [] := by
  have hf : r.headers.filter (·.1 = name) = [] :=
    List.filter_eq_nil_iff.mpr fun header hm => by simpa using h header hm
  rw [valuesOf, hf, List.map_nil]

theorem valuesOf_type (type : String) (status : Nat) (body : String) :
    (ofType type status body).valuesOf "content-type" = [type] :=
  rfl

end Response

end PhraseSql.Http

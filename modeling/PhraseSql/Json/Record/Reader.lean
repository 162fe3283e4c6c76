import PhraseSql.Json.Record.Basic
import PhraseSql.Json.Skipped.Value

namespace PhraseSql.Json

def readFound (b : UInt8) (rest : List UInt8) : Read (Found × List UInt8) :=
  match word? b with
  | some (word, found) => do .ok (found, ← readWord word rest)
  | none =>
    if startsNumeral b then do
      let (numeral, rest) ← readNumeral (b :: rest)
      match numeral.whole? with
      | some n => .ok (.integer n, rest)
      | none => .ok (.number numeral.value, rest)
    else if b = quote then do
      let (text, rest) ← readText rest
      .ok (.text text, rest)
    else match Bracket.opening? b with
      | some .list => .ok (.list, b :: rest)
      | some .object => .ok (.object, b :: rest)
      | none => .error ⟨.expectedValue, rest⟩

def mismatch (expected : Expected) (b : UInt8) (rest : List UInt8) : Failure :=
  match readFound b rest with
  | .error f => f
  | .ok (found, rest) => ⟨.invalidType found expected, rest⟩

def Kind.read : (kind : Kind) → List UInt8 → Read (kind.Value × List UInt8)
  | .text, bytes =>
    match skipBlanks bytes with
    | [] => .error ⟨.unfinishedValue, []⟩
    | b :: rest => if b = quote then readText rest else .error (mismatch .text b rest)
  | .number, bytes =>
    match skipBlanks bytes with
    | [] => .error ⟨.unfinishedValue, []⟩
    | b :: rest =>
      if startsNumeral b then do
        let (numeral, rest) ← readNumeral (b :: rest)
        .ok (numeral.value, rest)
      else .error (mismatch .number b rest)

def toElement (first : Bool) (bytes : List UInt8) : Read (Except (List UInt8) (List UInt8)) :=
  match skipBlanks bytes with
  | [] => .error ⟨.unfinishedList, []⟩
  | b :: rest =>
    if b = closeBracket then .ok (.error rest)
    else if first then .ok (.ok (b :: rest))
    else if b = comma then
      match skipBlanks rest with
      | [] => .error ⟨.unfinishedValue, []⟩
      | c :: rest' =>
        if c = closeBracket then .error ⟨.trailingComma, rest'⟩ else .ok (.ok (c :: rest'))
    else .error ⟨.expectedCommaOrBracket, rest⟩

def closeList (bytes : List UInt8) : Read (List UInt8) :=
  match skipBlanks bytes with
  | [] => .error ⟨.unfinishedList, []⟩
  | b :: rest =>
    if b = closeBracket then .ok rest
    else if b = comma then
      match skipBlanks rest with
      | [] => .error ⟨.trailingCharacters, []⟩
      | c :: rest' =>
        .error ⟨if c = closeBracket then .trailingComma else .trailingCharacters, rest'⟩
    else .error ⟨.trailingCharacters, rest⟩

def readElements (shape : Shape) (index : Nat) :
    (fields : List Field) → List UInt8 → Read (Row fields × List UInt8)
  | [], bytes => do .ok ((), ← closeList bytes)
  | f :: fs, bytes => do
    match ← toElement (index = 0) bytes with
    | .error rest => .error ⟨.invalidLength index shape.fields.length shape.name, rest⟩
    | .ok bytes =>
      let (x, rest) ← f.kind.read bytes
      let (row, rest) ← readElements shape (index + 1) fs rest
      .ok ((x, row), rest)

def readName (first : Bool) (bytes : List UInt8) : Read (Option String × List UInt8) :=
  match skipBlanks bytes with
  | [] => .error ⟨.unfinishedObject, []⟩
  | b :: rest =>
    if b = closeBrace then .ok (none, rest)
    else if first then
      if b = quote then do
        let (name, rest) ← readText rest
        .ok (some name, rest)
      else .error ⟨.nameNotText, rest⟩
    else if b = comma then
      match skipBlanks rest with
      | [] => .error ⟨.unfinishedValue, []⟩
      | c :: rest' =>
        if c = quote then do
          let (name, rest) ← readText rest'
          .ok (some name, rest)
        else .error ⟨if c = closeBrace then .trailingComma else .nameNotText, rest'⟩
    else .error ⟨.expectedCommaOrBrace, rest⟩

/-- A fault of a whole object shows after its closing brace, if that comes next. -/
def pastBrace (bytes : List UInt8) : List UInt8 :=
  match skipBlanks bytes with
  | [] => []
  | b :: rest => if b = closeBrace then rest else b :: rest

def Slots.readMember (name : String) :
    {fields : List Field} → Slots fields → List UInt8 → Read (Slots fields × List UInt8)
  | [], _, bytes => do .ok ((), ← skipValue (← readColon bytes))
  | f :: _, (slot, slots), bytes =>
    if f.name = name then
      match slot with
      | some _ => .error ⟨.duplicateField name, pastBrace bytes⟩
      | none => do
        let (x, rest) ← f.kind.read (← readColon bytes)
        .ok ((some x, slots), rest)
    else do
      let (slots, rest) ← slots.readMember name bytes
      .ok ((slot, slots), rest)

section

variable {record : String} {names : List String}

theorem inside_readFound (b : UInt8) (rest : List UInt8) :
    Inside record names Prod.snd (b :: rest) (readFound b rest) := by
  have hr := List.suffix_cons b rest
  unfold readFound
  split
  · rename_i word found _
    refine ((inside_readWord word rest).mono hr).bind ?_
    intro rest' hr'
    exact .ok hr'
  · split
    · refine (inside_readNumeral (b :: rest)).bind ?_
      rintro ⟨numeral, rest'⟩ hr'
      dsimp only
      split
      · exact .ok hr'
      · exact .ok hr'
    · split
      · refine ((inside_readText rest).mono hr).bind ?_
        rintro ⟨text, rest'⟩ hr'
        exact .ok hr'
      · split
        · exact .ok List.suffix_rfl
        · exact .ok List.suffix_rfl
        · exact .error hr trivial

theorem inside_mismatch {α : Type} {left : α → List UInt8} {expected : Expected}
    (he : ∀ found, (Cause.invalidType found expected).SpeaksOf record names) (b : UInt8)
    (rest : List UInt8) :
    Inside record names left (b :: rest) (.error (mismatch expected b rest)) := by
  unfold mismatch
  split
  · rename_i f hf
    exact (inside_readFound b rest).fails hf List.suffix_rfl
  · rename_i found rest' hf
    exact (inside_readFound b rest).goesOn hf (.error List.suffix_rfl (he found)) List.suffix_rfl

theorem inside_kind_read (kind : Kind) (bytes : List UInt8) :
    Inside record names Prod.snd bytes (kind.read bytes) := by
  cases kind with
  | text =>
    simp only [Kind.read]
    split
    · exact .error List.nil_suffix trivial
    · rename_i b rest hs
      have hr := suffix_of_skipBlanks hs
      split
      · exact (inside_readText rest).mono (tail_suffix hr)
      · have he (found : Found) : (Cause.invalidType found .text).SpeaksOf record names := trivial
        exact (inside_mismatch he b rest).mono hr
  | number =>
    simp only [Kind.read]
    split
    · exact .error List.nil_suffix trivial
    · rename_i b rest hs
      have hr := suffix_of_skipBlanks hs
      split
      · refine ((inside_readNumeral _).mono hr).bind ?_
        rintro ⟨numeral, rest'⟩ hr'
        exact .ok hr'
      · have he (found : Found) : (Cause.invalidType found .number).SpeaksOf record names := trivial
        exact (inside_mismatch he b rest).mono hr

def afterLead : Except (List UInt8) (List UInt8) → List UInt8
  | .error rest => rest
  | .ok rest => rest

theorem inside_toElement (first : Bool) (bytes : List UInt8) :
    Inside record names afterLead bytes (toElement first bytes) := by
  unfold toElement
  split
  · exact .error List.nil_suffix trivial
  · rename_i b rest hs
    have hr := suffix_of_skipBlanks hs
    split
    · exact .ok (tail_suffix hr)
    · split
      · exact .ok hr
      · split
        · split
          · exact .error List.nil_suffix trivial
          · rename_i c rest' hs'
            have hr' := (suffix_of_skipBlanks hs').trans (tail_suffix hr)
            split
            · exact .error (tail_suffix hr') trivial
            · exact .ok hr'
        · exact .error (tail_suffix hr) trivial

theorem inside_closeList (bytes : List UInt8) :
    Inside record names id bytes (closeList bytes) := by
  unfold closeList
  split
  · exact .error List.nil_suffix trivial
  · rename_i b rest hs
    have hr := tail_suffix (suffix_of_skipBlanks hs)
    split
    · exact .ok hr
    · split
      · split
        · exact .error List.nil_suffix trivial
        · rename_i c rest' hs'
          have hr' := (tail_suffix (suffix_of_skipBlanks hs')).trans hr
          refine .error hr' ?_
          dsimp only
          split <;> trivial
      · exact .error hr trivial

theorem inside_readElements {shape : Shape} (hs : shape.name = record) (index : Nat)
    (fields : List Field) (bytes : List UInt8) :
    Inside record names Prod.snd bytes (readElements shape index fields bytes) := by
  induction fields generalizing index bytes with
  | nil =>
    refine (inside_closeList bytes).bind ?_
    intro rest hr
    exact .ok hr
  | cons f fs ih =>
    refine (inside_toElement (index = 0) bytes).bind ?_
    rintro (rest | rest) hr
    · exact .error hr hs
    · refine ((inside_kind_read f.kind rest).mono hr).bind ?_
      rintro ⟨x, rest₁⟩ h₁
      refine ((ih (index + 1) rest₁).mono h₁).bind ?_
      rintro ⟨row, rest₂⟩ h₂
      exact .ok h₂

theorem inside_readName (first : Bool) (bytes : List UInt8) :
    Inside record names Prod.snd bytes.tail (readName first bytes) := by
  unfold readName
  split
  · exact .error List.nil_suffix trivial
  · rename_i b rest hs
    have hr := suffix_tail_of_skipBlanks hs
    split
    · exact .ok hr
    · split
      · split
        · refine ((inside_readText rest).mono hr).bind ?_
          rintro ⟨name, rest'⟩ hr'
          exact .ok hr'
        · exact .error hr trivial
      · split
        · split
          · exact .error List.nil_suffix trivial
          · rename_i c rest' hs'
            have hr' := (tail_suffix (suffix_of_skipBlanks hs')).trans hr
            split
            · refine ((inside_readText rest').mono hr').bind ?_
              rintro ⟨name, rest''⟩ hr''
              exact .ok hr''
            · refine .error hr' ?_
              dsimp only
              split <;> trivial
        · exact .error hr trivial

theorem length_lt_of_readName {first : Bool} {bytes : List UInt8} {r : Option String × List UInt8}
    (h : readName first bytes = .ok r) : r.2.length < bytes.length := by
  have hi : Inside "" [] Prod.snd bytes.tail (readName first bytes) := inside_readName first bytes
  cases bytes with
  | nil => cases h
  | cons b rest => exact Nat.lt_succ_of_le (hi.length_le h)

theorem pastBrace_suffix (bytes : List UInt8) : pastBrace bytes <:+ bytes := by
  unfold pastBrace
  split
  · exact List.nil_suffix
  · rename_i b rest hs
    have hr := suffix_of_skipBlanks hs
    split
    · exact tail_suffix hr
    · exact hr

theorem inside_readMember {fields : List Field} (hf : ∀ f ∈ fields, f.name ∈ names)
    (slots : Slots fields) (name : String) (bytes : List UInt8) :
    Inside record names Prod.snd bytes (slots.readMember name bytes) := by
  induction fields with
  | nil =>
    refine (inside_readColon bytes).bind ?_
    intro rest hr
    refine ((inside_skipValue rest).mono hr).bind ?_
    intro rest' hr'
    exact .ok hr'
  | cons f fs ih =>
    obtain ⟨slot, slots⟩ := slots
    obtain ⟨hn, hfs⟩ := List.forall_mem_cons.mp hf
    simp only [Slots.readMember]
    split
    · rename_i he
      split
      · exact .error (pastBrace_suffix bytes) (he ▸ hn)
      · refine (inside_readColon bytes).bind ?_
        intro rest hr
        refine ((inside_kind_read f.kind rest).mono hr).bind ?_
        rintro ⟨x, rest'⟩ hr'
        exact .ok hr'
    · refine (ih hfs slots).bind ?_
      rintro ⟨slots', rest⟩ hr
      exact .ok hr

theorem mem_of_complete_error {fields : List Field} {slots : Slots fields} {f : Field}
    (h : slots.complete = .error f) : f ∈ fields := by
  induction fields with
  | nil => cases h
  | cons g fs ih =>
    obtain ⟨_ | x, slots⟩ := slots
    · cases h
      exact List.mem_cons_self
    · simp only [Slots.complete, bind, Except.bind] at h
      split at h
      · rename_i hc
        cases h
        exact List.mem_cons_of_mem g (ih hc)
      · cases h

def readMembers {fields : List Field} (slots : Slots fields) (first : Bool) (bytes : List UInt8) :
    Read (Row fields × List UInt8) :=
  match _h : readName first bytes with
  | .error f => .error f
  | .ok (none, rest) =>
    match slots.complete with
    | .ok row => .ok (row, rest)
    | .error field => .error ⟨.missingField field.name, rest⟩
  | .ok (some name, rest) =>
    match _h' : slots.readMember name rest with
    | .error f => .error f
    | .ok (slots', rest') => readMembers slots' false rest'
termination_by bytes.length
decreasing_by
  have hf : ∀ f ∈ fields, f.name ∈ fields.map Field.name := fun f hf => List.mem_map_of_mem hf
  have hi : Inside "" _ Prod.snd rest (slots.readMember name rest) :=
    inside_readMember hf slots name rest
  exact Nat.lt_of_le_of_lt (hi.length_le _h') (length_lt_of_readName _h)

theorem inside_readMembers {fields : List Field} (hf : ∀ f ∈ fields, f.name ∈ names)
    (slots : Slots fields) (first : Bool) (bytes : List UInt8) :
    Inside record names Prod.snd bytes (readMembers slots first bytes) := by
  fun_induction readMembers slots first bytes with
  | case1 slots first bytes f hn => exact (inside_readName first bytes).fails hn (List.tail_suffix bytes)
  | case2 slots first bytes rest hn row hc =>
    exact (inside_readName first bytes).goesOn hn (.ok List.suffix_rfl) (List.tail_suffix bytes)
  | case3 slots first bytes rest hn f hc =>
    have hm := hf f (mem_of_complete_error hc)
    exact (inside_readName first bytes).goesOn hn (.error List.suffix_rfl hm) (List.tail_suffix bytes)
  | case4 slots first bytes name rest hn f hm =>
    have hi : Inside record names Prod.snd rest (.error f : Read (Row fields × List UInt8)) :=
      (inside_readMember hf slots name rest).fails hm List.suffix_rfl
    exact (inside_readName first bytes).goesOn hn hi (List.tail_suffix bytes)
  | case5 slots first bytes name rest hn slots' rest' hm ih =>
    have hi := (inside_readMember hf slots name rest).goesOn hm ih List.suffix_rfl
    exact (inside_readName first bytes).goesOn hn hi (List.tail_suffix bytes)

end

def Shape.read (shape : Shape) (bytes : List UInt8) : Read (Row shape.fields × List UInt8) :=
  match skipBlanks bytes with
  | [] => .error ⟨.unfinishedValue, []⟩
  | b :: rest =>
    match Bracket.opening? b with
    | some .list => readElements shape 0 shape.fields rest
    | some .object => readMembers (.empty shape.fields) true rest
    | none => .error (mismatch (.record shape.name) b rest)

def Shape.names (shape : Shape) : List String := shape.fields.map Field.name

theorem inside_shape_read (shape : Shape) (bytes : List UInt8) :
    Inside shape.name shape.names Prod.snd bytes (shape.read bytes) := by
  unfold Shape.read
  split
  · exact .error List.nil_suffix trivial
  · rename_i b rest hs
    have hr := suffix_of_skipBlanks hs
    split
    · exact (inside_readElements rfl 0 shape.fields rest).mono (tail_suffix hr)
    · have hf : ∀ f ∈ shape.fields, f.name ∈ shape.names := fun f hf => List.mem_map_of_mem hf
      exact (inside_readMembers hf _ true rest).mono (tail_suffix hr)
    · have he (found : Found) :
          (Cause.invalidType found (.record shape.name)).SpeaksOf shape.name shape.names := rfl
      exact (inside_mismatch he b rest).mono hr

def Shape.decode (shape : Shape) (document : List UInt8) : Read (Row shape.fields) := do
  let (row, rest) ← shape.read document
  match skipBlanks rest with
  | [] => .ok row
  | _ :: rest => .error ⟨.trailingCharacters, rest⟩

theorem inside_decode (shape : Shape) (document : List UInt8) :
    Inside shape.name shape.names (fun _ => []) document (shape.decode document) := by
  refine (inside_shape_read shape document).bind ?_
  rintro ⟨row, rest⟩ hr
  dsimp only
  split
  · exact .ok List.nil_suffix
  · rename_i b rest' hs
    exact .error ((tail_suffix (suffix_of_skipBlanks hs)).trans hr) trivial

end PhraseSql.Json

import PhraseSql.Json.Failure

/-!
Readers stay inside the bytes they are given: what they leave is the end of these, and so is what is
left where they fail. The names in the cause are those of the record that is read.
-/

namespace PhraseSql.Json

abbrev Read := Except Failure

theorem bind_eq_ok_iff {α β : Type} {r : Read α} {next : α → Read β} {b : β} :
    r >>= next = .ok b ↔ ∃ a, r = .ok a ∧ next a = .ok b := by
  cases r <;> simp [bind, Except.bind]

def Cause.SpeaksOf (record : String) (names : List String) : Cause → Prop
  | .invalidType _ (.record name) => name = record
  | .invalidLength _ _ name => name = record
  | .missingField name => name ∈ names
  | .duplicateField name => name ∈ names
  | _ => True

inductive Inside (record : String) (names : List String) {α : Type} (left : α → List UInt8)
    (bytes : List UInt8) : Read α → Prop where
  | ok {a : α} (h : left a <:+ bytes) : Inside record names left bytes (.ok a)
  | error {f : Failure} (h : f.rest <:+ bytes) (hn : f.cause.SpeaksOf record names) :
      Inside record names left bytes (.error f)

section

variable {record : String} {names : List String} {bytes bytes' : List UInt8}

theorem Inside.mono {α : Type} {left : α → List UInt8} {r : Read α}
    (h : Inside record names left bytes r) (hb : bytes <:+ bytes') :
    Inside record names left bytes' r := by
  cases h with
  | ok h => exact .ok (h.trans hb)
  | error h hn => exact .error (h.trans hb) hn

theorem Inside.bind {α β : Type} {left : α → List UInt8} {left' : β → List UInt8} {r : Read α}
    {next : α → Read β} (h : Inside record names left bytes r)
    (hn : ∀ a, left a <:+ bytes → Inside record names left' bytes (next a)) :
    Inside record names left' bytes (r >>= next) := by
  cases h with
  | ok h => exact hn _ h
  | error h hn => exact .error h hn

theorem Inside.fails {α β : Type} {left : α → List UInt8} {left' : β → List UInt8} {r : Read α}
    {f : Failure} (h : Inside record names left bytes r) (hr : r = .error f)
    (hb : bytes <:+ bytes') : Inside record names left' bytes' (.error f) := by
  subst hr
  cases h with
  | error h hn => exact .error (h.trans hb) hn

theorem Inside.goesOn {α β : Type} {left : α → List UInt8} {left' : β → List UInt8} {r : Read α}
    {a : α} {r' : Read β} (h : Inside record names left bytes r) (hr : r = .ok a)
    (hn : Inside record names left' (left a) r') (hb : bytes <:+ bytes') :
    Inside record names left' bytes' r' := by
  subst hr
  cases h with
  | ok h => exact hn.mono (h.trans hb)

theorem Inside.length_le {α : Type} {left : α → List UInt8} {r : Read α} {a : α}
    (h : Inside record names left bytes r) (hr : r = .ok a) : (left a).length ≤ bytes.length := by
  subst hr
  cases h with
  | ok h => exact h.length_le

theorem tail_suffix {b : UInt8} {rest : List UInt8} (h : b :: rest <:+ bytes) : rest <:+ bytes :=
  (List.suffix_cons b rest).trans h

end

end PhraseSql.Json

import PhraseSql.Json.Record.Basic
import PhraseSql.Json.Skipped.Value
import PhraseSql.Text.Utf8

/-!
The grammar of documents, in terms of the bytes alone: texts, values that are not looked into, and
records. Which value a number literal has is left to the reader of numbers.
-/

namespace PhraseSql.Json

def Blanks (bytes : List UInt8) : Prop :=
  ∀ b ∈ bytes, b = 0x20 ∨ b = 0x09 ∨ b = 0x0A ∨ b = 0x0D

def shortEscapes : List (UInt8 × Char) :=
  [(0x22, '"'), (0x5C, '\\'), (0x2F, '/'), (0x62, '\x08'), (0x66, '\x0c'), (0x6E, '\n'),
    (0x72, '\r'), (0x74, '\t')]

def IsHexDigit (b : UInt8) (n : Nat) : Prop :=
  n < 16 ∧ (b = (Nat.digitChar n).toUInt8 ∨ b = (Nat.digitChar n).toUpper.toUInt8)

inductive HexUnit : List UInt8 → Nat → Prop where
  | digits {a b c d : UInt8} {w x y z : Nat} (ha : IsHexDigit a w) (hb : IsHexDigit b x)
      (hc : IsHexDigit c y) (hd : IsHexDigit d z) :
      HexUnit [a, b, c, d] (((w * 16 + x) * 16 + y) * 16 + z)

def IsHighSurrogate (n : Nat) : Prop := 0xD800 ≤ n ∧ n ≤ 0xDBFF

def IsLowSurrogate (n : Nat) : Prop := 0xDC00 ≤ n ∧ n ≤ 0xDFFF

/-- An escape and the character it stands for. Surrogates are no characters, but a pair of them
stands for one above the basic plane, of whose number each tells ten binary digits. -/
inductive Escape : List UInt8 → Char → Prop where
  | short {b : UInt8} {c : Char} (h : (b, c) ∈ shortEscapes) : Escape [backslash, b] c
  | unit {digits : List UInt8} {c : Char} (h : HexUnit digits c.toNat) :
      Escape (backslash :: letterU :: digits) c
  | pair {first second : List UInt8} {high low : Nat} {c : Char} (h : HexUnit first high)
      (h' : HexUnit second low) (hh : IsHighSurrogate high) (hl : IsLowSurrogate low)
      (hc : c.toNat = 0x10000 + (high - 0xD800) * 0x400 + (low - 0xDC00)) :
      Escape (backslash :: letterU :: (first ++ backslash :: letterU :: second)) c

inductive Spelling : List UInt8 → Char → Prop where
  | plain {c : Char} (h : 0x20 ≤ c.toNat) (hq : c ≠ '"') (hb : c ≠ '\\') :
      Spelling (String.utf8EncodeChar c) c
  | escape {bytes : List UInt8} {c : Char} (h : Escape bytes c) : Spelling bytes c

inductive Spells : List UInt8 → List Char → Prop where
  | nil : Spells [] []
  | cons {s bytes : List UInt8} {c : Char} {text : List Char} (h : Spelling s c)
      (hs : Spells bytes text) : Spells (s ++ bytes) (c :: text)

def TextLiteral (token : List UInt8) (text : String) : Prop :=
  ∃ content, token = quote :: (content ++ [quote]) ∧ Spells content text.toList

inductive SkippedUnit : List UInt8 → Prop where
  | plain {b : UInt8} (h : 0x20 ≤ b) (hq : b ≠ quote) (hb : b ≠ backslash) : SkippedUnit [b]
  | short {b : UInt8} {c : Char} (h : (b, c) ∈ shortEscapes) : SkippedUnit [backslash, b]
  | unit {digits : List UInt8} {n : Nat} (h : HexUnit digits n) :
      SkippedUnit (backslash :: letterU :: digits)

inductive SkippedContent : List UInt8 → Prop where
  | nil : SkippedContent []
  | cons {s bytes : List UInt8} (h : SkippedUnit s) (hs : SkippedContent bytes) :
      SkippedContent (s ++ bytes)

def SkippedText (token : List UInt8) : Prop :=
  ∃ content, token = quote :: (content ++ [quote]) ∧ SkippedContent content

def Digits (bytes : List UInt8) : Prop := bytes ≠ [] ∧ ∀ b ∈ bytes, 0x30 ≤ b ∧ b ≤ 0x39

inductive WholePart : List UInt8 → Prop where
  | zero : WholePart [zero]
  | positive {b : UInt8} {digits : List UInt8} (h : b ≠ zero) (hd : Digits (b :: digits)) :
      WholePart (b :: digits)

inductive Fraction : List UInt8 → Prop where
  | absent : Fraction []
  | present {digits : List UInt8} (h : Digits digits) : Fraction (point :: digits)

inductive Exponent : List UInt8 → Prop where
  | absent : Exponent []
  | present {mark : UInt8} {sign digits : List UInt8} (hm : mark = 0x65 ∨ mark = 0x45)
      (hs : sign ∈ [[], [plus], [minus]]) (hd : Digits digits) :
      Exponent (mark :: (sign ++ digits))

inductive NumberLiteral : List UInt8 → Prop where
  | parts {sign whole fraction exponent : List UInt8} (hs : sign ∈ [[], [minus]])
      (hw : WholePart whole) (hf : Fraction fraction) (he : Exponent exponent) :
      NumberLiteral (sign ++ (whole ++ (fraction ++ exponent)))

def words : List (List UInt8) :=
  [Text.octets "null", Text.octets "true", Text.octets "false"]

def Bracket.opening : Bracket → UInt8
  | .list => openBracket
  | .object => openBrace

inductive ItemHead : Bracket → List UInt8 → Prop where
  | element {blanks : List UInt8} (h : Blanks blanks) : ItemHead .list blanks
  | member {before name after blanks : List UInt8} (hb : Blanks before) (hn : SkippedText name)
      (ha : Blanks after) (h : Blanks blanks) :
      ItemHead .object (before ++ (name ++ (after ++ colon :: blanks)))

/-- A value, or what follows a value up to the bracket that closes the list or object it is in. -/
inductive Part where
  | value
  | rest (bracket : Bracket)

inductive Derives : Part → List UInt8 → Prop where
  | word {token : List UInt8} (h : token ∈ words) : Derives .value token
  | number {token : List UInt8} (h : NumberLiteral token) : Derives .value token
  | text {token : List UInt8} (h : SkippedText token) : Derives .value token
  | empty {bracket : Bracket} {blanks : List UInt8} (h : Blanks blanks) :
      Derives .value (bracket.opening :: (blanks ++ [bracket.closing]))
  | items {bracket : Bracket} {head value rest : List UInt8} (hh : ItemHead bracket head)
      (hv : Derives .value value) (hr : Derives (.rest bracket) rest) :
      Derives .value (bracket.opening :: (head ++ (value ++ rest)))
  | close {bracket : Bracket} {blanks : List UInt8} (h : Blanks blanks) :
      Derives (.rest bracket) (blanks ++ [bracket.closing])
  | next {bracket : Bracket} {blanks head value rest : List UInt8} (h : Blanks blanks)
      (hh : ItemHead bracket head) (hv : Derives .value value)
      (hr : Derives (.rest bracket) rest) :
      Derives (.rest bracket) (blanks ++ comma :: (head ++ (value ++ rest)))

def SkippedValue (token : List UInt8) : Prop := Derives .value token

structure Member where
  name : String
  value : List UInt8

inductive MemberText : List UInt8 → Member → Prop where
  | named {token before after value : List UInt8} {name : String} (h : TextLiteral token name)
      (hb : Blanks before) (ha : Blanks after) :
      MemberText (token ++ (before ++ colon :: (after ++ value))) ⟨name, value⟩

inductive Lead : Bool → List UInt8 → Prop where
  | first {blanks : List UInt8} (h : Blanks blanks) : Lead true blanks
  | later {before after : List UInt8} (hb : Blanks before) (ha : Blanks after) :
      Lead false (before ++ comma :: after)

inductive MembersText : Bool → List UInt8 → List Member → Prop where
  | close {first : Bool} {blanks : List UInt8} (h : Blanks blanks) :
      MembersText first (blanks ++ [closeBrace]) []
  | member {first : Bool} {lead text rest : List UInt8} {m : Member} {ms : List Member}
      (hl : Lead first lead) (hm : MemberText text m) (hr : MembersText false rest ms) :
      MembersText first (lead ++ (text ++ rest)) (m :: ms)

def Kind.Denotes : (kind : Kind) → List UInt8 → kind.Value → Prop
  | .text, token, s => TextLiteral token s
  | .number, token, x => ∃ whole?, readNumeral token = .ok (⟨x, whole?⟩, [])

def ElementsText : Bool → (fields : List Field) → Row fields → List UInt8 → Prop
  | _, [], _, text => ∃ blanks, Blanks blanks ∧ text = blanks ++ [closeBracket]
  | first, f :: fs, (x, row), text =>
    ∃ lead token rest, Lead first lead ∧ f.kind.Denotes token x ∧ ElementsText false fs row rest ∧
      text = lead ++ (token ++ rest)

def Member.hasName (name : String) (m : Member) : Bool := m.name = name

def Row.Occurs (ms : List Member) : (fields : List Field) → Row fields → Prop
  | [], _ => True
  | f :: fs, (x, row) =>
    (∃ token, ms.filter (Member.hasName f.name) = [⟨f.name, token⟩] ∧ f.kind.Denotes token x) ∧
      Occurs ms fs row

def SkipsOthers (fields : List Field) (ms : List Member) : Prop :=
  ∀ m ∈ ms, (∀ f ∈ fields, m.name ≠ f.name) → SkippedValue m.value

inductive Shape.Body (shape : Shape) (row : Row shape.fields) : List UInt8 → Prop where
  | list {text : List UInt8} (h : ElementsText true shape.fields row text) :
      Body shape row (openBracket :: text)
  | object {text : List UInt8} {ms : List Member} (h : MembersText true text ms)
      (ho : Row.Occurs ms shape.fields row) (hs : SkipsOthers shape.fields ms) :
      Body shape row (openBrace :: text)

def Shape.Document (shape : Shape) (row : Row shape.fields) (document : List UInt8) : Prop :=
  ∃ before body after, Blanks before ∧ shape.Body row body ∧ Blanks after ∧
    document = before ++ (body ++ after)

end PhraseSql.Json

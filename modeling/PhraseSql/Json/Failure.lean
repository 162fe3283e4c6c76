import PhraseSql.Number.Layout
import PhraseSql.Text.Quoted

namespace PhraseSql.Json

inductive Found where
  | null
  | boolean (value : Bool)
  | integer (value : Int)
  | number (value : Binary64)
  | text (value : String)
  | list
  | object

inductive Expected where
  | text
  | number
  | record (name : String)

inductive Cause where
  | unfinishedList
  | unfinishedObject
  | unfinishedText
  | unfinishedValue
  | expectedColon
  | expectedCommaOrBracket
  | expectedCommaOrBrace
  | expectedWord
  | expectedValue
  | invalidEscape
  | invalidNumber
  | numberOutOfRange
  | invalidCodePoint
  | controlCharacter
  | nameNotText
  | loneSurrogate
  | unfinishedPair
  | trailingComma
  | trailingCharacters
  | invalidType (found : Found) (expected : Expected)
  | invalidLength (found due : Nat) (record : String)
  | missingField (name : String)
  | duplicateField (name : String)

def Found.describe : Found → String
  | .null => "null"
  | .boolean true => "boolean `true`"
  | .boolean false => "boolean `false`"
  | .integer n => "integer `" ++ (if n < 0 then "-" else "") ++ n.natAbs.repr ++ "`"
  | .number x => "floating point `" ++ Number.Layout.document.write x ++ "`"
  | .text s => "string " ++ Text.quoted s
  | .list => "sequence"
  | .object => "map"

def Expected.describe : Expected → String
  | .text => "a string"
  | .number => "f64"
  | .record name => "struct " ++ name

def Cause.describe : Cause → String
  | .unfinishedList => "EOF while parsing a list"
  | .unfinishedObject => "EOF while parsing an object"
  | .unfinishedText => "EOF while parsing a string"
  | .unfinishedValue => "EOF while parsing a value"
  | .expectedColon => "expected `:`"
  | .expectedCommaOrBracket => "expected `,` or `]`"
  | .expectedCommaOrBrace => "expected `,` or `\x7d`"
  | .expectedWord => "expected ident"
  | .expectedValue => "expected value"
  | .invalidEscape => "invalid escape"
  | .invalidNumber => "invalid number"
  | .numberOutOfRange => "number out of range"
  | .invalidCodePoint => "invalid unicode code point"
  | .controlCharacter => "control character (\\u0000-\\u001F) found while parsing a string"
  | .nameNotText => "key must be a string"
  | .loneSurrogate => "lone leading surrogate in hex escape"
  | .unfinishedPair => "unexpected end of hex escape"
  | .trailingComma => "trailing comma"
  | .trailingCharacters => "trailing characters"
  | .invalidType found expected =>
    "invalid type: " ++ found.describe ++ ", expected " ++ expected.describe
  | .invalidLength found due record =>
    "invalid length " ++ found.repr ++ ", expected struct " ++ record ++ " with " ++ due.repr ++
      (if due = 1 then " element" else " elements")
  | .missingField name => "missing field `" ++ name ++ "`"
  | .duplicateField name => "duplicate field `" ++ name ++ "`"

/-- A cause, and the bytes not yet read where it shows. -/
structure Failure where
  cause : Cause
  rest : List UInt8

structure Position where
  line : Nat
  column : Nat

def lineFeed : UInt8 := 0x0A

def Position.after (bytes : List UInt8) : Position where
  line := 1 + bytes.count lineFeed
  column := (bytes.reverse.takeWhile (· ≠ lineFeed)).length

def Position.describe (p : Position) : String :=
  "line " ++ p.line.repr ++ " column " ++ p.column.repr

def readBefore (document rest : List UInt8) : List UInt8 :=
  document.take (document.length - rest.length)

def Failure.message (f : Failure) (document : List UInt8) : String :=
  f.cause.describe ++ " at " ++ (Position.after (readBefore document f.rest)).describe

end PhraseSql.Json

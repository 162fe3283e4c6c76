import PhraseSql.Http.Request

namespace PhraseSql.Service

def semicolon : UInt8 := 0x3B

def isTextByte (b : UInt8) : Bool :=
  b = 0x09 || (0x20 ≤ b && b < 0x7F)

def isPadding (b : UInt8) : Bool := b = 0x20 || b = 0x09

def trimPadding (value : List UInt8) : List UInt8 :=
  ((value.dropWhile isPadding).reverse.dropWhile isPadding).reverse

def lowerByte (b : UInt8) : UInt8 :=
  if 0x41 ≤ b ∧ b ≤ 0x5A then b + 0x20 else b

def mediaType (value : List UInt8) : List UInt8 :=
  (trimPadding (value.takeWhile (· ≠ semicolon))).map lowerByte

def isJsonType (value : List UInt8) : Bool :=
  match (Text.octets "application/").isPrefixOf? (mediaType value) with
  | some subtype => subtype = Text.octets "json" || (Text.octets "+json").isSuffixOf subtype
  | none => false

def acceptsBody (r : Http.Request) : Bool :=
  match r.header? "content-type" with
  | none => true
  | some value => value.all isTextByte && isJsonType value

end PhraseSql.Service

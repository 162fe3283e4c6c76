import PhraseSql.Log.Threshold
import PhraseSql.Pattern.Understood

namespace PhraseSql.Log

structure FieldMatch where
  name : List Char
  hasValue : Bool
  deriving DecidableEq

def isSign (c : Char) : Bool := c = '+' || c = '-'

def dropSign : List Char → List Char
  | [] => []
  | c :: cs => if isSign c then cs else c :: cs

def isExponent : List Char → Bool
  | [] => true
  | c :: cs => (c = 'e' || c = 'E') && !(dropSign cs).isEmpty && (dropSign cs).all Char.isDigit

def isDecimal (text : List Char) : Bool :=
  match text.dropWhile Char.isDigit with
  | '.' :: rest =>
    (text.head?.any Char.isDigit || rest.head?.any Char.isDigit) &&
      isExponent (rest.dropWhile Char.isDigit)
  | rest => text.head?.any Char.isDigit && isExponent rest

def isNumber (text : List Char) : Bool :=
  let name := String.ofList (lower (dropSign text))
  name = "inf" || name = "infinity" || name = "nan" || isDecimal (dropSign text)

def FieldMatch.parse? (text : List Char) : Option FieldMatch :=
  let name := text.takeWhile (· ≠ '=')
  match text.drop name.length with
  | [] => some ⟨name, false⟩
  | _ :: rest =>
    let value := rest.takeWhile (· ≠ '=')
    if isNumber value || Pattern.isUnderstood value then some ⟨name, true⟩ else none

end PhraseSql.Log

import PhraseSql.Json.Record.Basic
import PhraseSql.Number.Layout
import PhraseSql.Text.Quoted

namespace PhraseSql.Json

def escapeChar (c : Char) : List Char :=
  if c = '"' then ['\\', '"']
  else if c = '\\' then ['\\', '\\']
  else if c = '\x08' then ['\\', 'b']
  else if c = '\x0c' then ['\\', 'f']
  else if c = '\n' then ['\\', 'n']
  else if c = '\r' then ['\\', 'r']
  else if c = '\t' then ['\\', 't']
  else if c.toNat < 0x20 then
    ['\\', 'u', '0', '0', Nat.digitChar (c.toNat / 16), Nat.digitChar (c.toNat % 16)]
  else [c]

def textLiteral (text : String) : List Char :=
  '"' :: (text.toList.flatMap escapeChar ++ ['"'])

def Kind.write : (kind : Kind) → kind.Value → List Char
  | .text, s => textLiteral s
  | .number, x => (Number.Layout.document.write x).toList

def Kind.report : (kind : Kind) → kind.Value → List Char
  | .text, s => Text.quotedChars s.toList
  | .number, x => (Number.Layout.report.write x).toList

def Row.writeMore : (fields : List Field) → Row fields → List Char
  | [], _ => []
  | f :: fs, (x, row) => ',' :: (textLiteral f.name ++ ':' :: (f.kind.write x ++ writeMore fs row))

def Row.write (fields : List Field) (row : Row fields) : List Char :=
  (Row.writeMore fields row).tail

def Row.reportMore : (fields : List Field) → Row fields → List Char
  | [], _ => []
  | f :: fs, (x, row) =>
    [',', ' '] ++ f.name.toList ++ [':', ' '] ++ f.kind.report x ++ reportMore fs row

def Shape.write (shape : Shape) (row : Row shape.fields) : String :=
  String.ofList ('\x7b' :: (Row.write shape.fields row ++ ['\x7d']))

def Shape.report (shape : Shape) (row : Row shape.fields) : String :=
  String.ofList (shape.name.toList ++ [' ', '\x7b'] ++ (Row.reportMore shape.fields row).tail ++ [' ', '\x7d'])

end PhraseSql.Json

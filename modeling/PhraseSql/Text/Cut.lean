namespace PhraseSql.Text

def isBlank (c : Char) : Bool :=
  let n := c.toNat
  (9 ≤ n && n ≤ 13) || n = 0x20 || n = 0x85 || n = 0xA0 || n = 0x1680 ||
    (0x2000 ≤ n && n ≤ 0x200A) || n = 0x2028 || n = 0x2029 || n = 0x202F || n = 0x205F || n = 0x3000

def trim (text : List Char) : List Char :=
  ((text.dropWhile isBlank).reverse.dropWhile isBlank).reverse

def splitBytes? : Nat → List Char → Option (List Char × List Char)
  | 0, text => some ([], text)
  | _ + 1, [] => none
  | n + 1, c :: text =>
    if c.utf8Size ≤ n + 1 then
      (splitBytes? (n + 1 - c.utf8Size) text).map fun (front, rest) => (c :: front, rest)
    else none

def cut? (text : List Char) (start stop : Nat) : Option (List Char) := do
  let (_, rest) ← splitBytes? start text
  let (part, _) ← splitBytes? (stop - start) rest
  some part

def cutFrom? (text : List Char) (start : Nat) : Option (List Char) :=
  (splitBytes? start text).map Prod.snd

end PhraseSql.Text

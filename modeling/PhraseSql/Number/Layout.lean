import PhraseSql.Number.Shortest

namespace PhraseSql.Number

structure Layout where
  leastWritten : Int
  greatestWritten : Int
  positiveSign : List Char
  tie : Tie

def Layout.document : Layout := ⟨-5, 15, ['+'], .even⟩

def Layout.report : Layout := ⟨-4, 15, [], .up⟩

def positional (digits : List Char) : Int → List Char
  | .negSucc n => '0' :: '.' :: (List.replicate n '0' ++ digits)
  | .ofNat n =>
    let whole := digits.take (n + 1)
    let rest := digits.drop (n + 1)
    whole ++ List.replicate (n + 1 - whole.length) '0' ++ '.' :: (if rest = [] then ['0'] else rest)

def scientific (layout : Layout) (digits : List Char) (exponent : Int) : List Char :=
  let mantissa := match digits with
    | first :: second :: rest => first :: '.' :: second :: rest
    | short => short
  let sign := if exponent < 0 then ['-'] else layout.positiveSign
  mantissa ++ 'e' :: (sign ++ Nat.toDigits 10 exponent.natAbs)

def Layout.decimal (layout : Layout) (d : Decimal) : List Char :=
  if layout.leastWritten ≤ d.exponent ∧ d.exponent ≤ layout.greatestWritten then
    positional d.digits d.exponent
  else scientific layout d.digits d.exponent

def Layout.write (layout : Layout) (x : Binary64) : String :=
  let magnitude := layout.decimal (.shortest layout.tie x.units)
  String.ofList (if x.negative then '-' :: magnitude else magnitude)

end PhraseSql.Number

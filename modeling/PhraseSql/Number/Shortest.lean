import PhraseSql.Number.Binary64

/-!
The fewest decimal digits that read back as a binary number, and of those the nearest to it.
-/

namespace PhraseSql.Number

/-- The magnitudes that round to `units` lie between two halves of units; the ends belong to it if
the significand is even. -/
structure Interval where
  low : Nat
  high : Nat
  closed : Bool

def Interval.around (units : Nat) : Interval where
  low := 2 * units - (if units = 1 <<< units.log2 ∧ 53 ≤ units.log2 then spacing units / 2 else spacing units)
  high := 2 * units + spacing units
  closed := (units / spacing units) % 2 = 0

def Interval.contains (i : Interval) (point scale : Nat) : Bool :=
  if i.closed then i.low * scale ≤ 2 * point && 2 * point ≤ i.high * scale
  else i.low * scale < 2 * point && 2 * point < i.high * scale

inductive Tie where
  | even
  | up

structure Decimal where
  digits : List Char
  exponent : Int

/-- Of the two neighbours of `value` on the grid of multiples of `step`, the one that lies in the
interval, or the nearer if both do. -/
def neighbour? (tie : Tie) (i : Interval) (scale value step : Nat) : Option Nat :=
  let below := value / step
  let above := below + 1
  match i.contains (below * step) scale, i.contains (above * step) scale with
  | false, false => none
  | true, false => some below
  | false, true => some above
  | true, true =>
    let gap := 2 * (value % step)
    if gap < step then some below
    else if step < gap then some above
    else match tie with
      | .even => some (if below % 2 = 0 then below else above)
      | .up => some above

def firstGrid (tie : Tie) (i : Interval) (scale value places : Nat) : Nat → Nat × Nat
  | 0 => (value, 0)
  | left + 1 =>
    match neighbour? tie i scale value (Nat.pow 10 places) with
    | some n => (n, places)
    | none => firstGrid tie i scale value (places - 1) left

def unitPlaces : Nat := 1074

def unitScale : Nat := Nat.pow 5 unitPlaces

def mostDigits : Nat := 17

def Decimal.zero : Decimal := ⟨['0'], 0⟩

def Decimal.shortest (tie : Tie) (units : Nat) : Decimal :=
  if units = 0 then .zero
  else
    let value := units * unitScale
    let places := (Nat.toDigits 10 value).length - 1
    let (n, place) := firstGrid tie (.around units) unitScale value places mostDigits
    let digits := Nat.toDigits 10 n
    ⟨(digits.reverse.dropWhile (· = '0')).reverse, (digits.length - 1 + place : Nat) - (unitPlaces : Int)⟩

end PhraseSql.Number

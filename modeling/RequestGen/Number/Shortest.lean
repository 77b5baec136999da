import RequestGen.Number.Binary64

/-! # The shortest decimal that reads back

A binary64 number is written with the fewest decimal digits that lie in its rounding interval: the
reals nearer to it than to any other number, with the ends when its significand is even. On the
grid of `n` digits only the two neighbours of the number can lie nearest, so `shortest` tries them
for `n = 1, 2, …, 17`. Of two hits the nearer wins, and a tie goes to the even digit.

All quantities are natural numbers in units of `2 ^ (-1076)`. -/

namespace RequestGen

/-- The decimal `0.d₁d₂… * 10 ^ point` with `digits = d₁d₂…`. -/
structure Decimal where
  digits : String
  point : Int

namespace Binary64

/-- The rounding interval of a positive finite number. -/
structure Interval where
  low : Nat
  value : Nat
  high : Nat
  closed : Bool

/-- The interval between the midpoints to both neighbours. Below a power of two the numbers lie
twice as dense. -/
def interval (x : Binary64) : Interval :=
  let step := Nat.pow 2 x.shift
  let gap := if x.fraction = 0 ∧ 1 < x.exponent then step else 2 * step
  { low := 4 * x.scaled - gap
    value := 4 * x.scaled
    high := 4 * x.scaled + 2 * step
    closed := x.significand % 2 = 0 }

/-- One, in the interval's units. -/
def unit : Nat := Nat.pow 2 1076

/-- Zeros between the decimal point and the first digit of `value / unit`, at most `fuel`. -/
def leadingZeros (value : Nat) : Nat → Nat
  | 0 => 0
  | fuel + 1 => if unit ≤ value * 10 then 0 else leadingZeros (value * 10) fuel + 1

/-- The `point` with `10 ^ (point - 1) ≤ value / unit < 10 ^ point`. -/
def decimalPoint (value : Nat) : Int :=
  if unit ≤ value then (toString (value / unit)).length else -(leadingZeros value 400 : Int)

/-- Whether the grid point `x * den / num` lies in the interval. -/
def Interval.contains (i : Interval) (num den x : Nat) : Bool :=
  if i.closed then i.low * num ≤ x * den && x * den ≤ i.high * num
  else i.low * num < x * den && x * den < i.high * num

/-- The neighbour of the value on the grid of multiples of `den / num`, if one lies in the
interval. -/
def Interval.nearest? (i : Interval) (num den : Nat) : Option Nat :=
  let below := i.value * num / den
  match i.contains num den below, i.contains num den (below + 1) with
  | false, false => none
  | true, false => some below
  | false, true => some (below + 1)
  | true, true =>
    let rest := i.value * num % den
    if 2 * rest < den then some below
    else if den < 2 * rest then some (below + 1)
    else some (below + below % 2)

/-- The first grid of at least `n` digits with a hit, as the hit and the power of ten of its
last digit. -/
def Interval.search (i : Interval) (point : Int) (n : Nat) : Nat → Nat × Int
  | 0 => (0, 0)
  | fuel + 1 =>
    let last := point - n
    match i.nearest? (Nat.pow 10 (-last).toNat) (Nat.pow 10 last.toNat * unit) with
    | some x => (x, last)
    | none => i.search point (n + 1) fuel

/-- The digits of `x`, without zeros at the end. -/
def trimmedDigits (x : Nat) : String :=
  String.ofList ((toString x).toList.reverse.dropWhile (· == '0')).reverse

/-- The shortest decimal of a positive finite number. -/
def shortest (x : Binary64) : Decimal :=
  let i := x.interval
  let (hit, last) := i.search (decimalPoint i.value) 1 17
  ⟨trimmedDigits hit, (toString hit).length + last⟩

end Binary64

namespace Decimal

/-- `n` zeros. -/
def zeros (n : Nat) : String := String.ofList (List.replicate n '0')

/-- Positional notation, always with a digit on both sides of the point. -/
def positional (d : Decimal) : String :=
  let length := d.digits.length
  if d.point ≤ 0 then s!"0.{zeros (-d.point).toNat}{d.digits}"
  else if length ≤ d.point.toNat then s!"{d.digits}{zeros (d.point.toNat - length)}.0"
  else s!"{d.digits.take d.point.toNat}.{d.digits.drop d.point.toNat}"

/-- Scientific notation: one digit before the point, an exponent of at least two digits. -/
def scientific (d : Decimal) : String :=
  let exponent := d.point - 1
  let sign := if exponent < 0 then "-" else "+"
  let size := toString exponent.natAbs
  let padded := if size.length < 2 then s!"0{size}" else size
  let mantissa :=
    if d.digits.length ≤ 1 then d.digits else s!"{d.digits.take 1}.{d.digits.drop 1}"
  s!"{mantissa}e{sign}{padded}"

/-- Positional from `0.0001` up to below `10 ^ 16`, scientific outside. -/
def text (d : Decimal) : String :=
  if -4 < d.point ∧ d.point ≤ 16 then d.positional else d.scientific

end Decimal

/-- The text of a number, with the given names for the values that are not finite. -/
def Binary64.text (infinity nan : String) (x : Binary64) : String :=
  if x.isNaN then nan
  else
    let sign := if x.isNegative then "-" else ""
    let magnitude :=
      if x.isInfinite then infinity else if x.isZero then "0.0" else x.shortest.text
    sign ++ magnitude

end RequestGen

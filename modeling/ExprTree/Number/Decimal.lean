import ExprTree.Number.Binary

/-!
Decimal text of binary numbers.

The text has as few digits as read back to the same number, and of those with so few the nearest.
It is positional whatever the size of the number.
-/

namespace ExprTree.Number

/-- The number `digits * 10 ^ exponent`. -/
structure Decimal where
  digits : Nat
  exponent : Int
deriving DecidableEq, Repr

/-- The numbers that read back as `value`, all four over the denominator `unit`: those between
`low` and `high`, the two ends included when `closed`. -/
structure Interval where
  value : Nat
  low : Nat
  high : Nat
  unit : Nat
  closed : Bool
deriving DecidableEq, Repr

namespace Interval

/-- The interval of a positive number `significand * 2 ^ exponent`. Its ends are halfway to the
neighbours, and belong to it when the significand is even. -/
def around (significand : Nat) (exponent : Int) (halfBelow : Bool) : Interval :=
  let scale := twoPow (exponent - 2).toNat
  { value := 4 * significand * scale
    low := (4 * significand - (if halfBelow then 1 else 2)) * scale
    high := (4 * significand + 2) * scale
    unit := twoPow (2 - exponent).toNat
    closed := significand % 2 = 0 }

/-- Whether the number `n / unit` lies in the interval. -/
def contains (i : Interval) (n : Nat) : Bool :=
  if i.closed then decide (i.low ≤ n ∧ n ≤ i.high) else decide (i.low < n ∧ n < i.high)

/-- The least `k` with `value < 10 ^ k`. -/
def magnitude (i : Interval) : Int :=
  if i.unit ≤ i.value then (Nat.toDigits 10 (i.value / i.unit)).length
  else 1 - ((Nat.toDigits 10 ((i.unit - 1) / i.value)).length : Int)

/-- The interval with everything multiplied by `n` over the same denominator. -/
def scaled (i : Interval) (n : Nat) : Interval :=
  { i with value := i.value * n, low := i.low * n, high := i.high * n }

/-- The multiple of `10 ^ exponent` that lies in the interval and is nearest to the value, the upper
one of two that are equally near. -/
def nearest? (i : Interval) (exponent : Int) : Option Decimal :=
  let j := i.scaled (Nat.pow 10 (-exponent).toNat)
  let grid := j.unit * Nat.pow 10 exponent.toNat
  let below := j.value / grid
  let rest := j.value % grid
  match j.contains (below * grid), j.contains ((below + 1) * grid) with
  | true, true => some ⟨if grid ≤ 2 * rest then below + 1 else below, exponent⟩
  | true, false => some ⟨below, exponent⟩
  | false, true => some ⟨below + 1, exponent⟩
  | false, false => none

/-- The first hit on the grids `10 ^ exponent`, `10 ^ (exponent - 1)`, and so on. -/
def search (i : Interval) : Nat → Int → Decimal
  | 0, exponent => ⟨0, exponent⟩
  | fuel + 1, exponent => (i.nearest? exponent).getD (i.search fuel (exponent - 1))

/-- The decimal with the fewest digits in the interval. Seventeen digits always suffice for the
formats read here; one grid more stands before the first digit. -/
def shortest (i : Interval) : Decimal :=
  i.search 20 i.magnitude

end Interval

/-- The digits with the decimal point where the exponent puts it. -/
def Decimal.text (d : Decimal) : String :=
  let digits := Nat.toDigits 10 d.digits
  let zeros (n : Nat) := List.replicate n '0'
  if 0 ≤ d.exponent then
    String.ofList (digits ++ zeros d.exponent.toNat)
  else
    let places := (-d.exponent).toNat
    let padded := zeros (places + 1 - digits.length) ++ digits
    let whole := padded.length - places
    String.ofList (padded.take whole ++ '.' :: padded.drop whole)

/-- The text of a number. Zero keeps its sign. -/
def Reading.text : Reading → String
  | .nan => "NaN"
  | .infinite negative => if negative then "-inf" else "inf"
  | .finite negative significand exponent halfBelow =>
    let digits :=
      if significand = 0 then "0"
      else (Interval.around significand exponent halfBelow).shortest.text
    if negative then "-" ++ digits else digits

end ExprTree.Number

namespace ExprTree

/-- The number that a 64-bit float stands for. -/
def readDouble (x : Float) : Number.Reading := Number.Format.double.read x.toBits.toNat

/-- The number that a 32-bit float stands for. -/
def readSingle (x : Float32) : Number.Reading := Number.Format.single.read x.toBits.toNat

end ExprTree

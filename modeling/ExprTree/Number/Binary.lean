/-!
Binary numbers read from their bits and put back together.

A format is given by the number of stored fraction and exponent bits. `Format.read` says which
number a bit pattern stands for, and `Format.pack` is the pattern of a number that the format can
hold. Truncation and remainder are exact, so they are defined here on the numbers themselves.
-/

namespace ExprTree.Number

/-- Two to the power `n`. -/
def twoPow (n : Nat) : Nat := Nat.pow 2 n

/-- A binary interchange format. -/
structure Format where
  fractionBits : Nat
  exponentBits : Nat
deriving DecidableEq, Repr

/-- What a bit pattern stands for. A finite number is `significand * 2 ^ exponent`; `halfBelow` says
that its lower neighbour is only half as far away as its upper one. -/
inductive Reading where
  | nan
  | infinite (negative : Bool)
  | finite (negative : Bool) (significand : Nat) (exponent : Int) (halfBelow : Bool)
deriving DecidableEq, Repr

namespace Format

def single : Format := ⟨23, 8⟩

def double : Format := ⟨52, 11⟩

/-- The exponent of the smallest positive number. -/
def leastExponent (f : Format) : Int :=
  2 - (twoPow (f.exponentBits - 1) : Int) - f.fractionBits

/-- The number that a bit pattern stands for. -/
def read (f : Format) (bits : Nat) : Reading :=
  let fraction := bits % twoPow f.fractionBits
  let stored := bits / twoPow f.fractionBits % twoPow f.exponentBits
  let negative := bits / twoPow (f.fractionBits + f.exponentBits) % 2 = 1
  if stored = twoPow f.exponentBits - 1 then
    if fraction = 0 then .infinite negative else .nan
  else if stored = 0 then
    .finite negative fraction f.leastExponent false
  else
    .finite negative (twoPow f.fractionBits + fraction) (f.leastExponent + (stored - 1 : Nat))
      (fraction = 0 && 1 < stored)

/-- The bit pattern of `significand * 2 ^ exponent`, for a number that the format can hold. -/
def pack (f : Format) (negative : Bool) (significand : Nat) (exponent : Int) : Nat :=
  let sign := if negative then twoPow (f.fractionBits + f.exponentBits) else 0
  if significand = 0 then sign
  else
    let top : Int := significand.log2
    let aligned := max f.leastExponent (exponent + top - f.fractionBits)
    let scaled :=
      if aligned ≤ exponent then significand * twoPow (exponent - aligned).toNat
      else significand / twoPow (aligned - exponent).toNat
    if scaled < twoPow f.fractionBits then sign + scaled
    else
      let stored := (aligned - f.leastExponent).toNat + 1
      sign + stored * twoPow f.fractionBits + (scaled - twoPow f.fractionBits)

/-- The pattern of a quiet NaN. -/
def nanPattern (f : Format) : Nat :=
  (twoPow f.exponentBits - 1) * twoPow f.fractionBits + twoPow (f.fractionBits - 1)

/-- The pattern of what is left of `x` after taking away the multiple of `y` that is the quotient
rounded toward zero. It has the sign of `x`; it is NaN when `x` is infinite or `y` is zero. -/
def remainder (f : Format) (x y : Nat) : Nat :=
  match f.read x, f.read y with
  | .finite negative m p _, .finite _ n q _ =>
    if n = 0 then f.nanPattern
    else
      let common := min p q
      let rest := m * twoPow (p - common).toNat % (n * twoPow (q - common).toNat)
      f.pack negative rest common
  | .finite .., .infinite _ => x
  | _, _ => f.nanPattern

end Format

namespace Reading

/-- The integer nearest to zero among those next to the number, held within `-limit` and
`limit - 1`; NaN gives 0. -/
def truncate (limit : Nat) : Reading → Int
  | .nan => 0
  | .infinite negative => if negative then -limit else limit - 1
  | .finite negative significand exponent _ =>
    let magnitude : Nat :=
      if 0 ≤ exponent then significand * twoPow exponent.toNat
      else significand / twoPow (-exponent).toNat
    if negative then max (-(magnitude : Int)) (-limit) else min (magnitude : Int) (limit - 1)

end Reading

end ExprTree.Number

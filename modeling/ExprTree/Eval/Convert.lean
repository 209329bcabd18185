import ExprTree.Eval.Failure
import ExprTree.Number.Decimal
import ExprTree.Ty.Supertypes

/-!
Conversion of values.

Numbers become numbers of another type, by wrapping or, when checked, only if the type holds them.
References keep their value and need a type that accepts it.
-/

namespace ExprTree.Value

/-- The integer as a value of the type: modulo its width, or, when checked, only if it is held. -/
def narrow (checked : Bool) (k : Integral) (i : Int) : Except Failure Value :=
  if checked && !k.holds i then .error .overflow else .ok (.ofInt k i)

/-- The character with a 16-bit code. Codes of half a surrogate pair are no characters. -/
def charOfCode (checked : Bool) (source : Ty) (i : Int) : Except Failure Value :=
  if checked && !Integral.uint16.holds i then .error .overflow
  else
    let code := (BitVec.ofInt 16 i).toNat
    if code.isValidChar then .ok (.char (Char.ofNat code)) else .error (.invalidCast source .char)

/-- An integer as a number of another type, or none if it is no type of numbers. -/
def ofInteger (checked : Bool) (source : Ty) (i : Int) : Ty → Except Failure (Option Value)
  | .integral k => some <$> narrow checked k i
  | .single => .ok (some (.single (Float32.ofInt i)))
  | .double => .ok (some (.double (Float.ofInt i)))
  | .char => some <$> charOfCode checked source i
  | _ => .ok none

/-- A float as a number of another type. Integers are reached by dropping the fraction, within 128
bits. -/
def ofFloat (checked : Bool) (source : Ty) (x : Float) : Ty → Except Failure (Option Value)
  | .single => .ok (some (.single x.toFloat32))
  | .double => .ok (some (.double x))
  | target =>
    if checked && !x.isFinite then .error .overflow
    else ofInteger checked source ((readDouble x).truncate (Number.twoPow 127)) target

/-- A number or character as a number of another type, or none if it is neither. -/
def toNumber (checked : Bool) (v : Value) (target : Ty) : Except Failure (Option Value) :=
  match v.integer?, v.float? with
  | some i, _ => ofInteger checked v.typeOf i target
  | none, some x => ofFloat checked v.typeOf x target
  | none, none => .ok none

/-- A value that is not a number, as a value of the type. -/
def upcast (v : Value) (target : Ty) : Except Failure Value :=
  if !target.isValueType && target.assignableFrom v.typeOf then .ok v
  else .error (.invalidCast v.typeOf target)

/-- A value as a value of another type. -/
def convert (v : Value) (target : Ty) (checked : Bool) : Except Failure Value :=
  if v.typeOf = target then .ok v
  else if v.isNull then
    if target.isValueType then .error .nullReference else .ok .null
  else if target.isNumeric || target = .char then do
    match ← v.toNumber checked target with
    | some converted => .ok converted
    | none => v.upcast target
  else v.upcast target

end ExprTree.Value

import ExprTree.Ty.Equality

/-!
Values: what constants hold and what evaluation produces.

Arrays and objects are references, so two of them are the same only when they refer to one place.
A reference knows the type of what it refers to, because that never changes.
-/

namespace ExprTree

namespace Integral

/-- The least integer of the type. -/
def least (k : Integral) : Int := if k.signed then (BitVec.intMin k.width).toInt else 0

/-- The greatest integer of the type. -/
def greatest (k : Integral) : Int :=
  if k.signed then (BitVec.intMax k.width).toInt else (BitVec.allOnes k.width).toNat

/-- Whether the type holds the integer. -/
def holds (k : Integral) (i : Int) : Bool := decide (k.least ≤ i ∧ i ≤ k.greatest)

/-- The integer that the bits stand for. -/
def toInt (k : Integral) (bits : BitVec k.width) : Int :=
  if k.signed then bits.toInt else bits.toNat

end Integral

/-- A place in the heap. -/
abbrev Ref := Nat

/-- A reference to an object, with the runtime type that the object reports. The type is part of the
reference because it is assumed to be constant: an object that the host made is asked for its type
again and again, and it always reports the same one. -/
structure ObjectRef where
  ref : Ref
  type : Ty
deriving DecidableEq

/-- A value. -/
inductive Value where
  | void
  | null
  | boolean (b : Bool)
  | char (c : Char)
  | string (s : String)
  | integral (kind : Integral) (bits : BitVec kind.width)
  | single (x : Float32)
  | double (x : Float)
  | array (ref : Ref) (element : Ty)
  | object (o : ObjectRef)
  | type (t : Ty)
deriving DecidableEq

namespace Value

/-- The value of an integral type that agrees with `i` modulo two to the width of the type. -/
def ofInt (k : Integral) (i : Int) : Value := .integral k (BitVec.ofInt k.width i)

/-- A 32-bit signed integer. -/
def int32 (i : Int) : Value := ofInt .int32 i

/-- The type of a value. Null has none of its own and counts as an `object`. -/
def typeOf : Value → Ty
  | .void => .void
  | .null => .object
  | .boolean _ => .boolean
  | .char _ => .char
  | .string _ => .string
  | .integral k _ => .integral k
  | .single _ => .single
  | .double _ => .double
  | .array _ element => .vector element
  | .object o => o.type
  | .type _ => .runtimeType

/-- What a location of the type holds before anything is stored in it. -/
def defaultOf : Ty → Value
  | .void => .void
  | .boolean => .boolean false
  | .char => .char '\x00'
  | .integral k => .ofInt k 0
  | .single => .single 0
  | .double => .double 0
  | .string | .object | .decimal | .array .. | .parameter _ | .named _ => .null

def isNull : Value → Bool
  | .null => true
  | _ => false

def boolean? : Value → Option Bool
  | .boolean b => some b
  | _ => none

/-- The integer behind a character or a value of an integral type. -/
def integer? : Value → Option Int
  | .char c => some c.toNat
  | .integral k bits => some (k.toInt bits)
  | _ => none

/-- The number behind a float, or behind a character or integer, as a 64-bit float. -/
def float? : Value → Option Float
  | .single x => some x.toFloat
  | .double x => some x
  | v => v.integer?.map Float.ofInt

/-- Equality as programs see it: within one type, by content for primitive values and by place for
arrays and objects. A float is not equal to a NaN. -/
def equal : Value → Value → Bool
  | .void, .void => true
  | .null, .null => true
  | .boolean a, .boolean b => a == b
  | .char a, .char b => a == b
  | .string a, .string b => a == b
  | .integral k a, .integral l b => k == l && k.toInt a == l.toInt b
  | .single a, .single b => a == b
  | .double a, .double b => a == b
  | .array r _, .array s _ => r == s
  | .object a, .object b => a.ref == b.ref
  | .type s, .type t => decide (s = t)
  | _, _ => false

/-- The order of two floats, if neither is NaN. -/
def floatOrder? (a b : Float) : Option Ordering :=
  if a < b then some .lt
  else if a == b then some .eq
  else if b < a then some .gt
  else none

/-- Order as programs see it: strings, characters, and numbers of one type. -/
def order? : Value → Value → Option Ordering
  | .string a, .string b => some (compare a b)
  | .char a, .char b => some (compare a.toNat b.toNat)
  | .integral k a, .integral l b => if k = l then some (compare (k.toInt a) (l.toInt b)) else none
  | .single a, .single b => floatOrder? a.toFloat b.toFloat
  | .double a, .double b => floatOrder? a b
  | _, _ => none

@[simp] theorem typeOf_ofInt (k : Integral) (i : Int) : (ofInt k i).typeOf = .integral k := rfl

@[simp] theorem typeOf_defaultOf_integral (k : Integral) :
    (defaultOf (.integral k)).typeOf = .integral k := rfl

end Value

end ExprTree

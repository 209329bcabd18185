import ExprTree.Eval.Convert
import ExprTree.Value.Literal

/-!
Operators on values.

Integers are computed exactly and then wrapped into their type, or, when checked, refused if the
type does not hold them. Operands of different types have no common operation, except that
anything can be joined to a string and that a shift takes any number as its count.
-/

namespace ExprTree

/-- What is left of a float divided by another, with the sign of the first. -/
def remainderDouble (a b : Float) : Float :=
  .ofBits (Number.Format.double.remainder a.toBits.toNat b.toBits.toNat).toUInt64

/-- What is left of a float divided by another, with the sign of the first. -/
def remainderSingle (a b : Float32) : Float32 :=
  .ofBits (Number.Format.single.remainder a.toBits.toNat b.toBits.toNat).toUInt32

namespace Value

/-! ### Binary operators -/

def mismatch {α : Type} (op : BinaryOp) (left right : Value) : Except Failure α :=
  .error (.mismatch op left.typeOf right.typeOf)

/-- How far a count shifts: it is cut off to 32 bits, and of these the ones that can count up to the
width are looked at. -/
def shiftCount (k : Integral) (count : Int) : Nat :=
  (BitVec.ofInt 32 count).toNat &&& (k.width - 1)

/-- The bits moved down, with the top bit copied if it is a sign and zeros coming in if not. -/
def shiftedRight (k : Integral) (bits : BitVec k.width) (n : Nat) : BitVec k.width :=
  if k.signed then bits.sshiftRight n else bits >>> n

/-- An operator on two integers of one type, if it is one of arithmetic, bits or shifts. -/
def integralBinary? (op : BinaryOp) (checked : Bool) (k : Integral) (a b : BitVec k.width) :
    Option (Except Failure Value) :=
  let x := k.toInt a
  let y := k.toInt b
  match op with
  | .add => some (narrow checked k (x + y))
  | .subtract => some (narrow checked k (x - y))
  | .multiply => some (narrow checked k (x * y))
  | .divide => some (if y = 0 then .error .divideByZero else narrow true k (x.tdiv y))
  | .modulo => some (if y = 0 then .error .divideByZero else .ok (.ofInt k (x.tmod y)))
  | .and => some (.ok (.integral k (a &&& b)))
  | .or => some (.ok (.integral k (a ||| b)))
  | .exclusiveOr => some (.ok (.integral k (a ^^^ b)))
  | .leftShift => some (.ok (.integral k (a <<< shiftCount k y)))
  | .rightShift => some (.ok (.integral k (shiftedRight k a (shiftCount k y))))
  | _ => none

/-- An operator on two floats, if it is one of arithmetic. -/
def doubleBinary? (op : BinaryOp) (a b : Float) : Option Value :=
  match op with
  | .add => some (.double (a + b))
  | .subtract => some (.double (a - b))
  | .multiply => some (.double (a * b))
  | .divide => some (.double (a / b))
  | .modulo => some (.double (remainderDouble a b))
  | _ => none

/-- An operator on two floats, if it is one of arithmetic. -/
def singleBinary? (op : BinaryOp) (a b : Float32) : Option Value :=
  match op with
  | .add => some (.single (a + b))
  | .subtract => some (.single (a - b))
  | .multiply => some (.single (a * b))
  | .divide => some (.single (a / b))
  | .modulo => some (.single (remainderSingle a b))
  | _ => none

/-- An operator on two Booleans, if it is one of logic. -/
def booleanBinary? (op : BinaryOp) (a b : Bool) : Option Value :=
  match op with
  | .and => some (.boolean (a && b))
  | .or => some (.boolean (a || b))
  | .exclusiveOr => some (.boolean (a != b))
  | _ => none

/-- A comparison. Equality is defined for all values, order for numbers, characters and strings of
one type. -/
def compareBy (op : BinaryOp) (left right : Value) : Except Failure Value :=
  match op with
  | .equal => .ok (.boolean (left.equal right))
  | .notEqual => .ok (.boolean (!left.equal right))
  | _ =>
    match left.order? right with
    | none => mismatch op left right
    | some order =>
      .ok (.boolean (match op with
        | .lessThan => order.isLT
        | .lessThanOrEqual => order.isLE
        | .greaterThan => order.isGT
        | _ => order.isGE))

/-- The power of two numbers, as 64-bit floats. -/
def power (left right : Value) : Except Failure Value :=
  match left.float?, right.float? with
  | some a, some b => .ok (.double (a.pow b))
  | _, _ => mismatch .power left right

def isString : Value → Bool
  | .string _ => true
  | _ => false

/-- An arithmetic or logical operator on two values of one type. -/
def combine (op : BinaryOp) (checked : Bool) (left right : Value) : Except Failure Value :=
  match left, right with
  | .boolean a, .boolean b => ((booleanBinary? op a b).map .ok).getD (mismatch op left right)
  | .integral k a, .integral l b =>
    if h : l = k then (integralBinary? op checked k a (h ▸ b)).getD (mismatch op left right)
    else mismatch op left right
  | .single a, .single b => ((singleBinary? op a b).map .ok).getD (mismatch op left right)
  | .double a, .double b => ((doubleBinary? op a b).map .ok).getD (mismatch op left right)
  | _, _ => mismatch op left right

/-- A binary operator on two values. -/
def binary (op : BinaryOp) (left right : Value) (checked : Bool) : Except Failure Value :=
  if op.isComparison then compareBy op left right
  else if op = .power then power left right
  else if op = .add && (left.isString || right.isString) then
    .ok (.string (left.joined ++ right.joined))
  else if op.isShift && left.typeOf.isIntegral then do
    combine op checked left (← right.convert left.typeOf false)
  else combine op checked left right

/-! ### Unary operators -/

/-- Whether a unary operator adds one, by itself or as an assignment. -/
def addsOne : UnaryOp → Bool
  | .increment | .preIncrementAssign | .postIncrementAssign => true
  | _ => false

/-- Whether a unary operator takes one away, by itself or as an assignment. -/
def subtractsOne : UnaryOp → Bool
  | .decrement | .preDecrementAssign | .postDecrementAssign => true
  | _ => false

def badOperand (op : UnaryOp) (v : Value) : Except Failure Value := .error (.operand op v.typeOf)

/-- A unary operator on a value. For an assignment this is the value that is stored. -/
def unary (op : UnaryOp) (v : Value) : Except Failure Value :=
  match v with
  | .boolean b =>
    match op with
    | .not | .isFalse => .ok (.boolean !b)
    | .isTrue => .ok (.boolean b)
    | _ => badOperand op v
  | .integral k bits =>
    match op with
    | .negate => narrow false k (-k.toInt bits)
    | .negateChecked => narrow true k (-k.toInt bits)
    | .unaryPlus => .ok v
    | .not | .onesComplement => .ok (.integral k (~~~bits))
    | _ =>
      if addsOne op then narrow false k (k.toInt bits + 1)
      else if subtractsOne op then narrow false k (k.toInt bits - 1)
      else badOperand op v
  | .single x =>
    match op with
    | .negate | .negateChecked => .ok (.single (-x))
    | .unaryPlus => .ok v
    | _ =>
      if addsOne op then .ok (.single (x + 1))
      else if subtractsOne op then .ok (.single (x - 1))
      else badOperand op v
  | .double x =>
    match op with
    | .negate | .negateChecked => .ok (.double (-x))
    | .unaryPlus => .ok v
    | _ =>
      if addsOne op then .ok (.double (x + 1))
      else if subtractsOne op then .ok (.double (x - 1))
      else badOperand op v
  | _ => badOperand op v

/-! ### Tests of types -/

/-- Whether a value passes a test of its type. Null passes none. -/
def passes (op : TypeOp) (v : Value) (tested : Ty) : Bool :=
  !v.isNull &&
    match op with
    | .typeIs => tested.assignableFrom v.typeOf
    | .typeEqual => v.typeOf = tested

/-- The value if it is of the type, and null if not. -/
def castOrNull (v : Value) (type : Ty) : Value := if v.passes .typeIs type then v else .null

end Value

end ExprTree

/-!
The operators of expression trees, with their names and the tokens that source text uses for them.
-/

namespace ExprTree

inductive UnaryOp where
  | negate | negateChecked | unaryPlus | not | onesComplement
  | convert | convertChecked | unbox | typeAs | arrayLength | throw | quote
  | increment | decrement
  | preIncrementAssign | postIncrementAssign | preDecrementAssign | postDecrementAssign
  | isTrue | isFalse
deriving DecidableEq, Repr

/-- The name of the operator. -/
def UnaryOp.name : UnaryOp → String
  | .negate => "Negate"
  | .negateChecked => "NegateChecked"
  | .unaryPlus => "UnaryPlus"
  | .not => "Not"
  | .onesComplement => "OnesComplement"
  | .convert => "Convert"
  | .convertChecked => "ConvertChecked"
  | .unbox => "Unbox"
  | .typeAs => "TypeAs"
  | .arrayLength => "ArrayLength"
  | .throw => "Throw"
  | .quote => "Quote"
  | .increment => "Increment"
  | .decrement => "Decrement"
  | .preIncrementAssign => "PreIncrementAssign"
  | .postIncrementAssign => "PostIncrementAssign"
  | .preDecrementAssign => "PreDecrementAssign"
  | .postDecrementAssign => "PostDecrementAssign"
  | .isTrue => "IsTrue"
  | .isFalse => "IsFalse"

/-- Every unary operator. -/
def UnaryOp.all : List UnaryOp :=
  [.negate, .negateChecked, .unaryPlus, .not, .onesComplement, .convert, .convertChecked, .unbox,
    .typeAs, .arrayLength, .throw, .quote, .increment, .decrement, .preIncrementAssign,
    .postIncrementAssign, .preDecrementAssign, .postDecrementAssign, .isTrue, .isFalse]

theorem UnaryOp.mem_all (op : UnaryOp) : op ∈ UnaryOp.all := by
  cases op <;> decide

inductive BinaryOp where
  | add | subtract | multiply | divide | modulo
  | and | or | exclusiveOr | leftShift | rightShift
  | andAlso | orElse | coalesce
  | equal | notEqual | lessThan | lessThanOrEqual | greaterThan | greaterThanOrEqual
  | power | assign | arrayIndex
deriving DecidableEq, Repr

namespace BinaryOp

/-- The name of the operator. -/
def name : BinaryOp → String
  | .add => "Add"
  | .subtract => "Subtract"
  | .multiply => "Multiply"
  | .divide => "Divide"
  | .modulo => "Modulo"
  | .and => "And"
  | .or => "Or"
  | .exclusiveOr => "ExclusiveOr"
  | .leftShift => "LeftShift"
  | .rightShift => "RightShift"
  | .andAlso => "AndAlso"
  | .orElse => "OrElse"
  | .coalesce => "Coalesce"
  | .equal => "Equal"
  | .notEqual => "NotEqual"
  | .lessThan => "LessThan"
  | .lessThanOrEqual => "LessThanOrEqual"
  | .greaterThan => "GreaterThan"
  | .greaterThanOrEqual => "GreaterThanOrEqual"
  | .power => "Power"
  | .assign => "Assign"
  | .arrayIndex => "ArrayIndex"

/-- Every binary operator. -/
def all : List BinaryOp :=
  [.add, .subtract, .multiply, .divide, .modulo, .and, .or, .exclusiveOr, .leftShift, .rightShift,
    .andAlso, .orElse, .coalesce, .equal, .notEqual, .lessThan, .lessThanOrEqual, .greaterThan,
    .greaterThanOrEqual, .power, .assign, .arrayIndex]

theorem mem_all (op : BinaryOp) : op ∈ all := by
  cases op <;> decide

/-- The token between the operands, for the operators that are written with one. -/
def token? : BinaryOp → Option String
  | .add => some "+"
  | .subtract => some "-"
  | .multiply => some "*"
  | .divide => some "/"
  | .modulo => some "%"
  | .and => some "&"
  | .or => some "|"
  | .exclusiveOr => some "^"
  | .leftShift => some "<<"
  | .rightShift => some ">>"
  | .andAlso => some "&&"
  | .orElse => some "||"
  | .coalesce => some "??"
  | .equal => some "=="
  | .notEqual => some "!="
  | .lessThan => some "<"
  | .lessThanOrEqual => some "<="
  | .greaterThan => some ">"
  | .greaterThanOrEqual => some ">="
  | .assign => some "="
  | .power | .arrayIndex => none

/-- Whether the operator can be combined with assignment, as in `a += b`. -/
def hasCompoundForm : BinaryOp → Bool
  | .add | .subtract | .multiply | .divide | .modulo
  | .and | .or | .exclusiveOr | .leftShift | .rightShift | .power => true
  | _ => false

/-- Whether the operator has a form that reports overflow. -/
def hasCheckedForm : BinaryOp → Bool
  | .add | .subtract | .multiply => true
  | _ => false

def isComparison : BinaryOp → Bool
  | .equal | .notEqual | .lessThan | .lessThanOrEqual | .greaterThan | .greaterThanOrEqual => true
  | _ => false

def isShift : BinaryOp → Bool
  | .leftShift | .rightShift => true
  | _ => false

end BinaryOp

/-- Tests of a value's type: of a type that accepts it, or of exactly that type. -/
inductive TypeOp where
  | typeIs | typeEqual
deriving DecidableEq, Repr

def TypeOp.name : TypeOp → String
  | .typeIs => "TypeIs"
  | .typeEqual => "TypeEqual"

inductive JumpKind where
  | returning | breaking | continuing | goto
deriving DecidableEq, Repr

def JumpKind.name : JumpKind → String
  | .returning => "Return"
  | .breaking => "Break"
  | .continuing => "Continue"
  | .goto => "Goto"

/-- Every kind of jump. -/
def JumpKind.all : List JumpKind := [.returning, .breaking, .continuing, .goto]

/-- Array creation: from its elements, or from the length of each dimension. -/
inductive ArrayForm where
  | elements | bounds
deriving DecidableEq, Repr

def ArrayForm.name : ArrayForm → String
  | .elements => "Init"
  | .bounds => "Bounds"

end ExprTree

import ExprTree.Build.Node
import ExprTree.Source.Statement

/-!
Operators, objects and member accesses in source text.

Each function takes `write`, which writes an expression. Some operators have no symbol of their own:
a tree that says the same is built and written in their place.
-/

namespace ExprTree.Source

/-! ### Trees that are only written -/

/-- A node that is made to be written, and whose identity is never looked at. -/
def made (node : Node) : Expr := ⟨0, node⟩

def madeConstant (v : Value) : Expr := made (.constant v v.typeOf)

def madeBinary (op : BinaryOp) (left right : Expr) : Expr :=
  made (.binary op left right false false (op.resultType left.type false))

/-- A power is a call of `Math.Pow`. -/
def madePower (left right : Expr) : Expr := made (.call none .pow [left, right])

def madeLength (array : Expr) : Expr := made (.member (some array) (.length array.type))

def madeTypeQuery (e : Expr) : Expr := made (.call (some e) .getType [])

/-! ### Operators -/

variable (write : Expr → Draft)

/-- Two operands with a token between them. -/
def between (left : Draft) (symbol : String) (right : Draft) : Draft :=
  left ++ space ++ token symbol ++ space ++ right

/-- An operator token before its operand. -/
def leading (symbol : String) (e : Expr) : Draft := token symbol ++ operand write e

/-- A conversion to a type. -/
def conversion (type : Ty) (e : Expr) : Draft := parenthesized (writeType type) ++ operand write e

/-- A member of what the target gives. -/
def accessed (receiver : Draft) (name : String) (referent : Referent) : Draft :=
  receiver ++ token "." ++ reference name referent

/-- A method of a receiver, with its type arguments, called with arguments. -/
def called (receiver : Draft) (method : Method) (es : List Expr) : Draft :=
  accessed receiver method.name (.method method) ++ methodArguments method ++ arguments write es

def unary (op : UnaryOp) (e : Expr) (type : Ty) : Draft :=
  match op with
  | .throw => keyword "throw" ++ space ++ write e
  | .isTrue => write (madeBinary .equal e (madeConstant (.boolean true)))
  | .isFalse => write (madeBinary .equal e (madeConstant (.boolean false)))
  | .increment => write (madeBinary .add e (madeConstant (.int32 1)))
  | .decrement => write (madeBinary .subtract e (madeConstant (.int32 1)))
  | .arrayLength => write (madeLength e)
  | .typeAs => write e ++ space ++ keyword "as" ++ space ++ writeType type
  | .convert | .unbox => conversion write type e
  | .convertChecked => checkedBlock (conversion write type e)
  | .quote => write e
  | .preIncrementAssign => token "++" ++ write e
  | .postIncrementAssign => write e ++ token "++"
  | .preDecrementAssign => token "--" ++ write e
  | .postDecrementAssign => write e ++ token "--"
  | .negateChecked => checkedBlock (leading write "-" e)
  | .negate => leading write "-" e
  | .unaryPlus => leading write "+" e
  | .not => leading write "!" e
  | .onesComplement => leading write "~" e

/-- A binary operator that is written with a token, if it has one. The operands of a compound
assignment take no parentheses. -/
def binaryToken (op : BinaryOp) (left right : Expr) (assign checked : Bool) : Draft :=
  match op.token? with
  | none => .failure (.binary op assign checked) .token
  | some symbol =>
    if assign then between (write left) (symbol ++ "=") (write right)
    else between (operand write left) symbol (operand write right)

def binary (op : BinaryOp) (left right : Expr) (assign checked : Bool) : Draft :=
  if assign && !op.hasCompoundForm then .failure (.binary op assign checked) .compoundForm
  else if checked then checkedBlock (binaryToken write op left right assign checked)
  else
    match op with
    | .assign => between (write left) "=" (write right)
    | .power =>
      if assign then write (madeBinary .assign left (madePower left right))
      else write (madePower left right)
    | .arrayIndex => target write left ++ token "[" ++ write right ++ token "]"
    | _ => binaryToken write op left right assign checked

def typeTest (op : TypeOp) (e : Expr) (tested : Ty) : Draft :=
  match op with
  | .typeIs => write e ++ space ++ keyword "is" ++ space ++ writeType tested
  | .typeEqual =>
    between (write (madeTypeQuery e)) "==" (keyword "typeof" ++ parenthesized (writeType tested))

/-! ### Objects -/

/-- What a member or method is taken of: a value, or the type that declares it. -/
def receiver (e : Option Expr) (declaring : Ty) : Draft :=
  match e with
  | some e => target write e
  | none => writeType declaring

def newArray (form : ArrayForm) (type : Ty) (items : List Expr) : Draft :=
  keyword "new" ++ space ++
    (match form with
      | .elements => writeType type ++ space ++ listed "\x7b" "\x7d" (items.map write)
      | .bounds => writeType (type.element?.getD .object) ++ listed "[" "]" (items.map write))

/-- One element of a collection initializer: its argument, or its arguments in braces. -/
def elementInit (i : ElementInit) : Draft :=
  match i.arguments with
  | [single] => write single
  | several => listed "\x7b" "\x7d" (several.map write)

def initializers (is : List ElementInit) : Draft :=
  listed "\x7b" "\x7d" (is.map (elementInit write))

mutual

/-- What stands after the `=` of a binding. -/
def bindingValue : Binding → Draft
  | .assignment _ value => space ++ write value
  | .elements _ is => space ++ initializers write is
  | .members _ nested => newline ++ braced (bindingLines nested)
termination_by structural b => b

/-- Bindings, one to a line, with commas between them. -/
def bindingLines : List Binding → Draft
  | [] => .empty
  | b :: bs =>
    reference b.filled.name (.member b.filled) ++ space ++ token "=" ++ bindingValue b ++
      (if bs.isEmpty then .empty else token ",") ++ newline ++ bindingLines bs
termination_by structural bs => bs

end

end ExprTree.Source

import ExprTree.Expr.Kind

/-!
Which expressions are put in parentheses, and which are statements.

There are no levels of precedence: an operand is parenthesized or not by its kind alone.
-/

namespace ExprTree

/-- Whether a node of this kind is parenthesized as an operand. -/
def Kind.isGroupedAsOperand : Kind → Bool
  | .binary .arrayIndex false _ => false
  | .binary .. => true
  | .unary .negate | .unary .negateChecked | .unary .not | .unary .onesComplement
  | .unary .increment | .unary .decrement | .unary .unaryPlus | .unary .typeAs => true
  | .typeTest _ | .conditional => true
  | _ => false

/-- Whether a node of this kind is parenthesized before `.member`, `(arguments)` or `[index]`,
where conversions have to be closed off too. -/
def Kind.isGroupedAsTarget : Kind → Bool
  | .unary .convert | .unary .convertChecked | .unary .unbox | .unary .typeAs => true
  | kind => kind.isGroupedAsOperand

/-- Whether a conditional is written `t ? a : b`: it has a value and two branches, neither of them
a block. -/
def isTernary (ifTrue : Expr) (ifFalse : Option Expr) (type : Ty) : Bool :=
  match ifFalse with
  | some ifFalse => !type.isVoid && ifTrue.kind ≠ .block && ifFalse.kind ≠ .block
  | none => false

/-- Whether an expression ends its own lines, so that it takes neither `return` nor `;`. -/
def Expr.isStatement (e : Expr) : Bool :=
  match e.node with
  | .block .. | .attempt .. | .loop .. | .switch .. => true
  | .conditional _ ifTrue ifFalse type => !isTernary ifTrue ifFalse type
  | node => node.kind.isDerived

/-- Whether an expression writes `return` itself. -/
def Expr.isReturn (e : Expr) : Bool := e.kind = .jump .returning

end ExprTree

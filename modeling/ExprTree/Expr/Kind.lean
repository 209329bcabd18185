import ExprTree.Expr.Basic

/-!
The kind of a node: its constructor together with its operator, without its parts.
-/

namespace ExprTree

/-- What sort of node an expression is. -/
inductive Kind where
  | constant | parameter | default | lambda
  | unary (op : UnaryOp)
  | binary (op : BinaryOp) (assign checked : Bool)
  | typeTest (op : TypeOp)
  | block | conditional | loop
  | jump (kind : JumpKind)
  | label | switch | attempt | create
  | newArray (form : ArrayForm)
  | listInit | memberInit | call | member | invocation | index
  | forLoop | forEach | whileLoop | doWhile | usingBlock
deriving DecidableEq, Repr

namespace Kind

/-- Whether lowering expresses nodes of this kind by others. -/
def isDerived : Kind → Bool
  | .forLoop | .forEach | .whileLoop | .doWhile | .usingBlock => true
  | _ => false

/-- The text of a kind in messages and reports. -/
def text : Kind → String
  | .constant => "Constant"
  | .parameter => "Parameter"
  | .default => "Default"
  | .lambda => "Lambda"
  | .unary op => "Unary(" ++ op.name ++ ")"
  | .binary op assign checked =>
    "Binary \x7b operator: " ++ op.name ++ ", assign: " ++ toString assign ++
      ", checked: " ++ toString checked ++ " \x7d"
  | .typeTest op => "TypeBinary(" ++ op.name ++ ")"
  | .block => "Block"
  | .conditional => "Conditional"
  | .loop => "Loop"
  | .jump kind => "Goto(" ++ kind.name ++ ")"
  | .label => "Label"
  | .switch => "Switch"
  | .attempt => "Try"
  | .create => "New"
  | .newArray form => "NewArray(" ++ form.name ++ ")"
  | .listInit => "ListInit"
  | .memberInit => "MemberInit"
  | .call => "MethodCall"
  | .member => "Member"
  | .invocation => "Invocation"
  | .index => "Index"
  | .forLoop => "For"
  | .forEach => "ForEach"
  | .whileLoop => "While"
  | .doWhile => "DoWhile"
  | .usingBlock => "Using"

end Kind

/-- The kind of a node. -/
def Node.kind : Node → Kind
  | .constant .. => .constant
  | .parameter _ => .parameter
  | .default _ => .default
  | .lambda _ => .lambda
  | .unary op .. => .unary op
  | .binary op _ _ assign checked _ => .binary op assign checked
  | .typeTest op .. => .typeTest op
  | .block .. => .block
  | .conditional .. => .conditional
  | .loop .. => .loop
  | .jump kind .. => .jump kind
  | .label .. => .label
  | .switch .. => .switch
  | .attempt .. => .attempt
  | .create .. => .create
  | .newArray form .. => .newArray form
  | .listInit .. => .listInit
  | .memberInit .. => .memberInit
  | .call .. => .call
  | .member .. => .member
  | .invocation .. => .invocation
  | .index .. => .index
  | .forLoop .. => .forLoop
  | .forEach .. => .forEach
  | .whileLoop .. => .whileLoop
  | .doWhile .. => .doWhile
  | .usingBlock .. => .usingBlock

/-- The kind of an expression. -/
def Expr.kind (e : Expr) : Kind := e.node.kind

/-- Whether lowering expresses this node by others. -/
def Expr.isDerived (e : Expr) : Bool := e.kind.isDerived

end ExprTree

import ExprTree.Build.Error
import ExprTree.Ty.Supertypes

/-!
Building trees.

Building draws identities from a supply, so that nodes, parameters and labels made at different
times are different. A node is built only when its parts pass the checks of `Node.check`; the first
part that does not is reported.
-/

namespace ExprTree

/-- The next unused identity. -/
abbrev Supply := Identity

/-- Computations that draw identities and may refuse to build. -/
abbrev Build := StateT Supply (Except BuildError)

/-! ### Checks -/

/-- A condition that must hold, and what to report when it does not. -/
def require (condition : Bool) (error : BuildError) : Except BuildError Unit :=
  if condition then .ok () else .error error

/-- Whether an expression names a place that can be stored to: a parameter, a member, an indexed
element, or an array element that is not itself an assignment. -/
def Expr.isWritable (e : Expr) : Bool :=
  match e.kind with
  | .parameter | .member | .index | .binary .arrayIndex false _ => true
  | _ => false

def Expr.isNew (e : Expr) : Bool := e.kind = .create

/-- A test must be boolean. -/
def checkTest (role : TestRole) (test : Expr) : Except BuildError Unit :=
  require test.type.isBoolean (.notBoolean role test.type)

/-- The continue label of a loop carries no value. -/
def checkContinue : Option Label → Except BuildError Unit
  | some target => require target.type.isVoid (.continueNotVoid target.type)
  | none => .ok ()

def checkWritable (e : Expr) : Except BuildError Unit :=
  require e.isWritable (.notWritable e.kind)

def checkArray (e : Expr) : Except BuildError Unit :=
  require e.type.isArray (.notArray e.type)

def checkAssignable (target source : Ty) : Except BuildError Unit :=
  require (target.assignableFrom source) (.notAssignable target source)

/-- A binary operator takes a flag only if it has that form. An assignment stores what its target
can hold, an array element is taken of an array, and a compound assignment has a target. -/
def checkBinary (op : BinaryOp) (left right : Expr) (assign checked : Bool) :
    Except BuildError Unit := do
  require (!checked || op.hasCheckedForm) (.noCheckedForm op)
  require (!assign || op.hasCompoundForm) (.noCompoundForm op)
  match op with
  | .assign =>
    checkWritable left
    checkAssignable left.type right.type
  | .arrayIndex => checkArray left
  | _ => if assign then checkWritable left else .ok ()

/-- What must hold of the parts of a node. Nodes that are not listed take any parts. -/
def Node.check : Node → Except BuildError Unit
  | .unary .arrayLength operand _ => checkArray operand
  | .unary .preIncrementAssign operand _ | .unary .postIncrementAssign operand _
  | .unary .preDecrementAssign operand _ | .unary .postDecrementAssign operand _ =>
    checkWritable operand
  | .binary op left right assign checked _ => checkBinary op left right assign checked
  | .block _ statements _ => require (!statements.isEmpty) .emptyBlock
  | .conditional test _ _ _ => checkTest .conditional test
  | .loop _ _ continueTo => checkContinue continueTo
  | .attempt _ handlers fault finalizer =>
    require (!handlers.isEmpty || fault.isSome || finalizer.isSome) .emptyTry
  | .listInit created _ | .memberInit created _ => require created.isNew (.notNew created.kind)
  | .forLoop counter start test _ _ _ continueTo => do
    checkContinue continueTo
    checkAssignable counter.type start.type
    checkTest .loop test
  | .forEach _ source _ _ continueTo => do
    checkContinue continueTo
    require source.type.isIterable (.notEnumerable source.type)
  | .whileLoop test _ _ continueTo | .doWhile _ test _ continueTo => do
    checkContinue continueTo
    checkTest .loop test
  | .usingBlock resource _ => require resource.type.isDisposable (.notDisposable resource.type)
  | _ => .ok ()

namespace Build

/-- An identity that was never drawn before. -/
def fresh : Build Identity := fun next => .ok (next, next + 1)

/-- A new parameter. -/
def parameter (type : Ty) (name : Option String) : Build Parameter :=
  return ⟨← fresh, name, type⟩

/-- A new label. -/
def label (type : Ty) (name : Option String) : Build Label :=
  return ⟨← fresh, name, type⟩

/-- A new parameter that looks the same. -/
def copyOf (p : Parameter) : Build Parameter := parameter p.type p.name

/-- A new node, its parts unchecked. -/
def unchecked (node : Node) : Build Expr :=
  return ⟨← fresh, node⟩

/-- A new node, if its parts pass the checks. -/
def checked (node : Node) : Build Expr := do
  node.check
  unchecked node

end Build

end ExprTree

import ExprTree.Member
import ExprTree.Operator
import ExprTree.Value.Basic

/-!
Expression trees.

An expression is a node together with its identity: two expressions are the same node when their
identities are, however alike they look. Parameters and labels are identities too; their names are
for readers only.
-/

namespace ExprTree

/-- Identities of parameters, labels and nodes. -/
abbrev Identity := Nat

/-- A parameter or block variable. -/
structure Parameter where
  id : Identity
  name : Option String
  type : Ty
deriving DecidableEq

/-- The target of a jump. A jump to a label of a type other than void carries a value. -/
structure Label where
  id : Identity
  name : Option String
  type : Ty
deriving DecidableEq

/-- Whether two parameters are the same one. -/
def Parameter.same (p q : Parameter) : Bool := p.id == q.id

/-- Whether two labels are the same one. -/
def Label.same (l m : Label) : Bool := l.id == m.id

mutual

/-- A node with its identity. -/
structure Expr where
  id : Identity
  node : Node

/-- What a node is made of. The last five are derived: lowering expresses them by the others. -/
inductive Node where
  | constant (value : Value) (type : Ty)
  | parameter (p : Parameter)
  | default (type : Ty)
  | lambda (l : Lambda)
  | unary (op : UnaryOp) (operand : Expr) (type : Ty)
  | binary (op : BinaryOp) (left right : Expr) (assign checked : Bool) (type : Ty)
  | typeTest (op : TypeOp) (operand : Expr) (tested : Ty)
  | block (locals : List Parameter) (statements : List Expr) (type : Ty)
  | conditional (test ifTrue : Expr) (ifFalse : Option Expr) (type : Ty)
  | loop (body : Expr) (breakTo continueTo : Option Label)
  | jump (kind : JumpKind) (target : Label) (value : Option Expr)
  | label (target : Label) (fallback : Option Expr)
  | switch (value : Expr) (cases : List SwitchCase) (fallback : Option Expr) (type : Ty)
  | attempt (body : Expr) (handlers : List Handler) (fault finalizer : Option Expr)
  | create (type : Ty) (arguments : List Expr)
  | newArray (form : ArrayForm) (type : Ty) (items : List Expr)
  | listInit (created : Expr) (initializers : List ElementInit)
  | memberInit (created : Expr) (bindings : List Binding)
  | call (target : Option Expr) (method : Method) (arguments : List Expr)
  | member (target : Option Expr) (accessed : Member)
  | invocation (target : Expr) (arguments : List Expr) (type : Ty)
  | index (target : Expr) (arguments : List Expr) (type : Ty)
  | forLoop (counter : Parameter) (start test step body : Expr) (breakTo continueTo : Option Label)
  | forEach (item : Parameter) (source body : Expr) (breakTo continueTo : Option Label)
  | whileLoop (test body : Expr) (breakTo continueTo : Option Label)
  | doWhile (body test : Expr) (breakTo continueTo : Option Label)
  | usingBlock (resource body : Expr)

/-- A lambda, as the root of a tree or as a node of another. -/
structure Lambda where
  name : Option String
  parameters : List Parameter
  body : Expr
  returns : Ty

/-- A case of a switch: the values it is taken for, and what it does. -/
structure SwitchCase where
  tests : List Expr
  body : Expr

/-- A catch block: the type of exception it takes, the variable that holds it, if any, and a
further condition. -/
structure Handler where
  tested : Ty
  caught : Option Parameter
  filter : Option Expr
  body : Expr

/-- One call of a collection's method that adds an element. -/
structure ElementInit where
  method : Method
  arguments : List Expr

/-- How an object initializer fills a member: with a value, by adding elements to it, or by filling
its own members. -/
inductive Binding where
  | assignment (filled : Member) (value : Expr)
  | elements (filled : Member) (initializers : List ElementInit)
  | members (filled : Member) (nested : List Binding)

end

/-- Whether two expressions are the very same node. -/
def Expr.same (a b : Expr) : Bool := a.id == b.id

/-- The member that a binding fills. -/
def Binding.filled : Binding → Member
  | .assignment m _ | .elements m _ | .members m _ => m

/-- The type of a lambda as a value. -/
def Lambda.type (l : Lambda) : Ty := .delegate (l.parameters.map (·.type)) l.returns

/-! ### Static types -/

/-- The type that a loop's break label gives it. -/
def Label.typeOrVoid (l : Option Label) : Ty := (l.map Label.type).getD .void

mutual

/-- The static type of an expression: void for statements. -/
def Expr.type : Expr → Ty
  | ⟨_, node⟩ => node.type
termination_by structural e => e

/-- The static type of a node. -/
def Node.type : Node → Ty
  | .constant _ t | .default t => t
  | .parameter p => p.type
  | .lambda l => l.type
  | .unary _ _ t | .binary _ _ _ _ _ t => t
  | .typeTest .. => .boolean
  | .block _ _ t | .conditional _ _ _ t => t
  | .loop _ breakTo _ => Label.typeOrVoid breakTo
  | .jump .. => .void
  | .label target _ => target.type
  | .switch _ _ _ t => t
  | .attempt body .. => body.type
  | .create t _ | .newArray _ t _ => t
  | .listInit created _ | .memberInit created _ => created.type
  | .call _ method _ => method.returns
  | .member _ accessed => accessed.type
  | .invocation _ _ t | .index _ _ t => t
  | .forLoop _ _ _ _ _ breakTo _ | .forEach _ _ _ breakTo _
  | .whileLoop _ _ breakTo _ | .doWhile _ _ breakTo _ => Label.typeOrVoid breakTo
  | .usingBlock _ body => body.type
termination_by structural n => n

end

end ExprTree

import ExprTree.Build.Basic

/-!
The nodes that can be built, with the static type that each takes from its parts.
-/

namespace ExprTree

/-- A lambda that returns what its body produces. -/
def Lambda.of (parameters : List Parameter) (body : Expr) : Lambda :=
  ⟨none, parameters, body, body.type⟩

/-- The same lambda over another body. -/
def Lambda.withBody (l : Lambda) (body : Expr) : Lambda := { l with body }

/-- The static type of a binary operation on the given left operand. -/
def BinaryOp.resultType (op : BinaryOp) (left : Ty) (assign : Bool) : Ty :=
  match op with
  | .andAlso | .orElse => .boolean
  | .arrayIndex => left.element?.getD .object
  | .power => if assign then left else .double
  | _ => if op.isComparison then .boolean else left

/-- The static type of a unary operation that does not name its type. -/
def UnaryOp.resultType (op : UnaryOp) (operand : Ty) : Ty :=
  match op with
  | .arrayLength => .int32
  | .throw => .void
  | .isTrue | .isFalse => .boolean
  | _ => operand

/-- The static type of a switch: that of its first case, or else of its default. -/
def SwitchCase.resultType (cases : List SwitchCase) (fallback : Option Expr) : Ty :=
  match cases with
  | c :: _ => c.body.type
  | [] => (fallback.map Expr.type).getD .void

/-- What invoking a delegate of the given type produces: a `Func` its last type argument, anything
else nothing. -/
def Ty.invocationResult : Ty → Ty
  | .named d => if d.name = "Func" then d.arguments.getLast?.getD .void else .void
  | _ => .void

namespace Build

/-! ### Leaves -/

def constantTyped (type : Ty) (value : Value) : Build Expr := checked (.constant value type)

/-- A constant of the type of its value. -/
def constant (value : Value) : Build Expr := constantTyped value.typeOf value

def null (type : Ty) : Build Expr := constantTyped type .null

/-- A 32-bit integer constant. -/
def int (i : Int) : Build Expr := constant (.int32 i)

/-- A node that reads a parameter. -/
def read (p : Parameter) : Build Expr := checked (.parameter p)

def defaultOf (type : Ty) : Build Expr := checked (.default type)

def lambda (l : Lambda) : Build Expr := checked (.lambda l)

/-! ### Operators -/

/-- A unary operation of a given type. -/
def unaryTyped (op : UnaryOp) (operand : Expr) (type : Ty) : Build Expr :=
  unchecked (.unary op operand type)

/-- A unary operation of the type that its operator gives it. -/
def unary (op : UnaryOp) (operand : Expr) : Build Expr :=
  checked (.unary op operand (op.resultType operand.type))

def convert (operand : Expr) (type : Ty) : Build Expr := unaryTyped .convert operand type

/-- A lambda as a value that is a tree. -/
def quote (l : Lambda) : Build Expr := do
  unaryTyped .quote (← lambda l) l.type

/-- A binary operation, with its flags for compound assignment and for overflow checks. -/
def binaryWith (op : BinaryOp) (left right : Expr) (assign check : Bool) : Build Expr :=
  checked (.binary op left right assign check (op.resultType left.type assign))

/-- A binary operation without assignment and without overflow checks. -/
def binary (op : BinaryOp) (left right : Expr) : Build Expr := binaryWith op left right false false

def assign (target value : Expr) : Build Expr := binary .assign target value

def typeTest (op : TypeOp) (operand : Expr) (tested : Ty) : Build Expr :=
  checked (.typeTest op operand tested)

/-! ### Statements -/

def blockTyped (type : Ty) (locals : List Parameter) (statements : List Expr) : Build Expr :=
  checked (.block locals statements type)

/-- A block of the type of its last statement. -/
def block (locals : List Parameter) (statements : List Expr) : Build Expr :=
  blockTyped ((statements.getLast?.map Expr.type).getD .void) locals statements

def conditionalTyped (type : Ty) (test ifTrue : Expr) (ifFalse : Option Expr) : Build Expr :=
  checked (.conditional test ifTrue ifFalse type)

/-- A choice between two values of one type. -/
def conditional (test ifTrue ifFalse : Expr) : Build Expr := do
  require (ifTrue.type = ifFalse.type) (.branchMismatch ifTrue.type ifFalse.type)
  conditionalTyped ifTrue.type test ifTrue (some ifFalse)

def ifThen (test ifTrue : Expr) : Build Expr := conditionalTyped .void test ifTrue none

def ifThenElse (test ifTrue ifFalse : Expr) : Build Expr :=
  conditionalTyped .void test ifTrue (some ifFalse)

/-- A loop that only its break label leaves. -/
def loop (body : Expr) (breakTo continueTo : Option Label) : Build Expr :=
  checked (.loop body breakTo continueTo)

def jump (kind : JumpKind) (target : Label) (value : Option Expr) : Build Expr :=
  checked (.jump kind target value)

def breakTo (target : Label) : Build Expr := jump .breaking target none

def continueTo (target : Label) : Build Expr := jump .continuing target none

def goto (target : Label) : Build Expr := jump .goto target none

/-- The place that jumps to the label go to, and its value when it is reached without a jump. -/
def labelAt (target : Label) (fallback : Option Expr) : Build Expr :=
  checked (.label target fallback)

def switch (value : Expr) (cases : List SwitchCase) (fallback : Option Expr) : Build Expr :=
  checked (.switch value cases fallback (SwitchCase.resultType cases fallback))

def attempt (body : Expr) (handlers : List Handler) (fault finalizer : Option Expr) : Build Expr :=
  checked (.attempt body handlers fault finalizer)

def tryFinally (body finalizer : Expr) : Build Expr := attempt body [] none (some finalizer)

/-! ### Objects -/

def create (type : Ty) (arguments : List Expr) : Build Expr := checked (.create type arguments)

/-- A vector of the given elements. -/
def vector (element : Ty) (items : List Expr) : Build Expr :=
  checked (.newArray .elements (.vector element) items)

/-- An array with one dimension for each length. -/
def arrayOfBounds (element : Ty) (bounds : List Expr) : Build Expr :=
  checked (.newArray .bounds (.arrayOfRank element bounds.length) bounds)

def listInit (created : Expr) (initializers : List ElementInit) : Build Expr :=
  checked (.listInit created initializers)

def memberInit (created : Expr) (bindings : List Binding) : Build Expr :=
  checked (.memberInit created bindings)

def call (target : Expr) (method : Method) (arguments : List Expr) : Build Expr :=
  checked (.call (some target) method arguments)

def callStatic (method : Method) (arguments : List Expr) : Build Expr :=
  checked (.call none method arguments)

def member (target : Expr) (accessed : Member) : Build Expr :=
  checked (.member (some target) accessed)

def memberStatic (accessed : Member) : Build Expr := checked (.member none accessed)

def invoke (target : Expr) (arguments : List Expr) : Build Expr :=
  checked (.invocation target arguments target.type.invocationResult)

def index (target : Expr) (arguments : List Expr) (type : Ty) : Build Expr :=
  checked (.index target arguments type)

/-! ### Derived nodes -/

def forLoop (counter : Parameter) (start test step body : Expr)
    (breakTo continueTo : Option Label) : Build Expr :=
  checked (.forLoop counter start test step body breakTo continueTo)

def forEach (item : Parameter) (source body : Expr) (breakTo continueTo : Option Label) :
    Build Expr :=
  checked (.forEach item source body breakTo continueTo)

def whileLoop (test body : Expr) (breakTo continueTo : Option Label) : Build Expr :=
  checked (.whileLoop test body breakTo continueTo)

def doWhile (body test : Expr) (breakTo continueTo : Option Label) : Build Expr :=
  checked (.doWhile body test breakTo continueTo)

def usingBlock (resource body : Expr) : Build Expr := checked (.usingBlock resource body)

end Build

end ExprTree

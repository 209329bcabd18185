import ExprTree.Eval.Arithmetic
import ExprTree.Eval.Control
import ExprTree.Eval.Object
import ExprTree.Lowering

/-!
Evaluation of trees.

`Eval.run` evaluates an expression within some fuel. Fuel bounds the depth of evaluation and the
length of every loop; more of it never changes a result.
-/

namespace ExprTree

namespace Eval

section

variable (host : Host) (run : Expr → Eval Value)

/-! ### Calls -/

/-- Call a lambda in the present frame. What it leaves undone, a jump or an exception, is a
failure. -/
def invokeWith (l : Lambda) (arguments : List Value) : Eval Value := do
  if arguments.length ≠ l.parameters.length then
    fail (.argumentCount l.parameters.length arguments.length)
  else
    let body ← build l.body.lower
    (withVariables (l.parameters.zip arguments) (run body)).concluded

/-- Call a closure, in the frame it was made in. -/
def applyWith (l : Lambda) (frame : Frame) (arguments : List Value) : Eval Value :=
  inFrame frame (invokeWith run l arguments)

/-- Call a static method: a function that the host defined, or `Math.Pow`. -/
def callStatic (m : Method) (arguments : List Value) : Eval Value := do
  let missing : Failure := .missingMember m.declaring m.name
  match (← get).frame.functions.lookup (m.declaring.text ++ "." ++ m.name) with
  | some handle => ask host (.function handle arguments) missing
  | none =>
    match arguments with
    | [x, y] => if m = .pow then Value.power x y else fail missing
    | _ => fail missing

/-- Call a method on what a target gives, or on its type. -/
def runCall (target : Option Expr) (m : Method) (arguments : List Expr) : Eval Value := do
  match target with
  | some target =>
    let receiver ← run target
    callOn host (applyWith run) receiver m (← runAll run arguments)
  | none => callStatic host m (← runAll run arguments)

/-- A lambda as a value: it sees the locals as they are now. -/
def newClosure (l : Lambda) : Eval Value := do
  newObject l.type (.closure l (← get).frame)

/-! ### Storing -/

/-- Store a value to the place that an expression names. -/
def store (target : Expr) (v : Value) : Eval Unit := do
  match target.node with
  | .parameter p => assign p v
  | .member (some receiver) m => memberSet host (← run receiver) m v
  | .binary .arrayIndex left right _ _ _ =>
    let array ← run left
    arraySet array (← run right) v
  | .index receiver arguments _ =>
    let object ← run receiver
    indexSet host (applyWith run) object (← runAll run arguments) v
  | _ => fail (.unsupported target.kind)

/-! ### Operators -/

/-- Read a place, store what the operator makes of it, and give back the new value or the old. -/
def runStep (op : UnaryOp) (operand : Expr) (givesNew : Bool) : Eval Value := do
  let current ← run operand
  let updated ← Value.unary op current
  store host run operand updated
  return if givesNew then updated else current

def runUnary (op : UnaryOp) (operand : Expr) (type : Ty) : Eval Value := do
  match op with
  | .quote => run operand
  | .throw =>
    let exception ← run operand
    if exception.isNull then fail .nullReference else throwing exception
  | .preIncrementAssign | .preDecrementAssign => runStep host run op operand true
  | .postIncrementAssign | .postDecrementAssign => runStep host run op operand false
  | .arrayLength =>
    let array ← run operand
    memberGet host array (.length array.typeOf)
  | .typeAs => return (← run operand).castOrNull type
  | .convert | .unbox => (← run operand).convert type false
  | .convertChecked => (← run operand).convert type true
  | _ => Value.unary op (← run operand)

def runBinary (op : BinaryOp) (left right : Expr) (assign checked : Bool) : Eval Value := do
  match op with
  | .assign =>
    let v ← run right
    store host run left v
    return v
  | .andAlso =>
    if ← truth (← run left) then return .boolean (← truth (← run right)) else return .boolean false
  | .orElse =>
    if ← truth (← run left) then return .boolean true else return .boolean (← truth (← run right))
  | .coalesce =>
    let v ← run left
    if v.isNull then run right else return v
  | .arrayIndex =>
    let array ← run left
    arrayGet array (← run right)
  | _ =>
    let a ← run left
    let b ← run right
    let v ← Value.binary op a b checked
    if assign then store host run left v
    return v

/-! ### Objects -/

/-- A new object. A struct is the default of its type; there are no constructors with arguments. -/
def runCreate (type : Ty) (arguments : List Expr) : Eval Value :=
  if !arguments.isEmpty then fail (.unsupported .create)
  else if type.isValueType then return .defaultOf type
  else newInstance type

/-- A new array, of its elements or of one length. -/
def runNewArray (form : ArrayForm) (type : Ty) (items : List Expr) : Eval Value := do
  let element := type.element?.getD .object
  let values ← runAll run items
  match form, values with
  | .elements, _ => newArray element values.toArray
  | .bounds, [length] =>
    let n := length.integer?.getD (-1)
    if n < 0 then fail .overflow
    else newArray element (Array.replicate n.toNat (.defaultOf element))
  | .bounds, _ => fail (.unsupported (.newArray .bounds))

/-- Add elements to a collection. -/
def addAll (object : Value) : List ElementInit → Eval Unit
  | [] => return ()
  | i :: is => do
    discard (callOn host (applyWith run) object i.method (← runAll run i.arguments))
    addAll object is

mutual

/-- Fill one member of an object. -/
def fill (object : Value) : Binding → Eval Unit
  | .assignment m value => do memberSet host object m (← run value)
  | .elements m initializers => do addAll host run (← memberGet host object m) initializers
  | .members m nested => do fillAll (← memberGet host object m) nested
termination_by structural b => b

/-- Fill members of an object in order. -/
def fillAll (object : Value) : List Binding → Eval Unit
  | [] => return ()
  | b :: bs => do
    fill object b
    fillAll object bs
termination_by structural bs => bs

end

/-! ### Nodes -/

/-- Evaluate one node, given how to evaluate others and how far loops may go. -/
def runNode (fuel : Nat) (e : Expr) : Eval Value := do
  match e.node with
  | .constant v _ => return v
  | .parameter p => load p
  | .default type => return .defaultOf type
  | .lambda l => newClosure l
  | .unary op operand type => runUnary host run op operand type
  | .binary op left right assign checked _ => runBinary host run op left right assign checked
  | .typeTest op operand tested => return .boolean ((← run operand).passes op tested)
  | .block locals statements type => runBlock run fuel locals statements type
  | .conditional test ifTrue ifFalse _ =>
    if ← truth (← run test) then run ifTrue
    else
      match ifFalse with
      | some ifFalse => run ifFalse
      | none => return .void
  | .loop body breakTo continueTo => runLoop run body breakTo continueTo fuel
  | .jump _ target value =>
    match value with
    | some value => jump target (← run value)
    | none => jump target .void
  | .label _ fallback =>
    match fallback with
    | some fallback => run fallback
    | none => return .void
  | .switch value cases fallback _ => runCases run (← run value) fallback cases
  | .attempt body handlers fault finalizer => runAttempt run body handlers fault finalizer
  | .create type arguments => runCreate type arguments
  | .newArray form type items => runNewArray run form type items
  | .listInit created initializers =>
    let object ← run created
    addAll host run object initializers
    return object
  | .memberInit created bindings =>
    let object ← run created
    fillAll host run object bindings
    return object
  | .call target m arguments => runCall host run target m arguments
  | .member (some target) m => memberGet host (← run target) m
  | .member none m => fail (.missingMember m.declaring m.name)
  | .invocation target arguments type =>
    let receiver ← run target
    callOn host (applyWith run) receiver (.ofInstance receiver.typeOf "Invoke" [] type)
      (← runAll run arguments)
  | .index target arguments type =>
    let receiver ← run target
    indexGet host (applyWith run) receiver (← runAll run arguments) type
  | .forLoop .. | .forEach .. | .whileLoop .. | .doWhile .. | .usingBlock .. =>
    run (← build e.reduce)

end

/-- Evaluate an expression within some fuel. -/
def run (host : Host) : Nat → Expr → Eval Value
  | 0, _ => outOfFuel
  | fuel + 1, e => runNode host (run host fuel) fuel e

end Eval

/-- Call a lambda with arguments, within some fuel. -/
def Lambda.invoke (l : Lambda) (host : Host) (fuel : Nat) (arguments : List Value) : Eval Value :=
  Eval.invokeWith (Eval.run host fuel) l arguments

/-- Evaluate an expression with the locals that are in scope, within some fuel. -/
def Expr.evaluate (e : Expr) (host : Host) (fuel : Nat) : Eval Value := do
  let lowered ← Eval.build e.lower
  (Eval.run host fuel lowered).concluded

end ExprTree

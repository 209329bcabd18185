import ExprTree.Expr.Basic

/-!
The parts of a node: its child expressions and the parameters it mentions itself.

`Node.children` lists the children in source order. `Node.traverse` visits them in that order, with
the parameters where they stand among them, and puts the results in their places. `Expr.height`
bounds recursion over a tree, and `Expr.recurse` uses it: a function of trees is given by one step
that may ask for its value on smaller trees.
-/

namespace ExprTree

/-! ### Children -/

mutual

/-- The expressions in a binding. -/
def Binding.children : Binding → List Expr
  | .assignment _ value => [value]
  | .elements _ initializers => initializers.flatMap ElementInit.arguments
  | .members _ nested => Binding.childrenList nested
termination_by structural b => b

def Binding.childrenList : List Binding → List Expr
  | [] => []
  | b :: bs => b.children ++ Binding.childrenList bs
termination_by structural bs => bs

end

/-- The child expressions of a node, in source order. -/
def Node.children : Node → List Expr
  | .constant .. | .parameter _ | .default _ => []
  | .lambda l => [l.body]
  | .unary _ operand _ => [operand]
  | .binary _ left right _ _ _ => [left, right]
  | .typeTest _ operand _ => [operand]
  | .block _ statements _ => statements
  | .conditional test ifTrue ifFalse _ => test :: ifTrue :: ifFalse.toList
  | .loop body _ _ => [body]
  | .jump _ _ value => value.toList
  | .label _ fallback => fallback.toList
  | .switch value cases fallback _ =>
    value :: cases.flatMap (fun c => c.tests ++ [c.body]) ++ fallback.toList
  | .attempt body handlers fault finalizer =>
    body :: handlers.flatMap (fun h => h.filter.toList ++ [h.body]) ++
      fault.toList ++ finalizer.toList
  | .create _ arguments => arguments
  | .newArray _ _ items => items
  | .listInit created initializers => created :: initializers.flatMap ElementInit.arguments
  | .memberInit created bindings => created :: Binding.childrenList bindings
  | .call target _ arguments => target.toList ++ arguments
  | .member target _ => target.toList
  | .invocation target arguments _ => target :: arguments
  | .index target arguments _ => target :: arguments
  | .forLoop _ start test step body _ _ => [start, test, step, body]
  | .forEach _ source body _ _ => [source, body]
  | .whileLoop test body _ _ => [test, body]
  | .doWhile body test _ _ => [body, test]
  | .usingBlock resource body => [resource, body]

/-- The child expressions, in source order. -/
def Expr.children (e : Expr) : List Expr := e.node.children

/-- The parameters that a node mentions itself: the one it reads, or those it binds. -/
def Node.parameters : Node → List Parameter
  | .parameter p => [p]
  | .lambda l => l.parameters
  | .block locals _ _ => locals
  | .attempt _ handlers _ _ => handlers.filterMap Handler.caught
  | .forLoop counter .. => [counter]
  | .forEach item .. => [item]
  | _ => []

/-! ### Traversal -/

section

variable {m : Type → Type} [Monad m] (visit : Expr → m Expr) (rename : Parameter → m Parameter)

def SwitchCase.traverse (c : SwitchCase) : m SwitchCase := do
  return ⟨← c.tests.mapM visit, ← visit c.body⟩

def Handler.traverse (h : Handler) : m Handler := do
  return ⟨h.tested, ← h.caught.mapM rename, ← h.filter.mapM visit, ← visit h.body⟩

def ElementInit.traverse (i : ElementInit) : m ElementInit := do
  return ⟨i.method, ← i.arguments.mapM visit⟩

mutual

def Binding.traverse : Binding → m Binding
  | .assignment filled value => return .assignment filled (← visit value)
  | .elements filled initializers =>
    return .elements filled (← initializers.mapM (ElementInit.traverse visit))
  | .members filled nested => return .members filled (← Binding.traverseList nested)
termination_by structural b => b

def Binding.traverseList : List Binding → m (List Binding)
  | [] => return []
  | b :: bs => return (← Binding.traverse b) :: (← Binding.traverseList bs)
termination_by structural bs => bs

end

/-- Visit the children and rename the parameters in source order, and put the results in their
places. -/
def Node.traverse : Node → m Node
  | .constant value t => return .constant value t
  | .parameter p => return .parameter (← rename p)
  | .default t => return .default t
  | .lambda l =>
    return .lambda ⟨l.name, ← l.parameters.mapM rename, ← visit l.body, l.returns⟩
  | .unary op operand t => return .unary op (← visit operand) t
  | .binary op left right assign checked t =>
    return .binary op (← visit left) (← visit right) assign checked t
  | .typeTest op operand tested => return .typeTest op (← visit operand) tested
  | .block locals statements t =>
    return .block (← locals.mapM rename) (← statements.mapM visit) t
  | .conditional test ifTrue ifFalse t =>
    return .conditional (← visit test) (← visit ifTrue) (← ifFalse.mapM visit) t
  | .loop body breakTo continueTo => return .loop (← visit body) breakTo continueTo
  | .jump kind target value => return .jump kind target (← value.mapM visit)
  | .label target fallback => return .label target (← fallback.mapM visit)
  | .switch value cases fallback t =>
    return .switch (← visit value) (← cases.mapM (SwitchCase.traverse visit))
      (← fallback.mapM visit) t
  | .attempt body handlers fault finalizer =>
    return .attempt (← visit body) (← handlers.mapM (Handler.traverse visit rename))
      (← fault.mapM visit) (← finalizer.mapM visit)
  | .create t arguments => return .create t (← arguments.mapM visit)
  | .newArray form t items => return .newArray form t (← items.mapM visit)
  | .listInit created initializers =>
    return .listInit (← visit created) (← initializers.mapM (ElementInit.traverse visit))
  | .memberInit created bindings =>
    return .memberInit (← visit created) (← Binding.traverseList visit bindings)
  | .call target method arguments =>
    return .call (← target.mapM visit) method (← arguments.mapM visit)
  | .member target accessed => return .member (← target.mapM visit) accessed
  | .invocation target arguments t =>
    return .invocation (← visit target) (← arguments.mapM visit) t
  | .index target arguments t => return .index (← visit target) (← arguments.mapM visit) t
  | .forLoop counter start test step body breakTo continueTo =>
    return .forLoop (← rename counter) (← visit start) (← visit test) (← visit step)
      (← visit body) breakTo continueTo
  | .forEach item source body breakTo continueTo =>
    return .forEach (← rename item) (← visit source) (← visit body) breakTo continueTo
  | .whileLoop test body breakTo continueTo =>
    return .whileLoop (← visit test) (← visit body) breakTo continueTo
  | .doWhile body test breakTo continueTo =>
    return .doWhile (← visit body) (← visit test) breakTo continueTo
  | .usingBlock resource body => return .usingBlock (← visit resource) (← visit body)

end

/-! ### Height -/

mutual

/-- The number of nodes on the longest way down, this node included. -/
def Expr.height : Expr → Nat
  | ⟨_, node⟩ => node.height + 1
termination_by structural e => e

/-- The height of the tallest child, and 0 for a node without children. -/
def Node.height : Node → Nat
  | .constant .. | .parameter _ | .default _ => 0
  | .lambda l => l.height
  | .unary _ operand _ => operand.height
  | .binary _ left right _ _ _ => max left.height right.height
  | .typeTest _ operand _ => operand.height
  | .block _ statements _ => Expr.heightList statements
  | .conditional test ifTrue ifFalse _ =>
    max test.height (max ifTrue.height (Expr.heightOption ifFalse))
  | .loop body _ _ => body.height
  | .jump _ _ value => Expr.heightOption value
  | .label _ fallback => Expr.heightOption fallback
  | .switch value cases fallback _ =>
    max value.height (max (SwitchCase.heightList cases) (Expr.heightOption fallback))
  | .attempt body handlers fault finalizer =>
    max (max body.height (Handler.heightList handlers))
      (max (Expr.heightOption fault) (Expr.heightOption finalizer))
  | .create _ arguments => Expr.heightList arguments
  | .newArray _ _ items => Expr.heightList items
  | .listInit created initializers => max created.height (ElementInit.heightList initializers)
  | .memberInit created bindings => max created.height (Binding.heightList bindings)
  | .call target _ arguments => max (Expr.heightOption target) (Expr.heightList arguments)
  | .member target _ => Expr.heightOption target
  | .invocation target arguments _ => max target.height (Expr.heightList arguments)
  | .index target arguments _ => max target.height (Expr.heightList arguments)
  | .forLoop _ start test step body _ _ =>
    max (max start.height test.height) (max step.height body.height)
  | .forEach _ source body _ _ => max source.height body.height
  | .whileLoop test body _ _ => max test.height body.height
  | .doWhile body test _ _ => max body.height test.height
  | .usingBlock resource body => max resource.height body.height
termination_by structural n => n

def Lambda.height : Lambda → Nat
  | ⟨_, _, body, _⟩ => body.height
termination_by structural l => l

def SwitchCase.height : SwitchCase → Nat
  | ⟨tests, body⟩ => max (Expr.heightList tests) body.height
termination_by structural c => c

def Handler.height : Handler → Nat
  | ⟨_, _, filter, body⟩ => max (Expr.heightOption filter) body.height
termination_by structural h => h

def ElementInit.height : ElementInit → Nat
  | ⟨_, arguments⟩ => Expr.heightList arguments
termination_by structural i => i

def Binding.height : Binding → Nat
  | .assignment _ value => value.height
  | .elements _ initializers => ElementInit.heightList initializers
  | .members _ nested => Binding.heightList nested
termination_by structural b => b

def Expr.heightList : List Expr → Nat
  | [] => 0
  | e :: es => max e.height (Expr.heightList es)
termination_by structural es => es

def Expr.heightOption : Option Expr → Nat
  | none => 0
  | some e => e.height
termination_by structural e => e

def SwitchCase.heightList : List SwitchCase → Nat
  | [] => 0
  | c :: cs => max c.height (SwitchCase.heightList cs)
termination_by structural cs => cs

def Handler.heightList : List Handler → Nat
  | [] => 0
  | h :: hs => max h.height (Handler.heightList hs)
termination_by structural hs => hs

def ElementInit.heightList : List ElementInit → Nat
  | [] => 0
  | i :: is => max i.height (ElementInit.heightList is)
termination_by structural is => is

def Binding.heightList : List Binding → Nat
  | [] => 0
  | b :: bs => max b.height (Binding.heightList bs)
termination_by structural bs => bs

end

/-! ### Recursion over a tree -/

/-- Apply `step` down to the given depth, and `base` below it. -/
def Expr.within {α : Type} (base : Expr → α) (step : (Expr → α) → Expr → α) : Nat → Expr → α
  | 0 => base
  | depth + 1 => step (Expr.within base step depth)

/-- The function of trees that `step` describes, given the function itself for trees of which the
measure is smaller. It is the depth, so `base` is never asked when `step` keeps to these. -/
def Expr.recurseBy {α : Type} (measure : Expr → Nat) (base : Expr → α)
    (step : (Expr → α) → Expr → α) (e : Expr) : α :=
  Expr.within base step (measure e) e

/-- The function of trees that `step` describes, given the function itself for lower trees. -/
def Expr.recurse {α : Type} (base : Expr → α) (step : (Expr → α) → Expr → α) : Expr → α :=
  Expr.recurseBy Expr.height base step

end ExprTree

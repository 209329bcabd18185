import ExprTree.Expr.Walk
import ExprTree.Lowering.ForEach
import ExprTree.Lowering.Loop
import ExprTree.Lowering.Using

/-!
Lowering: loop-shaped nodes expressed by primitive ones.

`Expr.lower` replaces every derived node of a tree. What contains no derived node stays the very
same node.
-/

namespace ExprTree

/-- The primitive form of a derived node whose parts `lower` lowers, and any other node itself. -/
def Expr.reduceWith (lower : Expr → Build Expr) (e : Expr) : Build Expr :=
  match e.node with
  | .forLoop counter start test step body breakTo continueTo =>
    Lowering.forLoop lower counter start test step body breakTo continueTo
  | .forEach item source body breakTo continueTo =>
    Lowering.forEach lower item source body breakTo continueTo
  | .whileLoop test body breakTo continueTo =>
    Lowering.whileLoop lower test body breakTo continueTo
  | .doWhile body test breakTo continueTo => Lowering.doWhile lower body test breakTo continueTo
  | .usingBlock resource body => Lowering.usingBlock lower resource body
  | _ => return e

/-- Replace every derived node by its primitive form. -/
def Expr.lower : Expr → Build Expr :=
  Expr.recurse pure fun lower e =>
    if e.isDerived then e.reduceWith lower else e.walk lower pure

/-- The primitive form of a derived node, and any other node itself. -/
def Expr.reduce (e : Expr) : Build Expr := e.reduceWith Expr.lower

/-- Lower the body of a lambda. -/
def Lambda.lower (l : Lambda) : Build Lambda :=
  return l.withBody (← l.body.lower)

end ExprTree

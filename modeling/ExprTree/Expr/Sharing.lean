import ExprTree.Expr.Children
import ExprTree.Expr.Kind

/-!
What two trees share.
-/

namespace ExprTree

/-- Whether nodes of two trees are the very same, in the order of the first tree: below a shared
node nothing is listed, and below others only if they are of one kind with equally many children. -/
def Expr.sharing : Expr → Expr → List Bool :=
  Expr.recurse (fun _ _ => []) fun compare a b =>
    if a.same b then [true]
    else if a.kind = b.kind ∧ a.children.length = b.children.length then
      false :: (a.children.zip b.children).flatMap fun (x, y) => compare x y
    else [false]

end ExprTree

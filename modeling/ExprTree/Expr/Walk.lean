import ExprTree.Build.Basic
import ExprTree.Expr.Children

/-!
Passes over a tree that keep what they do not change.

A pass visits the children of a node and renames its parameters. When every child comes back as
the very same node and every parameter as the same parameter, the node itself is the result;
otherwise a new node is built around the results. Derived nodes are checked again when they are
built anew, other nodes are not.
-/

namespace ExprTree

/-- Whether two lists agree element by element under a comparison. -/
def pairwise {α : Type} (same : α → α → Bool) : List α → List α → Bool
  | [], [] => true
  | a :: as, b :: bs => same a b && pairwise same as bs
  | _, _ => false

/-- Whether two nodes have the very same children and the same parameters. -/
def Node.sameParts (a b : Node) : Bool :=
  pairwise Expr.same a.children b.children && pairwise Parameter.same a.parameters b.parameters

/-- A new node in place of another of its kind. -/
def Node.renewed (node : Node) : Build Expr :=
  if node.kind.isDerived then Build.checked node else Build.unchecked node

/-- One step of a pass: visit the children, rename the parameters, and keep the node if nothing
changed. -/
def Expr.walk {m : Type → Type} [Monad m] [MonadLiftT Build m] (visit : Expr → m Expr)
    (rename : Parameter → m Parameter) (e : Expr) : m Expr := do
  let node ← e.node.traverse visit rename
  if node.sameParts e.node then return e else node.renewed

/-- A pass over a whole tree: nodes that `replace` answers are replaced, and below any other node
the pass goes on. -/
def Expr.transform (replace : Expr → Option Expr) (rename : Parameter → Parameter) :
    Expr → Build Expr :=
  Expr.recurse pure fun visit e =>
    match replace e with
    | some replacement => return replacement
    | none => e.walk visit fun p => pure (rename p)

/-- Rename parameters throughout a tree, where they are read and where they are bound. -/
def Expr.rename (rename : Parameter → Parameter) : Expr → Build Expr :=
  Expr.transform (fun _ => none) rename

end ExprTree

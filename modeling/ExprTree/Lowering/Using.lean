import ExprTree.Lowering.Label

/-!
`using` as a block that disposes of its resource in the end.
-/

namespace ExprTree.Lowering

/-- `using`: the resource is evaluated first, and disposed of after the body unless it is null. -/
def usingBlock (lower : Expr → Build Expr) (resource body : Expr) : Build Expr := do
  let disposable ← Build.parameter .disposable (some "disposable")
  let lowered ← lower body
  let cleanup ← disposeUnlessNull disposable
  let resourceValue ← Build.convert (← lower resource) .disposable
  Build.blockTyped lowered.type [disposable]
    [← Build.assign (← Build.read disposable) resourceValue, ← Build.tryFinally lowered cleanup]

end ExprTree.Lowering

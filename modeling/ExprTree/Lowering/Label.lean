import ExprTree.Build.Node

/-!
Labels of lowered loops.
-/

namespace ExprTree.Lowering

/-- The label that the loop names, or a new one. -/
def labelOr (target : Option Label) (name : String) : Build Label :=
  match target with
  | some target => return target
  | none => Build.label .void (some name)

/-- The label that ends a lowered loop. A label that carries a value yields the default of its type
when the loop ends without a jump to it. -/
def closingLabel (target : Label) : Build Expr := do
  if target.type.isVoid then Build.labelAt target none
  else Build.labelAt target (some (← Build.defaultOf target.type))

/-- The labels of the endless loop inside a lowered loop: where it breaks to and where it
continues. -/
def innerLabels : Build (Label × Label) := do
  let innerBreak ← Build.label .void (some "inner_loop_break")
  let innerContinue ← Build.label .void (some "inner_loop_continue")
  return (innerBreak, innerContinue)

/-- The value, converted unless it is of the type already. -/
def converted (value : Expr) (type : Ty) : Build Expr :=
  if value.type = type then return value else Build.convert value type

/-- `if (disposable != null) disposable.Dispose();` -/
def disposeUnlessNull (disposable : Parameter) : Build Expr := do
  let isPresent ← Build.binary .notEqual (← Build.read disposable) (← Build.null .disposable)
  Build.ifThen isPresent (← Build.call (← Build.read disposable) .dispose [])

end ExprTree.Lowering

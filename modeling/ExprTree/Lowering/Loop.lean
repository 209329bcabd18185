import ExprTree.Lowering.Label

/-!
`for`, `while` and `do ... while` as endless loops with labels.

Each function takes `lower`, which lowers the parts of the loop.
-/

namespace ExprTree.Lowering

variable (lower : Expr → Build Expr)

/-- `for`: store the start value, then loop while the test holds. The continue label stands between
the body and the step. -/
def forLoop (counter : Parameter) (start test step body : Expr)
    (breakTo continueTo : Option Label) : Build Expr := do
  let (innerBreak, innerContinue) ← innerLabels
  let breakLabel ← labelOr breakTo "for_break"
  let continueLabel ← labelOr continueTo "for_continue"
  let round ← Build.blockTyped .void []
    [← lower body, ← Build.labelAt continueLabel none, ← lower step,
      ← Build.continueTo innerContinue]
  let choice ← Build.ifThenElse (← lower test) round (← Build.breakTo innerBreak)
  let looping ← Build.loop (← Build.blockTyped .void [] [choice])
    (some innerBreak) (some innerContinue)
  Build.blockTyped (Label.typeOrVoid breakTo) [counter]
    [← Build.assign (← Build.read counter) (← lower start), looping, ← closingLabel breakLabel]

/-- `while`: the continue label stands before the test. -/
def whileLoop (test body : Expr) (breakTo continueTo : Option Label) : Build Expr := do
  let (innerBreak, innerContinue) ← innerLabels
  let breakLabel ← labelOr breakTo "while_break"
  let continueLabel ← labelOr continueTo "while_continue"
  let round ← Build.blockTyped .void [] [← lower body, ← Build.continueTo innerContinue]
  let choice ← Build.ifThenElse (← lower test) round (← Build.breakTo innerBreak)
  let looping ← Build.loop
    (← Build.blockTyped .void [] [← Build.labelAt continueLabel none, choice])
    (some innerBreak) (some innerContinue)
  Build.blockTyped (Label.typeOrVoid breakTo) [] [looping, ← closingLabel breakLabel]

/-- `do ... while`: the continue label stands between the body and the test. -/
def doWhile (body test : Expr) (breakTo continueTo : Option Label) : Build Expr := do
  let (innerBreak, innerContinue) ← innerLabels
  let breakLabel ← labelOr breakTo "do_break"
  let continueLabel ← labelOr continueTo "do_continue"
  let choice ← Build.ifThenElse (← lower test) (← Build.continueTo innerContinue)
    (← Build.breakTo innerBreak)
  let looping ← Build.loop
    (← Build.blockTyped .void [] [← lower body, ← Build.labelAt continueLabel none, choice])
    (some innerBreak) (some innerContinue)
  Build.blockTyped (Label.typeOrVoid breakTo) [] [looping, ← closingLabel breakLabel]

end ExprTree.Lowering

import ExprTree.Lowering.Label

/-!
`foreach` over arrays, by index, and over everything else, by an enumerator.
-/

namespace ExprTree.Lowering

/-- How a source is enumerated: the type `GetEnumerator()` is called on, the enumerator that it
returns, and the type of the elements. -/
structure Protocol where
  receiver : Ty
  enumerator : Ty
  element : Ty
deriving DecidableEq

/-- The protocol for a source and a loop variable of the given types: the source's own
`GetEnumerator()` if it has one, else `IEnumerable<T>` if the variable can hold a `T`, else
`IEnumerable`. -/
def Protocol.resolve (source item : Ty) : Protocol :=
  match source.ownEnumerator? with
  | some enumerator => ⟨source, enumerator, enumerator.enumeratorElement?.getD .object⟩
  | none =>
    match source.enumerableElement? with
    | some element =>
      if item.assignableFrom element then
        ⟨.enumerableOf element, .enumeratorOf element, element⟩
      else ⟨.enumerable, .enumerator, .object⟩
    | none => ⟨.enumerable, .enumerator, .object⟩

/-- What runs when the loop is left: an enumerator that is known to be disposable is disposed of, a
struct that is not needs nothing, and anything else is asked then. -/
def disposal (enumerator : Parameter) : Build (Option Expr) := do
  if enumerator.type.isDisposable then
    return some (← Build.call (← Build.read enumerator) .dispose [])
  else if enumerator.type.isValueType then
    return none
  else
    let disposable ← Build.parameter .disposable (some "disposable")
    let check ← disposeUnlessNull disposable
    let asDisposable ← Build.unaryTyped .typeAs (← Build.read enumerator) .disposable
    return some (← Build.blockTyped .void [disposable]
      [← Build.assign (← Build.read disposable) asDisposable, check])

/-- A loop, followed by what runs when it is left, if anything. -/
def guardedBy (looping : Expr) : Option Expr → Build Expr
  | some cleanup => Build.tryFinally looping cleanup
  | none => return looping

variable (lower : Expr → Build Expr)

/-- `foreach` over a vector: an index runs over its elements. -/
def forEachIndexed (item : Parameter) (source body : Expr)
    (breakTo continueTo : Option Label) : Build Expr := do
  let (innerBreak, innerContinue) ← innerLabels
  let breakLabel ← labelOr breakTo "foreach_break"
  let continueLabel ← labelOr continueTo "foreach_continue"
  let array ← Build.parameter source.type (some "array")
  let index ← Build.parameter .int32 (some "index")
  let element ← Build.binary .arrayIndex (← Build.read array) (← Build.read index)
  let next ← Build.binary .add (← Build.read index) (← Build.int 1)
  let step ← Build.assign (← Build.read index) next
  let round ← Build.blockTyped .void []
    [← Build.assign (← Build.read item) (← converted element item.type), ← lower body,
      ← Build.labelAt continueLabel none, step, ← Build.continueTo innerContinue]
  let length ← Build.unary .arrayLength (← Build.read array)
  let test ← Build.binary .lessThan (← Build.read index) length
  let choice ← Build.ifThenElse test round (← Build.breakTo innerBreak)
  let looping ← Build.loop (← Build.blockTyped .void [] [choice])
    (some innerBreak) (some innerContinue)
  Build.blockTyped (Label.typeOrVoid breakTo) [array, index, item]
    [← Build.assign (← Build.read array) (← lower source),
      ← Build.assign (← Build.read index) (← Build.int 0), looping, ← closingLabel breakLabel]

/-- `foreach` by an enumerator, which is disposed of however the loop is left. -/
def forEachEnumerated (item : Parameter) (source body : Expr)
    (breakTo continueTo : Option Label) : Build Expr := do
  let protocol := Protocol.resolve source.type item.type
  let (innerBreak, innerContinue) ← innerLabels
  let breakLabel ← labelOr breakTo "foreach_break"
  let continueLabel ← labelOr continueTo "foreach_continue"
  let enumerator ← Build.parameter protocol.enumerator (some "enumerator")
  let enumeration ← Build.call (← converted (← lower source) protocol.receiver)
    (.getEnumerator protocol.receiver protocol.enumerator) []
  let current ← Build.member (← Build.read enumerator)
    (.current protocol.enumerator protocol.element)
  let round ← Build.blockTyped .void []
    [← Build.assign (← Build.read item) (← converted current item.type), ← lower body,
      ← Build.labelAt continueLabel none, ← Build.continueTo innerContinue]
  let test ← Build.call (← Build.read enumerator) (.moveNext protocol.enumerator) []
  let choice ← Build.ifThenElse test round (← Build.breakTo innerBreak)
  let looping ← Build.loop (← Build.blockTyped .void [] [choice])
    (some innerBreak) (some innerContinue)
  let guarded ← guardedBy looping (← disposal enumerator)
  Build.blockTyped (Label.typeOrVoid breakTo) [enumerator, item]
    [← Build.assign (← Build.read enumerator) enumeration, guarded, ← closingLabel breakLabel]

/-- `foreach`, by index if the source is a vector. -/
def forEach (item : Parameter) (source body : Expr) (breakTo continueTo : Option Label) :
    Build Expr :=
  if source.type.isArray && source.type.rank == 1 then
    forEachIndexed lower item source body breakTo continueTo
  else forEachEnumerated lower item source body breakTo continueTo

end ExprTree.Lowering

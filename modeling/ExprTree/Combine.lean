import ExprTree.Build.Node
import ExprTree.Expr.Walk
import ExprTree.Ty.Text

/-!
Lambdas made of other lambdas.

The bodies of the given lambdas are put on fresh copies of their parameters, so what is made of
them shares no parameter with where they came from.
-/

namespace ExprTree

/-- Why lambdas cannot be combined. -/
inductive CombineError where
  | arity (left right : Nat)
  | mismatch (position : Nat) (left right : Ty)
  | notUnary (found : Nat)
  | notPredicate (returns : Ty)
  | construction (error : BuildError)

/-- A short name for the cause, for programs that read it. -/
def CombineError.name : CombineError → String
  | .arity .. => "Arity"
  | .mismatch .. => "Mismatch"
  | .notUnary _ => "NotUnary"
  | .notPredicate _ => "NotPredicate"
  | .construction error => "Construction/" ++ error.name

def CombineError.message : CombineError → String
  | .arity left right =>
    "lambdas take " ++ toString left ++ " and " ++ toString right ++ " parameters"
  | .mismatch position left right =>
    "parameter " ++ toString position ++ " is " ++ left.text ++ " in one lambda and " ++
      right.text ++ " in the other"
  | .notUnary found =>
    "expected a lambda with a single parameter, found " ++ toString found
  | .notPredicate returns => "expected a lambda returning bool, found " ++ returns.text
  | .construction error => error.message

/-- Computations that draw identities and may refuse to combine. -/
abbrev Combine := StateT Supply (Except CombineError)

instance : MonadLift Build Combine where
  monadLift build supply := (build supply).mapError .construction

/-- Refuse to combine. -/
def Combine.refuse {α : Type} (e : CombineError) : Combine α := fun _ => .error e

/-- A condition that must hold, and what to report when it does not. -/
def Combine.ensure (condition : Bool) (e : CombineError) : Combine Unit :=
  if condition then pure () else .refuse e

/-- The parameter that takes the place of another: the partner of the first one that is it. -/
def substitute (mapping : List (Parameter × Parameter)) (p : Parameter) : Parameter :=
  match mapping.find? fun pair => pair.1.same p with
  | some pair => pair.2
  | none => p

namespace Lambda

/-- New parameters that look like those of the lambda. -/
def freshParameters (l : Lambda) : Build (List Parameter) := l.parameters.mapM Build.copyOf

/-- The body of the lambda on other parameters. -/
def bodyOn (l : Lambda) (parameters : List Parameter) : Build Expr :=
  l.body.rename (substitute (l.parameters.zip parameters))

/-- The first position from `position` on at which two lists of parameters differ in type. -/
def mismatch? (position : Nat) : List Parameter → List Parameter → Option CombineError
  | p :: ps, q :: qs =>
    if p.type = q.type then mismatch? (position + 1) ps qs
    else some (.mismatch position p.type q.type)
  | _, _ => none

/-- Two lambdas are compatible if they take equally many parameters of the same types. -/
def checkCompatible (first second : Lambda) : Combine Unit :=
  if first.parameters.length ≠ second.parameters.length then
    .refuse (.arity first.parameters.length second.parameters.length)
  else
    match mismatch? 0 first.parameters second.parameters with
    | some e => .refuse e
    | none => pure ()

section

variable {m : Type → Type} [Monad m] [MonadLiftT Combine m]

/-- A lambda over copies of the parameters, with what `combinator` makes of the body. -/
def combine (l : Lambda) (combinator : Expr → m Expr) : m Lambda := do
  let opened : Combine (List Parameter × Expr) := do
    let parameters ← l.freshParameters
    return (parameters, ← l.bodyOn parameters)
  let (parameters, body) ← opened
  return .of parameters (← combinator body)

/-- A lambda over one set of copies of the parameters, with what `combinator` makes of both
bodies. -/
def combineWith (first second : Lambda) (combinator : Expr → Expr → m Expr) : m Lambda := do
  let opened : Combine (List Parameter × Expr × Expr) := do
    checkCompatible first second
    let parameters ← first.freshParameters
    let left ← first.bodyOn parameters
    return (parameters, left, ← second.bodyOn parameters)
  let (parameters, left, right) ← opened
  return .of parameters (← combinator left right)

end

/-! ### Predicates -/

/-- A predicate has one parameter and returns a Boolean. -/
def checkPredicate (l : Lambda) : Combine Unit := do
  .ensure (l.parameters.length == 1) (.notUnary l.parameters.length)
  .ensure l.returns.isBoolean (.notPredicate l.returns)

/-- The predicate on a type that always gives the same answer. -/
def constantly (type : Ty) (answer : Bool) : Build Lambda := do
  let body ← Build.constant (.boolean answer)
  return .of [← Build.parameter type none] body

def always (type : Ty) : Build Lambda := constantly type true

def never (type : Ty) : Build Lambda := constantly type false

/-- Both predicates hold; the second is asked only if the first holds. -/
def andAlso (first second : Lambda) : Combine Lambda := do
  first.checkPredicate
  second.checkPredicate
  first.combineWith second fun left right => Build.binary .andAlso left right

/-- One of the predicates holds; the second is asked only if the first does not. -/
def orElse (first second : Lambda) : Combine Lambda := do
  first.checkPredicate
  second.checkPredicate
  first.combineWith second fun left right => Build.binary .orElse left right

/-- The predicate does not hold. -/
def negated (l : Lambda) : Combine Lambda := do
  l.checkPredicate
  l.combine fun body => Build.unary .not body

end Lambda

end ExprTree

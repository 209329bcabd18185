import ExprTree.Expr.Kind
import ExprTree.Ty.Text

/-!
Why a tree cannot be built.
-/

namespace ExprTree

/-- What a test decides. -/
inductive TestRole where
  | conditional | loop
deriving DecidableEq, Repr

def TestRole.text : TestRole → String
  | .conditional => "the test of a conditional"
  | .loop => "the test of a loop"

/-- Why a node cannot be built from the parts given. -/
inductive BuildError where
  | notBoolean (role : TestRole) (found : Ty)
  | continueNotVoid (found : Ty)
  | notAssignable (target source : Ty)
  | notEnumerable (found : Ty)
  | notDisposable (found : Ty)
  | notWritable (kind : Kind)
  | notArray (found : Ty)
  | noCompoundForm (op : BinaryOp)
  | noCheckedForm (op : BinaryOp)
  | emptyBlock
  | branchMismatch (left right : Ty)
  | emptyTry
  | notNew (kind : Kind)
deriving DecidableEq

/-- A short name for the cause, for programs that read it. -/
def BuildError.name : BuildError → String
  | .notBoolean .. => "NotBoolean"
  | .continueNotVoid _ => "ContinueNotVoid"
  | .notAssignable .. => "NotAssignable"
  | .notEnumerable _ => "NotEnumerable"
  | .notDisposable _ => "NotDisposable"
  | .notWritable _ => "NotWritable"
  | .notArray _ => "NotArray"
  | .noCompoundForm _ => "NoCompoundForm"
  | .noCheckedForm _ => "NoCheckedForm"
  | .emptyBlock => "EmptyBlock"
  | .branchMismatch .. => "BranchMismatch"
  | .emptyTry => "EmptyTry"
  | .notNew _ => "NotNew"

def BuildError.message : BuildError → String
  | .notBoolean role found =>
    role.text ++ " must be a boolean expression, not " ++ found.text
  | .continueNotVoid found => "the continue label of a loop must be void, not " ++ found.text
  | .notAssignable target source =>
    "cannot assign a value of type " ++ source.text ++ " to " ++ target.text
  | .notEnumerable found => "type " ++ found.text ++ " does not support iteration"
  | .notDisposable found => "type " ++ found.text ++ " does not implement IDisposable"
  | .notWritable kind => "a " ++ kind.text ++ " expression cannot be assigned to"
  | .notArray found => "type " ++ found.text ++ " is not an array"
  | .noCompoundForm op => op.name ++ " has no compound assignment form"
  | .noCheckedForm op => op.name ++ " has no checked form"
  | .emptyBlock => "a block must contain at least one expression"
  | .branchMismatch left right =>
    "conditional branches have different types, " ++ left.text ++ " and " ++ right.text
  | .emptyTry => "a try expression needs a catch handler, a fault or a finally block"
  | .notNew kind => "expected a constructor call, found " ++ kind.text

end ExprTree

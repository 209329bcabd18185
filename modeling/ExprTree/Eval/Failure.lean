import ExprTree.Build.Error
import ExprTree.Ty.Text

/-!
Why evaluation fails.

Some failures can be caught by the program that is evaluated; they have the type of the exception
that stands for them.
-/

namespace ExprTree

inductive Failure where
  | unsupported (kind : Kind)
  | unbound (name : String)
  | missingMember (type : Ty) (name : String)
  | nullReference
  | invalidCast (source target : Ty)
  | overflow
  | divideByZero
  | indexOutOfRange (index : Int)
  | mismatch (op : BinaryOp) (left right : Ty)
  | operand (op : UnaryOp) (type : Ty)
  | notBoolean (type : Ty)
  | unresolvedLabel (name : String)
  | uncaught (exception : Value)
  | argumentCount (expected found : Nat)
  | construction (error : BuildError)

namespace Failure

/-- A short name for the cause, for programs that read it. -/
def name : Failure → String
  | .unsupported _ => "Unsupported"
  | .unbound _ => "Unbound"
  | .missingMember .. => "MissingMember"
  | .nullReference => "NullReference"
  | .invalidCast .. => "InvalidCast"
  | .overflow => "Overflow"
  | .divideByZero => "DivideByZero"
  | .indexOutOfRange _ => "IndexOutOfRange"
  | .mismatch .. => "Mismatch"
  | .operand .. => "Operand"
  | .notBoolean _ => "NotBoolean"
  | .unresolvedLabel _ => "UnresolvedLabel"
  | .uncaught _ => "Uncaught"
  | .argumentCount .. => "ArgumentCount"
  | .construction error => "Construction/" ++ error.name

def message : Failure → String
  | .unsupported kind => kind.text ++ " expressions cannot be evaluated"
  | .unbound name => "variable " ++ name ++ " is not in scope"
  | .missingMember type name => "type " ++ type.text ++ " has no member " ++ name
  | .nullReference => "object reference not set to an instance of an object"
  | .invalidCast source target =>
    "unable to cast a value of type " ++ source.text ++ " to " ++ target.text
  | .overflow => "arithmetic operation resulted in an overflow"
  | .divideByZero => "attempted to divide by zero"
  | .indexOutOfRange index =>
    "index " ++ toString index ++ " was outside the bounds of the array"
  | .mismatch op left right =>
    "operator " ++ op.name ++ " cannot be applied to " ++ left.text ++ " and " ++ right.text
  | .operand op type => "operator " ++ op.name ++ " cannot be applied to " ++ type.text
  | .notBoolean type => "expected a boolean, found " ++ type.text
  | .unresolvedLabel name => "no enclosing label " ++ name ++ " to jump to"
  | .uncaught exception => "unhandled exception of type " ++ exception.typeOf.text
  | .argumentCount expected found =>
    "expected " ++ toString expected ++ " arguments, found " ++ toString found
  | .construction error => error.message

/-- What is reported of an exception that is still on its way. -/
def thrownMessage (exception : Value) : String :=
  "exception of type " ++ exception.typeOf.text ++ " was thrown"

/-- A class of exceptions. -/
def exceptionClass (name : String) : Ty :=
  .named { Named.plain name .classType with base := some .exception }

/-- The exception that a failure raises inside the program, if a program can catch it. -/
def exceptionType? : Failure → Option Ty
  | .nullReference => some (exceptionClass "NullReferenceException")
  | .invalidCast .. => some (exceptionClass "InvalidCastException")
  | .overflow => some (exceptionClass "OverflowException")
  | .divideByZero => some (exceptionClass "DivideByZeroException")
  | .indexOutOfRange _ => some (exceptionClass "IndexOutOfRangeException")
  | _ => none

end Failure

end ExprTree

import ExprTree.Ty.Equality

/-!
Members and methods that a tree refers to.
-/

namespace ExprTree

inductive MemberKind where
  | field | property
deriving DecidableEq, Repr

/-- A field or property. -/
structure Member where
  name : String
  declaring : Ty
  type : Ty
  kind : MemberKind
  isStatic : Bool
deriving DecidableEq

namespace Member

def property (declaring : Ty) (name : String) (type : Ty) : Member :=
  ⟨name, declaring, type, .property, false⟩

def field (declaring : Ty) (name : String) (type : Ty) : Member :=
  ⟨name, declaring, type, .field, false⟩

/-- The same member, belonging to the type and not to its values. -/
def shared (m : Member) : Member := { m with isStatic := true }

/-- The number of elements of an array. -/
def length (array : Ty) : Member := property array "Length" .int32

/-- The element an enumerator stands at. -/
def current (enumerator element : Ty) : Member := property enumerator "Current" element

end Member

/-- A method. A generic method lists its type arguments; an open generic method lists its type
parameters there and has `definition` set. -/
structure Method where
  name : String
  declaring : Ty
  parameters : List Ty
  returns : Ty
  genericArguments : List Ty
  definition : Bool
  isStatic : Bool
deriving DecidableEq

namespace Method

/-- A method called on a value. -/
def ofInstance (declaring : Ty) (name : String) (parameters : List Ty) (returns : Ty) : Method :=
  ⟨name, declaring, parameters, returns, [], false, false⟩

/-- A method called on its type. -/
def function (declaring : Ty) (name : String) (parameters : List Ty) (returns : Ty) : Method :=
  ⟨name, declaring, parameters, returns, [], false, true⟩

def withGenericArguments (m : Method) (arguments : List Ty) : Method :=
  { m with genericArguments := arguments }

def asDefinition (m : Method) (parameters : List String) : Method :=
  { m with genericArguments := parameters.map .parameter, definition := true }

def pow : Method := function (.ofClass "Math") "Pow" [.double, .double] .double

def getType : Method := ofInstance .object "GetType" [] .runtimeType

def dispose : Method := ofInstance .disposable "Dispose" [] .void

def moveNext (enumerator : Ty) : Method := ofInstance enumerator "MoveNext" [] .boolean

def getEnumerator (enumerable enumerator : Ty) : Method :=
  ofInstance enumerable "GetEnumerator" [] enumerator

end Method

end ExprTree

import ExprTree.Ty.Equality

/-!
What a type is, derives from and implements.

`Ty.supertypes` lists a type, then what its base is, then what its interfaces are, each in turn
with everything above it. `implements` is membership in that list, and the element type of a
collection is that of the first matching interface in it.
-/

namespace ExprTree

mutual

/-- A type followed by everything it derives from or implements: the base first, then the
interfaces in order. A vector implements `IEnumerable<T>`, every other array `IEnumerable`. -/
def Ty.supertypes : Ty → List Ty
  | .named d => .named d :: d.above
  | .array element rank =>
    .array element rank ::
      (if rank = 1 then [.enumerableOf element, .enumerable] else [.enumerable])
  | .void => [.void]
  | .boolean => [.boolean]
  | .char => [.char]
  | .string => [.string]
  | .object => [.object]
  | .integral k => [.integral k]
  | .single => [.single]
  | .double => [.double]
  | .decimal => [.decimal]
  | .parameter name => [.parameter name]
termination_by structural t => t

/-- Everything above a declaration, the declaration itself left out. -/
def Named.above : Named → List Ty
  | ⟨_, _, _, _, base, interfaces, _⟩ => Ty.supertypesOption base ++ Ty.supertypesList interfaces
termination_by structural d => d

def Ty.supertypesList : List Ty → List Ty
  | [] => []
  | t :: ts => t.supertypes ++ Ty.supertypesList ts
termination_by structural ts => ts

def Ty.supertypesOption : Option Ty → List Ty
  | none => []
  | some t => t.supertypes
termination_by structural t => t

end

namespace Ty

/-- Interfaces that a type implements directly. -/
def interfaces : Ty → List Ty
  | .named d => d.interfaces
  | .array element 1 => [enumerableOf element]
  | .array .. => [enumerable]
  | _ => []

/-- Whether `t` is, derives from or implements `other`. -/
def implements (t other : Ty) : Bool :=
  t.supertypes.contains other

/-- Whether a value of type `source` can be stored in a location of type `target` as it is. A value
type reaches only the interfaces it implements, and `object`. -/
def assignableFrom (target source : Ty) : Bool :=
  if target = source then true
  else if source.isVoid then false
  else if target = .object then true
  else if source.isValueType then target.isInterface && source.implements target
  else source.implements target

def isDisposable (t : Ty) : Bool :=
  t.implements disposable

/-- The argument of an interface of the given name with exactly one argument. -/
def argumentOf? (name : String) : Ty → Option Ty
  | .named d =>
    match d.arguments with
    | [argument] => if d.form = .interfaceType ∧ d.name = name then some argument else none
    | _ => none
  | _ => none

/-- The `T` of the first `IEnumerable<T>` among the supertypes. -/
def enumerableElement? (t : Ty) : Option Ty :=
  t.supertypes.findSome? (argumentOf? "IEnumerable")

/-- The `T` of the first `IEnumerator<T>` among the supertypes. -/
def enumeratorElement? (t : Ty) : Option Ty :=
  t.supertypes.findSome? (argumentOf? "IEnumerator")

/-- The result type of the type's own `GetEnumerator()`. -/
def ownEnumerator? (t : Ty) : Option Ty :=
  t.declaration?.bind Named.enumerator

/-- Whether values of the type can be iterated over. -/
def isIterable (t : Ty) : Bool :=
  t.isArray || t.ownEnumerator?.isSome || t.implements enumerable

@[simp] theorem implements_self (t : Ty) : t.implements t = true := by
  have h : t ∈ t.supertypes := by
    cases t <;> simp [supertypes]
  simpa [implements] using h

end Ty

end ExprTree

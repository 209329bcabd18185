/-!
The types that an expression tree mentions.

Primitive types are constructors of their own; classes, structs and interfaces are declarations
that name what they derive from and implement. A declaration is compared as a whole, so two types
with one name and different interfaces are different types.
-/

namespace ExprTree

/-- The integral types: a width in bits, signed or not. -/
inductive Integral where
  | sbyte | byte | int16 | uint16 | int32 | uint32 | int64 | uint64
deriving DecidableEq, Repr

namespace Integral

/-- Number of bits. -/
def width : Integral → Nat
  | .sbyte | .byte => 8
  | .int16 | .uint16 => 16
  | .int32 | .uint32 => 32
  | .int64 | .uint64 => 64

/-- Whether the top bit counts negatively. -/
def signed : Integral → Bool
  | .sbyte | .int16 | .int32 | .int64 => true
  | .byte | .uint16 | .uint32 | .uint64 => false

/-- The keyword that source text uses. -/
def keyword : Integral → String
  | .sbyte => "sbyte"
  | .byte => "byte"
  | .int16 => "short"
  | .uint16 => "ushort"
  | .int32 => "int"
  | .uint32 => "uint"
  | .int64 => "long"
  | .uint64 => "ulong"

/-- The name of the type without its keyword. -/
def name : Integral → String
  | .sbyte => "SByte"
  | .byte => "Byte"
  | .int16 => "Int16"
  | .uint16 => "UInt16"
  | .int32 => "Int32"
  | .uint32 => "UInt32"
  | .int64 => "Int64"
  | .uint64 => "UInt64"

end Integral

/-- What a declared type is: classes and interfaces are held by reference, structs by value. -/
inductive Form where
  | classType | structType | interfaceType
deriving DecidableEq, Repr

mutual

/-- A type. -/
inductive Ty where
  | void
  | boolean
  | char
  | string
  | object
  | integral (kind : Integral)
  | single
  | double
  | decimal
  | array (element : Ty) (rank : Nat)
  | parameter (name : String)
  | named (declaration : Named)

/-- A class, struct or interface. A generic type carries its arguments; an open generic definition
carries its type parameters there and has `definition` set. `enumerator` is the type that the
declaration's own `GetEnumerator()` returns, if it has one. -/
structure Named where
  name : String
  form : Form
  arguments : List Ty
  definition : Bool
  base : Option Ty
  interfaces : List Ty
  enumerator : Option Ty

end

/-- A declaration with a name and a form and nothing else. -/
def Named.plain (name : String) (form : Form) : Named :=
  ⟨name, form, [], false, none, [], none⟩

namespace Ty

/-- The 32-bit signed integers, the type of counts and indices. -/
abbrev int32 : Ty := .integral .int32

/-! ### Common types -/

def ofClass (name : String) : Ty := .named (.plain name .classType)

def ofStruct (name : String) : Ty := .named (.plain name .structType)

def ofInterface (name : String) : Ty := .named (.plain name .interfaceType)

/-- An instantiated generic class such as `List<int>`. -/
def generic (name : String) (arguments : List Ty) : Ty :=
  .named { Named.plain name .classType with arguments }

/-- An open generic definition such as `Dictionary<,>`. -/
def openGeneric (name : String) (parameters : List String) : Ty :=
  .named { Named.plain name .classType with
    arguments := parameters.map .parameter, definition := true }

/-- An array of one dimension. -/
def vector (element : Ty) : Ty := .array element 1

/-- An array with the given number of dimensions, and at least one. -/
def arrayOfRank (element : Ty) (rank : Nat) : Ty := .array element (max rank 1)

def disposable : Ty := ofInterface "IDisposable"

def enumerable : Ty := ofInterface "IEnumerable"

/-- `IEnumerable<T>`, which is also an `IEnumerable`. -/
def enumerableOf (element : Ty) : Ty :=
  .named { Named.plain "IEnumerable" .interfaceType with
    arguments := [element], interfaces := [enumerable] }

def enumerator : Ty := ofInterface "IEnumerator"

/-- `IEnumerator<T>`, which is also an `IEnumerator` and an `IDisposable`. -/
def enumeratorOf (element : Ty) : Ty :=
  .named { Named.plain "IEnumerator" .interfaceType with
    arguments := [element], interfaces := [enumerator, disposable] }

/-- The type of the objects that stand for types at run time. -/
def runtimeType : Ty := ofClass "Type"

def exception : Ty := ofClass "Exception"

/-! ### Classification -/

/-- The keyword of a primitive type. -/
def keyword? : Ty → Option String
  | .void => some "void"
  | .boolean => some "bool"
  | .char => some "char"
  | .string => some "string"
  | .object => some "object"
  | .integral k => some k.keyword
  | .single => some "float"
  | .double => some "double"
  | .decimal => some "decimal"
  | .array .. | .parameter _ | .named _ => none

def declaration? : Ty → Option Named
  | .named d => some d
  | _ => none

def isVoid : Ty → Bool
  | .void => true
  | _ => false

def isBoolean : Ty → Bool
  | .boolean => true
  | _ => false

def isArray : Ty → Bool
  | .array .. => true
  | _ => false

/-- The element type of an array. -/
def element? : Ty → Option Ty
  | .array element _ => some element
  | _ => none

/-- The number of dimensions of an array, and 0 for anything else. -/
def rank : Ty → Nat
  | .array _ rank => rank
  | _ => 0

/-- Whether values of the type are held directly and cannot be null. -/
def isValueType : Ty → Bool
  | .void | .string | .object | .array .. | .parameter _ => false
  | .named d => d.form = .structType
  | .boolean | .char | .integral _ | .single | .double | .decimal => true

def isInterface : Ty → Bool
  | .named d => d.form = .interfaceType
  | _ => false

def isIntegral : Ty → Bool
  | .integral _ => true
  | _ => false

def isNumeric : Ty → Bool
  | .integral _ | .single | .double | .decimal => true
  | _ => false

/-- The type of a lambda: `Action` over its parameter types when it returns nothing, and `Func`
over the parameter types and the result otherwise. -/
def delegate (parameters : List Ty) (returns : Ty) : Ty :=
  if returns.isVoid then
    if parameters.isEmpty then ofClass "Action" else generic "Action" parameters
  else
    generic "Func" (parameters ++ [returns])

end Ty

end ExprTree

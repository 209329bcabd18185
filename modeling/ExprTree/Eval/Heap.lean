import ExprTree.Expr.Basic

/-!
What evaluation keeps: variables, defined functions, and the arrays and objects that values refer
to.
-/

namespace ExprTree

/-! ### Variables -/

/-- Variables by identity, each at most once. -/
abbrev Scope := List (Identity × Value)

namespace Scope

/-- The value of a variable. -/
def find? (scope : Scope) (id : Identity) : Option Value := scope.lookup id

/-- Give a variable a value: in its place if it has one already, and in front otherwise. -/
def insert (scope : Scope) (id : Identity) (v : Value) : Scope :=
  if (scope.find? id).isSome then scope.map fun b => if b.1 = id then (id, v) else b
  else (id, v) :: scope

/-- Take a variable out. -/
def erase (scope : Scope) (id : Identity) : Scope := scope.filter fun b => b.1 ≠ id

/-- Put a variable back to what it was. -/
def restore (scope : Scope) (id : Identity) : Option Value → Scope
  | some v => scope.insert id v
  | none => scope.erase id

end Scope

/-! ### Frames -/

/-- A function that the host defined. -/
abbrev Handle := Nat

/-- What names mean: variables, and functions by their full names. -/
structure Frame where
  scope : Scope := []
  functions : List (String × Handle) := []

/-- Define a function, in place of an earlier one of that name. -/
def Frame.define (f : Frame) (name : String) (handle : Handle) : Frame :=
  { f with functions := (name, handle) :: f.functions }

/-! ### Objects -/

/-- An object whose class the host knows nothing about: members that spring into existence, and
items added to it. -/
structure Instance where
  fields : List (String × Value) := []
  items : Array Value := #[]

namespace Instance

def field? (i : Instance) (name : String) : Option Value := i.fields.lookup name

def setField (i : Instance) (name : String) (v : Value) : Instance :=
  if (i.field? name).isSome then
    { i with fields := i.fields.map fun f => if f.1 = name then (name, v) else f }
  else { i with fields := (name, v) :: i.fields }

def addItem (i : Instance) (v : Value) : Instance := { i with items := i.items.push v }

end Instance

/-- What a reference refers to. A closure remembers the frame it was made in. -/
inductive Cell where
  | array (items : Array Value)
  | plain (i : Instance)
  | closure (l : Lambda) (frame : Frame)
  | external

/-- The arrays and objects there are. -/
structure Heap where
  cells : Array Cell := #[]

namespace Heap

def get? (h : Heap) (r : Ref) : Option Cell := h.cells[r]?

/-- Put a new cell in, and say where. -/
def alloc (h : Heap) (c : Cell) : Ref × Heap := (h.cells.size, ⟨h.cells.push c⟩)

def set (h : Heap) (r : Ref) (c : Cell) : Heap := ⟨h.cells.setIfInBounds r c⟩

/-- The elements of an array. -/
def elements (h : Heap) (r : Ref) : Array Value :=
  match h.get? r with
  | some (.array items) => items
  | _ => #[]

/-- The items added to an object. -/
def items (h : Heap) (r : Ref) : Array Value :=
  match h.get? r with
  | some (.plain i) => i.items
  | _ => #[]

/-- A new array. -/
def newArray (h : Heap) (element : Ty) (items : Array Value) : Value × Heap :=
  let (r, h) := h.alloc (.array items)
  (.array r element, h)

/-- A new object of a type. -/
def newObject (h : Heap) (type : Ty) (c : Cell) : Value × Heap :=
  let (r, h) := h.alloc c
  (.object ⟨r, type⟩, h)

end Heap

end ExprTree

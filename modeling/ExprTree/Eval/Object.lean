import ExprTree.Eval.Basic
import ExprTree.Eval.Convert

/-!
Arrays, strings and objects as programs use them.

`apply` runs a closure: a lambda in the frame it was made in, with arguments.
-/

namespace ExprTree.Eval

/-- The type has no such member. -/
def missing (v : Value) (name : String) : Failure := .missingMember v.typeOf name

/-- A length as a 32-bit integer. -/
def count (n : Nat) : Except Failure Value := Value.narrow true .int32 n

/-! ### Elements -/

/-- The position that an index stands for, among so many. -/
def position (length : Nat) (index : Value) : Except Failure Nat :=
  match index.integer? with
  | none => .error (.invalidCast index.typeOf .int32)
  | some i =>
    if 0 ≤ i ∧ i < length then .ok i.toNat
    else .error (.indexOutOfRange (BitVec.ofInt 64 i).toInt)

/-- The element at an index. -/
def elementAt (items : Array Value) (index : Value) : Except Failure Value := do
  let i ← position items.size index
  .ok (items.getD i .void)

def arrayGet (array index : Value) : Eval Value := do
  match array with
  | .null => fail .nullReference
  | .array r _ => elementAt ((← get).heap.elements r) index
  | _ => fail (missing array "[]")

def arraySet (array index v : Value) : Eval Unit := do
  match array with
  | .null => fail .nullReference
  | .array r _ =>
    let items := (← get).heap.elements r
    let i ← position items.size index
    setCell r (.array (items.setIfInBounds i v))
  | _ => fail (missing array "[]")

/-! ### Plain objects -/

/-- What a member of a plain object holds before it is written: an object of its own for a class or
interface, and the default of any other type. -/
def unwritten (type : Ty) : Eval Value :=
  match type with
  | .named _ => if type.isValueType then pure (.defaultOf type) else newInstance type
  | _ => pure (.defaultOf type)

/-- Read a member of a plain object. `Count` is the number of items unless it was written. -/
def readField (o : ObjectRef) (i : Instance) (m : Member) : Eval Value := do
  match i.field? m.name with
  | some v => return v
  | none =>
    if m.name = "Count" then count i.items.size
    else
      let v ← unwritten m.type
      setCell o.ref (.plain (i.setField m.name v))
      return v

/-- Call a method of a plain object: `Add` keeps its argument, or an array of its arguments, and
`get_Item` gives back what was added. -/
def callPlain (o : ObjectRef) (i : Instance) (m : Method) (arguments : List Value) :
    Eval Value := do
  match m.name, arguments with
  | "Add", [item] =>
    setCell o.ref (.plain (i.addItem item))
    return .void
  | "Add", entry =>
    let item ← newArray .object entry.toArray
    setCell o.ref (.plain (i.addItem item))
    return .void
  | "get_Item", [index] => elementAt i.items index
  | name, _ => fail (.missingMember o.type name)

/-! ### Objects -/

variable (host : Host)

def objectGet (o : ObjectRef) (m : Member) : Eval Value := do
  match (← get).heap.get? o.ref with
  | some (.plain i) => readField o i m
  | some .external => ask host (.get o m) (.missingMember o.type m.name)
  | _ => fail (.missingMember o.type m.name)

def objectSet (o : ObjectRef) (m : Member) (v : Value) : Eval Unit := do
  match (← get).heap.get? o.ref with
  | some (.plain i) => setCell o.ref (.plain (i.setField m.name v))
  | some .external => discard (ask host (.set o m v) (.missingMember o.type m.name))
  | _ => fail (.missingMember o.type m.name)

def objectCall (apply : Lambda → Frame → List Value → Eval Value) (o : ObjectRef) (m : Method)
    (arguments : List Value) : Eval Value := do
  match (← get).heap.get? o.ref with
  | some (.plain i) => callPlain o i m arguments
  | some (.closure l frame) =>
    if m.name = "Invoke" then apply l frame arguments else fail (.missingMember o.type m.name)
  | some .external => ask host (.method o m arguments) (.missingMember o.type m.name)
  | _ => fail (.missingMember o.type m.name)

/-! ### Values -/

/-- Read a member of a value. Arrays and strings have a `Length`. -/
def memberGet (target : Value) (m : Member) : Eval Value := do
  match target with
  | .null => fail .nullReference
  | .object o => objectGet host o m
  | .array r _ =>
    if m.name = "Length" then count ((← get).heap.elements r).size
    else fail (missing target m.name)
  | .string text =>
    if m.name = "Length" then count text.length else fail (missing target m.name)
  | _ => fail (missing target m.name)

/-- Write a member of a value. -/
def memberSet (target : Value) (m : Member) (v : Value) : Eval Unit :=
  match target with
  | .null => fail .nullReference
  | .object o => objectSet host o m v
  | _ => fail (missing target m.name)

variable (apply : Lambda → Frame → List Value → Eval Value)

/-- Call a method of a value. Everything but null has `GetType()`. -/
def callOn (target : Value) (m : Method) (arguments : List Value) : Eval Value :=
  if target.isNull then fail .nullReference
  else if m.name = "GetType" && arguments.isEmpty then pure (.type target.typeOf)
  else
    match target with
    | .object o => objectCall host apply o m arguments
    | _ => fail (missing target m.name)

/-- Read an indexed element: of an array, of a string, or by calling `get_Item`. -/
def indexGet (target : Value) (arguments : List Value) (type : Ty) : Eval Value := do
  match target, arguments with
  | .array .., [index] => arrayGet target index
  | .string text, [index] => elementAt (text.toList.map .char).toArray index
  | _, _ => callOn host apply target (.ofInstance target.typeOf "get_Item" [] type) arguments

/-- Write an indexed element: of an array, or by calling `set_Item`. -/
def indexSet (target : Value) (arguments : List Value) (v : Value) : Eval Unit := do
  match target, arguments with
  | .array .., [index] => arraySet target index v
  | _, _ =>
    discard (callOn host apply target (.ofInstance target.typeOf "set_Item" [] .void)
      (arguments ++ [v]))

end ExprTree.Eval

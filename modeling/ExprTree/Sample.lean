import ExprTree.Combine

/-!
A catalogue of small programs.
-/

namespace ExprTree

/-- A program of the catalogue. -/
structure Sample where
  name : String
  summary : String
  build : Combine Lambda

namespace Sample

/-- `Console.WriteLine(object)` -/
def writeLine : Method := .function (.ofClass "Console") "WriteLine" [.object] .void

/-- A call that prints a value. -/
def print (e : Expr) : Build Expr := Build.callStatic writeLine [e]

def add : Build Lambda := do
  let a ← Build.parameter .int32 "a"
  let b ← Build.parameter .int32 "b"
  return .of [a, b] (← Build.binary .add (← Build.read a) (← Build.read b))

/-- A block that computes `a op b` and then adds to it or takes away from it, checked throughout. -/
def checkedBranch (op : BinaryOp) (name : String) (a b : Parameter) : Build Expr := do
  let result ← Build.parameter .int32 name
  let combined ← Build.binaryWith op (← Build.read a) (← Build.read b) false true
  let stored ← Build.assign (← Build.read result) combined
  let updated ← Build.binaryWith op (← Build.read result) (← Build.int 42) true true
  Build.block [result] [stored, updated, ← Build.read result]

def checked : Build Lambda := do
  let a ← Build.parameter .int32 "a"
  let b ← Build.parameter .int32 "b"
  let left ← checkedBranch .add "c" a b
  let right ← checkedBranch .subtract "d" a b
  let test ← Build.binary .greaterThan (← Build.read a) (← Build.read b)
  return .of [a, b] (← Build.conditional test left right)

def counting : Build Lambda := do
  let l ← Build.parameter .int32 "l"
  let i ← Build.parameter .int32 "i"
  let test ← Build.binary .lessThan (← Build.read i) (← Build.read l)
  let step ← Build.unary .preIncrementAssign (← Build.read i)
  let body ← print (← Build.convert (← Build.read i) .object)
  return .of [l] (← Build.forLoop i (← Build.int 0) test step body none none)

def iterating : Build Lambda := do
  let items ← Build.parameter (.enumerableOf .string) "items"
  let item ← Build.parameter .string "item"
  let body ← print (← Build.read item)
  return .of [items] (← Build.forEach item (← Build.read items) body none none)

def halving : Build Lambda := do
  let n ← Build.parameter .int32 "n"
  let test ← Build.binary .greaterThan (← Build.read n) (← Build.int 1)
  let body ← Build.binaryWith .divide (← Build.read n) (← Build.int 2) true false
  return .of [n] (← Build.whileLoop test body none none)

def repeating : Build Lambda := do
  let n ← Build.parameter .int32 "n"
  let done ← Build.label .void "done"
  let isThirteen ← Build.binary .equal (← Build.read n) (← Build.int 13)
  let leave ← Build.ifThen isThirteen (← Build.breakTo done)
  let decrement ← Build.unary .postDecrementAssign (← Build.read n)
  let body ← Build.blockTyped .void [] [leave, decrement]
  let test ← Build.binary .greaterThan (← Build.read n) (← Build.int 0)
  return .of [n] (← Build.doWhile body test done none)

def disposing : Build Lambda := do
  let stream : Ty := .named { Named.plain "Stream" .classType with interfaces := [.disposable] }
  let s ← Build.parameter stream "s"
  let flush ← Build.call (← Build.read s) (.ofInstance stream "Flush" [] .void) []
  return .of [s] (← Build.usingBlock (← Build.read s) flush)

def guarded : Build Lambda := do
  let x ← Build.parameter .int32 "x"
  let e ← Build.parameter .exception "e"
  let message : Member := .property .exception "Message" .string
  let quotient ← Build.binary .divide (← Build.int 100) (← Build.read x)
  let body ← print (← Build.convert quotient .object)
  let filter ← Build.binary .notEqual (← Build.member (← Build.read e) message)
    (← Build.null .string)
  let report ← print (← Build.member (← Build.read e) message)
  let done ← print (← Build.constant (.string "done"))
  return .of [x] (← Build.attempt body [⟨.exception, e, filter, report⟩] none done)

def naming : Build Lambda := do
  let n ← Build.parameter .int32 "n"
  let zero : SwitchCase := ⟨[← Build.int 0], ← Build.constant (.string "none")⟩
  let few : SwitchCase :=
    ⟨[← Build.int 1, ← Build.int 2, ← Build.int 3], ← Build.constant (.string "few")⟩
  let many ← Build.constant (.string "many")
  return .of [n] (← Build.switch (← Build.read n) [zero, few] many)

def skipping : Build Lambda := do
  let x ← Build.parameter .int32 "x"
  let last ← Build.label .void "end"
  let isNegative ← Build.binary .lessThan (← Build.read x) (← Build.int 0)
  let skip ← Build.ifThen isNegative (← Build.goto last)
  let report ← print (← Build.convert (← Build.read x) .object)
  return .of [x] (← Build.block [] [skip, report, ← Build.labelAt last none])

def initializing : Build Lambda := do
  let list : Ty := .generic "List" [.int32]
  let point : Ty := .ofClass "Point"
  let add : Method := .ofInstance list "Add" [.int32] .void
  let x : Member := .property point "X" .int32
  let values : Member := .property point "Values" list
  let body ← Build.memberInit (← Build.create point [])
    [.assignment x (← Build.int 1),
      .elements values [⟨add, [← Build.int 2]⟩, ⟨add, [← Build.int 3]⟩]]
  return .of [] body

def exact : Build Lambda := do
  let o ← Build.parameter .object "o"
  return .of [o] (← Build.typeTest .typeEqual (← Build.read o) (.generic "List" [.int32]))

def predicate : Combine Lambda := do
  let length : Member := .property .string "Length" .int32
  let starts : Method := .ofInstance .string "StartsWith" [.string] .boolean
  let isLong : Build Lambda := do
    let s ← Build.parameter .string "s"
    let test ← Build.binary .greaterThan (← Build.member (← Build.read s) length) (← Build.int 3)
    return .of [s] test
  let hasStart : Build Lambda := do
    let t ← Build.parameter .string "t"
    let test ← Build.call (← Build.read t) starts [← Build.constant (.string "a")]
    return .of [t] test
  Lambda.andAlso (← isLong) (← hasStart)

/-- The catalogue. -/
def all : List Sample :=
  [⟨"add", "Sum of two parameters", add⟩,
    ⟨"checked", "Checked arithmetic in both branches of a conditional", checked⟩,
    ⟨"for", "Counting loop calling a static method", counting⟩,
    ⟨"foreach", "Iterating over a sequence of strings", iterating⟩,
    ⟨"while", "Halving a number until it reaches one", halving⟩,
    ⟨"do", "A do/while loop with an early break", repeating⟩,
    ⟨"using", "Disposing a resource after use", disposing⟩,
    ⟨"try", "Catch with a filter, and a finally block", guarded⟩,
    ⟨"switch", "Mapping numbers to names", naming⟩,
    ⟨"goto", "Jumping forward to a label", skipping⟩,
    ⟨"init", "Object and collection initializers", initializing⟩,
    ⟨"typeof", "Exact type test", exact⟩,
    ⟨"predicate", "Two predicates combined with &&", predicate⟩]

def find? (name : String) : Option Sample := all.find? (·.name == name)

end Sample

end ExprTree

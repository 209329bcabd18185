import ExprTree.Eval.Failure
import ExprTree.Eval.Heap

/-!
The host: what a program reaches outside itself.

The host defines functions and owns objects. It answers a request by what was asked before and by
the heap that it finds, so a run is determined by the program and the host together. It holds
references into the heap: it may store to arrays and objects, let arrays grow and shrink, make new
ones and call closures, and it leaves the heap as that makes it. What a result needs of the host is
a hypothesis of that result.
-/

namespace ExprTree

/-- What a program asks of the host. -/
inductive Request where
  | function (handle : Handle) (arguments : List Value)
  | method (o : ObjectRef) (m : Method) (arguments : List Value)
  | get (o : ObjectRef) (m : Member)
  | set (o : ObjectRef) (m : Member) (v : Value)

/-- The values that the host gets hold of by a request. -/
def Request.handed : Request → List Value
  | .function _ arguments => arguments
  | .method o _ arguments => .object o :: arguments
  | .get o _ => [.object o]
  | .set o _ v => [.object o, v]

/-- A request that was answered, with the heap as it was when it was made. -/
structure HostCall where
  request : Request
  heap : Heap

/-- What the host replies. -/
inductive Reply where
  | value (v : Value)
  | throw (exception : Value)
  | fail (f : Failure)

/-- An answer of the host: its reply, and the heap that it leaves. -/
structure Answer where
  reply : Reply
  heap : Heap

/-- A host answers a request, given the calls before it, latest first, and the present heap. It has
no answer for what it does not know. -/
structure Host where
  answer : List HostCall → Heap → Request → Option Answer

/-- The host that knows nothing. -/
def Host.absent : Host := ⟨fun _ _ _ => none⟩

end ExprTree

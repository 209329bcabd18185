import ExprTree.Build.Basic
import ExprTree.Eval.Host

/-!
Computations of the evaluator.

A computation ends with an outcome and a state, or runs out of fuel. The state is kept whatever the
outcome is.
-/

namespace ExprTree

/-- The state of a run: the frame in force, the heap, the identities not used yet, and the calls
that the host answered, latest first. -/
structure State where
  frame : Frame := {}
  heap : Heap := {}
  supply : Supply := 0
  history : List HostCall := []

/-- How a computation ends: with a value, on its way to a label, with an exception on its way to a
handler, or with a failure. -/
inductive Outcome (α : Type) where
  | value (a : α)
  | jump (target : Label) (v : Value)
  | throw (exception : Value)
  | fail (f : Failure)

/-- A computation. There is no result when its fuel does not last. -/
def Eval (α : Type) : Type := State → Option (Outcome α × State)

namespace Eval

/-- End with an outcome, the state unchanged. -/
def finish {α : Type} (o : Outcome α) : Eval α := fun s => some (o, s)

/-- Go on after a value; anything else ends the whole. -/
def andThen {α β : Type} (x : Eval α) (f : α → Eval β) : Eval β := fun s =>
  match x s with
  | some (.value a, s) => f a s
  | some (.jump target v, s) => some (.jump target v, s)
  | some (.throw v, s) => some (.throw v, s)
  | some (.fail e, s) => some (.fail e, s)
  | none => none

instance : Monad Eval where
  pure a := finish (.value a)
  bind := andThen

def outOfFuel {α : Type} : Eval α := fun _ => none

def fail {α : Type} (f : Failure) : Eval α := finish (.fail f)

def throwing {α : Type} (exception : Value) : Eval α := finish (.throw exception)

def jump {α : Type} (target : Label) (v : Value) : Eval α := finish (.jump target v)

def get : Eval State := fun s => some (.value s, s)

def modify (f : State → State) : Eval Unit := fun s => some (.value (), f s)

def ofExcept {α : Type} : Except Failure α → Eval α
  | .ok a => finish (.value a)
  | .error f => fail f

instance : MonadLift (Except Failure) Eval := ⟨ofExcept⟩

/-- How a computation ends, as a value. -/
def settle {α : Type} (x : Eval α) : Eval (Outcome α) := fun s =>
  (x s).map fun (o, s) => (.value o, s)

/-- Build something with identities that are not used yet. -/
def build {α : Type} (b : Build α) : Eval α := fun s =>
  match b s.supply with
  | .ok (a, supply) => some (.value a, { s with supply })
  | .error e => some (.fail (.construction e), s)

/-! ### Heap -/

/-- A new array. -/
def newArray (element : Ty) (items : Array Value) : Eval Value := fun s =>
  let (v, heap) := s.heap.newArray element items
  some (.value v, { s with heap })

/-- A new object of a type. -/
def newObject (type : Ty) (c : Cell) : Eval Value := fun s =>
  let (v, heap) := s.heap.newObject type c
  some (.value v, { s with heap })

/-- A new object that has nothing yet. -/
def newInstance (type : Ty) : Eval Value := newObject type (.plain {})

def setCell (r : Ref) (c : Cell) : Eval Unit :=
  modify fun s => { s with heap := s.heap.set r c }

/-! ### Host -/

def ofReply : Reply → Outcome Value
  | .value v => .value v
  | .throw v => .throw v
  | .fail f => .fail f

/-- The state that an answer leaves. -/
def answered (request : Request) (a : Answer) (s : State) : State :=
  { s with heap := a.heap, history := ⟨request, s.heap⟩ :: s.history }

/-- Ask the host, and fail if it has no answer. -/
def ask (host : Host) (request : Request) (unanswered : Failure) : Eval Value := fun s =>
  match host.answer s.history s.heap request with
  | some a => some (ofReply a.reply, answered request a s)
  | none => some (.fail unanswered, s)

/-! ### Variables -/

/-- What a variable is called in messages. -/
def describe (p : Parameter) : String := p.name.getD ("#" ++ toString p.id)

def setScope (s : State) (scope : Scope) : State := { s with frame := { s.frame with scope } }

def load (p : Parameter) : Eval Value := fun s =>
  match s.frame.scope.find? p.id with
  | some v => some (.value v, s)
  | none => some (.fail (.unbound (describe p)), s)

/-- Store to a variable that is in scope. -/
def assign (p : Parameter) (v : Value) : Eval Unit := fun s =>
  match s.frame.scope.find? p.id with
  | some _ => some (.value (), setScope s (s.frame.scope.insert p.id v))
  | none => some (.fail (.unbound (describe p)), s)

/-- Run with a variable in scope, and put back what it hides however the run ends. -/
def withVariable {α : Type} (p : Parameter) (v : Value) (x : Eval α) : Eval α := fun s =>
  let previous := s.frame.scope.find? p.id
  (x (setScope s (s.frame.scope.insert p.id v))).map fun (o, last) =>
    (o, setScope last (last.frame.scope.restore p.id previous))

/-- Run with several variables in scope. -/
def withVariables {α : Type} : List (Parameter × Value) → Eval α → Eval α
  | [], x => x
  | (p, v) :: rest, x => withVariable p v (withVariables rest x)

/-- Run in another frame, and come back to the present one. -/
def inFrame {α : Type} (frame : Frame) (x : Eval α) : Eval α := fun s =>
  (x { s with frame }).map fun (o, last) => (o, { last with frame := s.frame })

end Eval

/-- The computation that ends this way. -/
def Outcome.resume {α : Type} (o : Outcome α) : Eval α := Eval.finish o

/-- The outcome of a program: a jump that found no label and an exception that found no handler are
failures. -/
def Outcome.concluded {α : Type} : Outcome α → Outcome α
  | .jump target _ => .fail (.unresolvedLabel (target.name.getD "(anonymous)"))
  | .throw exception => .fail (.uncaught exception)
  | .value a => .value a
  | .fail f => .fail f

/-- Run a program to its end. -/
def Eval.concluded {α : Type} (x : Eval α) : Eval α := fun s =>
  (x s).map fun (o, s) => (o.concluded, s)

end ExprTree

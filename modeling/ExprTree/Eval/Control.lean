import ExprTree.Eval.Basic
import ExprTree.Ty.Supertypes

/-!
Statements, loops and exception handling.

Each function takes `run`, which evaluates an expression. Those that may go round for ever also
take fuel, one unit for each step.
-/

namespace ExprTree.Eval

/-- The Boolean behind a value that must be one. -/
def truth (v : Value) : Except Failure Bool :=
  match v with
  | .boolean b => .ok b
  | _ => .error (.notBoolean v.typeOf)

/-- Whether an expression is the place a jump to the label goes to. -/
def isPlaceOf (target : Label) (e : Expr) : Bool :=
  match e.node with
  | .label l _ => l.same target
  | _ => false

/-- The statements after the first place of a label. -/
def after? (target : Label) : List Expr → Option (List Expr)
  | [] => none
  | e :: es => if isPlaceOf target e then some es else after? target es

variable (run : Expr → Eval Value)

/-- Evaluate expressions in order. -/
def runAll (es : List Expr) : Eval (List Value) := es.mapM run

/-- Run what is left of a list of statements. A jump to one of the labels in the whole list goes on
after that label, with the value that it carries. -/
def runStatements (whole : List Expr) : Nat → List Expr → Value → State →
    Option (Outcome Value × State)
  | _, [], last, s => some (.value last, s)
  | 0, _ :: _, _, _ => none
  | fuel + 1, e :: es, _, s =>
    match run e s with
    | some (.value v, s) => runStatements whole fuel es v s
    | some (.jump target v, s) =>
      match after? target whole with
      | some rest => runStatements whole fuel rest v s
      | none => some (.jump target v, s)
    | ended => ended

/-- Run a block in which its locals hold the defaults of their types. -/
def runBlock (fuel : Nat) (locals : List Parameter) (statements : List Expr) (type : Ty) :
    Eval Value := do
  let v ← withVariables (locals.map fun p => (p, .defaultOf p.type))
    (runStatements run statements fuel statements .void)
  return if type.isVoid then .void else v

/-- Whether a label is the target of a jump. -/
def reaches (l : Option Label) (target : Label) : Bool := (l.map (·.same target)).getD false

/-- Run a body again and again, until it jumps to the break label. -/
def runLoop (body : Expr) (breakTo continueTo : Option Label) : Nat → State →
    Option (Outcome Value × State)
  | 0, _ => none
  | fuel + 1, s =>
    match run body s with
    | some (.value _, s) => runLoop body breakTo continueTo fuel s
    | some (.jump target v, s) =>
      if reaches breakTo target then some (.value v, s)
      else if reaches continueTo target then runLoop body breakTo continueTo fuel s
      else some (.jump target v, s)
    | ended => ended

/-- Whether one of the tests gives the value. -/
def matchesAny (v : Value) : List Expr → Eval Bool
  | [] => return false
  | test :: tests => do
    if (← run test).equal v then return true else matchesAny v tests

/-- Run the first case with a test that gives the value, or else the default. -/
def runCases (v : Value) (fallback : Option Expr) : List SwitchCase → Eval Value
  | [] =>
    match fallback with
    | some e => run e
    | none => return .void
  | c :: cs => do
    if ← matchesAny run v c.tests then run c.body else runCases v fallback cs

/-- The exception that an outcome stands for, if it is one that can be caught. -/
def exceptionOf (o : Outcome Value) : Eval (Option Value) :=
  match o with
  | .throw exception => return some exception
  | .fail f =>
    match f.exceptionType? with
    | some type => some <$> newInstance type
    | none => return none
  | .value _ | .jump .. => return none

/-- Whether a filter accepts: it must give true, and whatever else happens in it does not count. -/
def accepts (filter : Option Expr) : Eval Bool :=
  match filter with
  | none => return true
  | some e => do
    match ← (run e).settle with
    | .value (.boolean true) => return true
    | _ => return false

/-- Run a handler whose type accepts the exception, unless its filter refuses. -/
def tryHandler (h : Handler) (exception : Value) : Eval (Option (Outcome Value)) :=
  let handle : Eval (Option (Outcome Value)) := do
    if ← accepts run h.filter then return some (← (run h.body).settle) else return none
  match h.caught with
  | some p => withVariable p exception handle
  | none => handle

/-- Run the first handler whose type and filter accept the exception. -/
def runHandlers (exception : Value) : List Handler → Eval (Option (Outcome Value))
  | [] => return none
  | h :: hs => do
    if h.tested.assignableFrom exception.typeOf then
      match ← tryHandler run h exception with
      | some o => return some o
      | none => runHandlers exception hs
    else runHandlers exception hs

/-- Run an expression for what it does, if there is one. -/
def runOptional (e : Option Expr) : Eval Unit :=
  match e with
  | some e => discard (run e)
  | none => return ()

/-- Run a body; hand what it throws to the handlers, or else run the fault block; run the final
block in the end. -/
def runAttempt (body : Expr) (handlers : List Handler) (fault finalizer : Option Expr) :
    Eval Value := do
  let ended ← (run body).settle
  let handled ←
    match ← exceptionOf ended with
    | none => pure ended
    | some exception =>
      match ← runHandlers run exception handlers with
      | some o => pure o
      | none =>
        runOptional run fault
        pure ended
  runOptional run finalizer
  handled.resume

end ExprTree.Eval

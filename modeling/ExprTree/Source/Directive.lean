import ExprTree.Expr.Kind

/-!
What writing a tree asks for, step by step.

A directive is one step of output with its text settled. A mark is a directive or a symbol: a
parameter or label whose name is settled only when the marks are read in order, because symbols
without a name of their own are numbered as they come.
-/

namespace ExprTree.Source

/-- What a name in the output stands for. -/
inductive Referent where
  | type (t : Ty)
  | method (m : Method)
  | member (m : Member)
  | parameter (p : Parameter)
  | label (l : Label)
  | lambda (l : Lambda)

/-- One step of output. `indent` and `dedent` change the depth of the lines that follow. -/
inductive Directive where
  | write (text : String)
  | newline
  | space
  | token (text : String)
  | keyword (text : String)
  | literal (text : String)
  | reference (text : String) (referent : Referent)
  | identifier (text : String) (referent : Referent)
  | indent
  | dedent

/-- Something whose name may have to be made up. -/
inductive Symbol where
  | parameter (p : Parameter)
  | label (l : Label)

namespace Symbol

def id : Symbol → Identity
  | .parameter p => p.id
  | .label l => l.id

def ownName : Symbol → Option String
  | .parameter p => p.name
  | .label l => l.name

def referent : Symbol → Referent
  | .parameter p => .parameter p
  | .label l => .label l

end Symbol

/-- One step of writing, before names are settled. -/
inductive Mark where
  | step (d : Directive)
  | symbol (s : Symbol)

end ExprTree.Source

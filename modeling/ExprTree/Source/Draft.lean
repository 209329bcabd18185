import ExprTree.Source.Directive

/-!
Drafts: what has been written so far, and why writing stopped if it did.

Drafts are put together with `++`. What comes after a failure is never written.
-/

namespace ExprTree.Source

/-- What an operator lacks. -/
inductive Lack where
  | compoundForm | token
deriving DecidableEq, Repr

def Lack.text : Lack → String
  | .compoundForm => "operator has no compound assignment form"
  | .token => "operator has no infix form"

/-- A node has no source form. -/
structure RenderError where
  kind : Kind
  lack : Lack
deriving DecidableEq, Repr

def RenderError.message (e : RenderError) : String :=
  "cannot write " ++ e.kind.text ++ ": " ++ e.lack.text

/-- The marks written, and the failure that ended writing, if any. -/
structure Draft where
  marks : List Mark
  error : Option RenderError

namespace Draft

def empty : Draft := ⟨[], none⟩

/-- Write one draft and then, unless it failed, another. -/
def append (a b : Draft) : Draft :=
  match a.error with
  | none => ⟨a.marks ++ b.marks, b.error⟩
  | some _ => a

instance : Append Draft := ⟨append⟩

def ofMarks (marks : List Mark) : Draft := ⟨marks, none⟩

def ofDirective (d : Directive) : Draft := ofMarks [.step d]

/-- Stop with a failure. -/
def failure (kind : Kind) (lack : Lack) : Draft := ⟨[], some ⟨kind, lack⟩⟩

@[simp] theorem append_marks_of_ok {a b : Draft} (h : a.error = none) :
    (a ++ b).marks = a.marks ++ b.marks := by
  show (append a b).marks = _
  simp [append, h]

@[simp] theorem append_error_of_ok {a b : Draft} (h : a.error = none) :
    (a ++ b).error = b.error := by
  show (append a b).error = _
  simp [append, h]

theorem append_of_error {a b : Draft} {e : RenderError} (h : a.error = some e) : a ++ b = a := by
  show append a b = _
  simp [append, h]

theorem append_assoc (a b c : Draft) : a ++ b ++ c = a ++ (b ++ c) := by
  show append (append a b) c = append a (append b c)
  cases ha : a.error <;> cases hb : b.error <;> simp [append, ha, hb]

@[simp] theorem empty_append (a : Draft) : empty ++ a = a := rfl

@[simp] theorem append_empty (a : Draft) : a ++ empty = a := by
  show append a empty = _
  cases a with
  | mk marks error => cases error <;> simp [append, empty]

end Draft

/-! ### Single steps -/

def space : Draft := .ofDirective .space

def newline : Draft := .ofDirective .newline

def indent : Draft := .ofDirective .indent

def dedent : Draft := .ofDirective .dedent

def token (text : String) : Draft := .ofDirective (.token text)

def keyword (text : String) : Draft := .ofDirective (.keyword text)

def literal (text : String) : Draft := .ofDirective (.literal text)

def reference (text : String) (referent : Referent) : Draft :=
  .ofDirective (.reference text referent)

def identifier (text : String) (referent : Referent) : Draft :=
  .ofDirective (.identifier text referent)

def parameterName (p : Parameter) : Draft := .ofMarks [.symbol (.parameter p)]

def labelName (l : Label) : Draft := .ofMarks [.symbol (.label l)]

/-! ### Common shapes -/

/-- Drafts with a comma and a space between them. -/
def commaSeparated : List Draft → Draft
  | [] => .empty
  | [d] => d
  | d :: ds => d ++ token "," ++ space ++ commaSeparated ds

/-- Drafts with commas between an opening and a closing token. -/
def listed (opening closing : String) (items : List Draft) : Draft :=
  token opening ++ commaSeparated items ++ token closing

def parenthesized (body : Draft) : Draft := token "(" ++ body ++ token ")"

/-- A body on lines of its own, one level deeper, between braces. -/
def braced (body : Draft) : Draft :=
  token "\x7b" ++ newline ++ indent ++ body ++ dedent ++ token "\x7d"

/-- A body whose overflows are reported. -/
def checkedBlock (body : Draft) : Draft :=
  keyword "checked" ++ space ++ token "\x7b" ++ space ++ body ++ space ++ token "\x7d"

end ExprTree.Source

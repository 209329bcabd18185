import ExprTree.Source.Grouping
import ExprTree.Source.Type

/-!
Statements and blocks in source text.

Each function takes `write`, which writes an expression.
-/

namespace ExprTree.Source

variable (write : Expr → Draft)

/-- An operand, in parentheses if its kind asks for them. -/
def operand (e : Expr) : Draft :=
  if e.kind.isGroupedAsOperand then parenthesized (write e) else write e

/-- What `.member`, `(arguments)` or `[index]` follows, in parentheses if its kind asks for them. -/
def target (e : Expr) : Draft :=
  if e.kind.isGroupedAsTarget then parenthesized (write e) else write e

def arguments (es : List Expr) : Draft := listed "(" ")" (es.map write)

/-- One statement. The value of a block is returned, unless the expression is a statement or
returns by itself. -/
def statement (valued : Bool) (e : Expr) : Draft :=
  let plain := !e.isStatement && e.kind ≠ .label
  (if plain && valued && !e.isReturn then keyword "return" ++ space else .empty) ++ write e ++
    (if plain then token ";" ++ newline
      else if e.kind = .block then newline
      else .empty)

/-- The statements of a block of the given type, whose last one is its value. A label is followed
by its default as a statement of its own. -/
def statements (type : Ty) : List Expr → Draft
  | [] => .empty
  | e :: es =>
    let valued := es.isEmpty && !type.isVoid
    (match e.node with
      | .label _ (some fallback) => write e ++ statement write valued fallback
      | .label _ none => write e
      | _ => statement write valued e) ++
    statements type es

/-- The locals of a block, one to a line, and a blank line after them. -/
def declarations (locals : List Parameter) : Draft :=
  locals.foldr
    (fun p rest => writeType p.type ++ space ++ parameterName p ++ token ";" ++ newline ++ rest)
    (if locals.isEmpty then .empty else newline)

def block (locals : List Parameter) (es : List Expr) (type : Ty) : Draft :=
  braced (declarations locals ++ statements write type es)

/-- A body in braces: a block as it is, anything else as a block of one statement. -/
def body (type : Ty) (e : Expr) : Draft :=
  match e.node with
  | .block locals es blockType => block write locals es blockType
  | _ => braced (statements write type [e])

/-- A body in braces with the line ended after it. -/
def bodyLines (type : Ty) (e : Expr) : Draft := body write type e ++ newline

/-- A keyword, a parenthesized head and a body. -/
def headed (word : String) (head : Draft) (e : Expr) : Draft :=
  keyword word ++ space ++ parenthesized head ++ newline ++ bodyLines write .void e

/-- A keyword and a body. -/
def introduced (word : String) (type : Ty) (e : Expr) : Draft :=
  keyword word ++ newline ++ bodyLines write type e

def conditional (test ifTrue : Expr) (ifFalse : Option Expr) (type : Ty) : Draft :=
  if isTernary ifTrue ifFalse type then
    write test ++ space ++ token "?" ++ space ++ write ifTrue ++ space ++ token ":" ++ space ++
      (match ifFalse with
        | some ifFalse => write ifFalse
        | none => .empty)
  else
    keyword "if" ++ space ++ parenthesized (write test) ++ newline ++ bodyLines write type ifTrue ++
      (match ifFalse with
        | some ifFalse => introduced write "else" type ifFalse
        | none => .empty)

def jump (kind : JumpKind) (destination : Label) (value : Option Expr) : Draft :=
  match kind with
  | .returning =>
    keyword "return" ++
      (match value with
        | some value => space ++ write value
        | none => .empty)
  | .breaking => keyword "break"
  | .continuing => keyword "continue"
  | .goto => keyword "goto" ++ space ++ labelName destination

/-- A label stands one level further out than the statements around it. -/
def labelLine (l : Label) : Draft :=
  dedent ++ labelName l ++ token ":" ++ newline ++ indent

def switchCase (type : Ty) (c : SwitchCase) : Draft :=
  c.tests.foldr
    (fun test rest => keyword "case" ++ space ++ write test ++ token ":" ++ newline ++ rest)
    (bodyLines write type c.body)

def switch (value : Expr) (cases : List SwitchCase) (fallback : Option Expr) (type : Ty) : Draft :=
  let fallbackCase : Draft :=
    match fallback with
    | some e => keyword "default" ++ token ":" ++ newline ++ bodyLines write type e
    | none => .empty
  keyword "switch" ++ space ++ parenthesized (write value) ++ newline ++
    braced (cases.foldr (fun c rest => switchCase write type c ++ rest) fallbackCase) ++ newline

def handler (type : Ty) (h : Handler) : Draft :=
  let caught : Draft :=
    match h.caught with
    | some p => space ++ parameterName p
    | none => .empty
  let filter : Draft :=
    match h.filter with
    | some e => space ++ keyword "if" ++ space ++ parenthesized (write e)
    | none => .empty
  keyword "catch" ++ space ++ parenthesized (writeType h.tested ++ caught) ++ filter ++ newline ++
    bodyLines write type h.body

def attempt (e : Expr) (handlers : List Handler) (fault finalizer : Option Expr) : Draft :=
  let type := e.type
  let optional (word : String) (part : Option Expr) : Draft :=
    match part with
    | some part => introduced write word .void part
    | none => .empty
  introduced write "try" type e ++
    handlers.foldr (fun h rest => handler write type h ++ rest)
      (optional "fault" fault ++ optional "finally" finalizer)

/-- A lambda's parameters are already written: its body in braces. -/
def lambdaBody (l : Lambda) : Draft := body write l.returns l.body

end ExprTree.Source

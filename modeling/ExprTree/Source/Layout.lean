import ExprTree.Source.Directive

/-!
Layout: directives as fragments of text.

Every fragment has a category, so that it can be styled. A line is indented when something is
first written on it, by the depth at that moment; a line on which nothing is written stays empty.
-/

namespace ExprTree.Source

/-- What a fragment of source text is. -/
inductive Category where
  | neutral | indent | newline | keyword | declaration | type | variable | member | function
  | label | string | numeric | operator | structural
deriving DecidableEq, Repr

namespace Category

def name : Category → String
  | .neutral => "Neutral"
  | .indent => "Indent"
  | .newline => "Newline"
  | .keyword => "Keyword"
  | .declaration => "Declaration"
  | .type => "Type"
  | .variable => "Variable"
  | .member => "Member"
  | .function => "Function"
  | .label => "Label"
  | .string => "String"
  | .numeric => "Numeric"
  | .operator => "Operator"
  | .structural => "Structure"

def all : List Category :=
  [.neutral, .indent, .newline, .keyword, .declaration, .type, .variable, .member, .function,
    .label, .string, .numeric, .operator, .structural]

/-- Brackets and punctuation are structure, all other tokens are operators. -/
def ofToken (text : String) : Category :=
  if ["\x7b", "\x7d", "(", ")", "[", "]", ";", ",", ".", ":"].contains text then .structural
  else .operator

/-- A literal is told by how it begins. -/
def ofLiteral (text : String) : Category :=
  if ["null", "true", "false"].contains text then .keyword
  else
    match text.toList with
    | '"' :: _ | '\'' :: _ => .string
    | _ => .numeric

def ofReferent : Referent → Category
  | .type _ => .type
  | .method _ => .function
  | .member _ => .member
  | .parameter _ => .variable
  | .label _ => .label
  | .lambda _ => .declaration

end Category

/-- A piece of source text. -/
structure Fragment where
  category : Category
  content : String
deriving DecidableEq, Repr

/-- The text of fragments, one after the other. -/
def plainText (fragments : List Fragment) : String :=
  String.join (fragments.map Fragment.content)

theorem plainText_append (a b : List Fragment) :
    plainText (a ++ b) = plainText a ++ plainText b := by
  simp only [plainText, List.map_append, String.join_append]

/-- Where layout stands: the text of one level of indentation, the depth, and whether nothing has
been written on the line yet. -/
structure Layout where
  unit : String := "\t"
  depth : Nat := 0
  atLineStart : Bool := true
deriving DecidableEq, Repr

namespace Layout

/-- The indentation of a line. -/
def indentation (l : Layout) : String := String.join (List.replicate l.depth l.unit)

/-- Put content on the line, indented if it is the first. Empty content is passed over. -/
def put (l : Layout) (category : Category) (content : String) : List Fragment × Layout :=
  if content.isEmpty then ([], l)
  else
    let indent : List Fragment :=
      if l.atLineStart && 0 < l.depth then [⟨.indent, l.indentation⟩] else []
    (indent ++ [⟨category, content⟩], { l with atLineStart := false })

/-- The fragments of one directive, and where layout stands after it. -/
def step (l : Layout) : Directive → List Fragment × Layout
  | .write text => l.put .neutral text
  | .newline => ([⟨.newline, "\n"⟩], { l with atLineStart := true })
  | .space => l.put .neutral " "
  | .token text => l.put (.ofToken text) text
  | .keyword text => l.put .keyword text
  | .literal text => l.put (.ofLiteral text) text
  | .reference text referent => l.put (.ofReferent referent) text
  | .identifier text referent => l.put (.ofReferent referent) text
  | .indent => ([], { l with depth := l.depth + 1 })
  | .dedent => ([], { l with depth := l.depth - 1 })

/-- The fragments of directives, and where layout stands after them. -/
def run (l : Layout) : List Directive → List Fragment × Layout
  | [] => ([], l)
  | d :: ds =>
    let (fragments, next) := l.step d
    let (rest, last) := next.run ds
    (fragments ++ rest, last)

theorem run_append (l : Layout) (a b : List Directive) :
    l.run (a ++ b) = ((l.run a).1 ++ ((l.run a).2.run b).1, ((l.run a).2.run b).2) := by
  induction a generalizing l with
  | nil => rfl
  | cons d ds ih => simp [run, ih]

end Layout

end ExprTree.Source
